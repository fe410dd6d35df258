import QuicVpn.Server.Addresses

/-!
# A disconnect and the other clients

`SHUTDOWN_COMPLETE` gives the record of its connection back to `client_pool` and writes
`client->ConnectionHandle = NULL` after that; a `NEW_CONNECTION` may have taken the block meanwhile.

* `Phase.client`          the record of a client, from the end of `list_add_client` to `pool_put`;
* `Server.Undisturbed`    a step of a `SHUTDOWN_COMPLETE` handler changes no record of another client;
* `Server.RecordOk`       at the write behind `pool_put`, no other client has the record;
* `Server.Handles`        the invariant: the record of a client has its handle.

The main result is `server_undisturbed_iff`.
-/

set_option linter.unusedSectionVars false

namespace QuicVpn
open Conc

/-- the record of the connection as a client -/
def Phase.client : Phase → Option Blk
  | .configuring b => some b
  | .live b _ => some b
  | .acquired b _ => some b
  | .entered b => some b
  | .removing b _ => some b
  | .unlisting b _ => some b
  | .putting b _ => some b
  | _ => none

/-- the `SHUTDOWN_COMPLETE` handler is in progress -/
def Phase.disconnecting : Phase → Bool
  | .removing _ .shutdown => true
  | .unlisting _ .shutdown => true
  | .putting _ .shutdown => true
  | .removed _ .shutdown => true
  | .closing _ => true
  | _ => false

/-- the record that the handler is about to write after it has put it -/
def Phase.stale : Phase → Option Blk
  | .removed b .shutdown => some b
  | _ => none

/-- only a connection that holds a block has a record -/
theorem Phase.client_hold {q : Phase} {b : Blk} (h : q.client = some b) : b ∈ q.hold := by
  cases q with
  | configuring c =>
    cases h
    exact Multiset.mem_singleton_self b
  | live c n =>
    cases h
    exact Multiset.mem_singleton_self b
  | acquired c e =>
    cases h
    exact Multiset.mem_singleton_self b
  | entered c =>
    cases h
    exact Multiset.mem_singleton_self b
  | removing c w =>
    cases h
    exact Multiset.mem_singleton_self b
  | unlisting c w =>
    cases h
    exact Multiset.mem_singleton_self b
  | putting c w =>
    cases h
    exact Multiset.mem_singleton_self b
  | _ => cases h

section
variable {K : Type} [Fintype K] [DecidableEq K]

/-- the step is one of the `SHUTDOWN_COMPLETE` handler of `k` -/
def Server.Disconnects (s : Server K) (k : K) : ConnAct K → Prop
  | .shutdownComplete u => u = k
  | .run u => u = k ∧ (s.ph k).disconnecting = true
  | _ => False

def Server.Undisturbed (s : Server K) (a : ConnAct K) : Prop :=
  ∀ k, s.Disconnects k a → ∀ s', s.step a = some s' →
    ∀ u b, u ≠ k → (s.ph u).client = some b → s'.session.mem b = s.session.mem b

def Server.RecordOk (s : Server K) : ConnAct K → Prop
  | .run k => ∀ b ∈ (s.ph k).stale, ∀ u, u ≠ k → (s.ph u).client ≠ some b
  | _ => True

instance (s : Server K) : ∀ a, Decidable (s.RecordOk a)
  | .run k => inferInstanceAs
      (Decidable (∀ b ∈ (s.ph k).stale, ∀ u, u ≠ k → (s.ph u).client ≠ some b))
  | .newConnection _ => .isTrue trivial
  | .alloc _ _ => .isTrue trivial
  | .configured _ _ => .isTrue trivial
  | .connected _ => .isTrue trivial
  | .shutdownComplete _ => .isTrue trivial

/-! ## the handles in the records -/

def Server.Handles (s : Server K) : Prop :=
  ∀ k b, (s.ph k).client = some b → (s.session.mem b).connectionHandle = some k

variable {tun : TunIface} {n : ℕ} {s s' : Server K}

/-- a section of `k` that keeps the handles of the other clients -/
theorem Server.Handles.next (h : s.Handles) (k : K) (q : Phase)
    (hph : s'.ph = Function.update s.ph k q)
    (hown : ∀ b, q.client = some b → (s'.session.mem b).connectionHandle = some k)
    (hothers : ∀ u b, u ≠ k → (s.ph u).client = some b →
      (s'.session.mem b).connectionHandle = (s.session.mem b).connectionHandle) : s'.Handles := by
  intro u b hu
  rw [hph] at hu
  by_cases e : u = k
  · rw [e, Function.update_self] at hu
    rw [e]
    exact hown b hu
  · rw [Function.update_of_ne e] at hu
    rw [hothers u b e hu]
    exact h u b hu

/-- a section that writes no handle -/
theorem Server.Handles.keep (h : s.Handles) {k : K} {q0 : Phase} (hk : s.ph k = q0) (q : Phase)
    (hph : s'.ph = Function.update s.ph k q) (hq : q.client = q0.client ∨ q.client = none)
    (hmem : ∀ b, (s'.session.mem b).connectionHandle = (s.session.mem b).connectionHandle) :
    s'.Handles := by
  refine h.next k q hph (fun b hb => ?_) fun u b _ _ => hmem b
  rw [hmem b]
  apply h k b
  rw [hk]
  rcases hq with e | e
  · rw [← e]
    exact hb
  · rw [e] at hb
    cases hb

/-- the records of two connections are different -/
theorem Server.Inv.record_ne (h : s.Inv tun n) {k u : K} {b d : Blk} (hu : u ≠ k)
    (hb : b ∈ (s.ph k).hold) (hd : (s.ph u).client = some d) : d ≠ b := by
  rintro rfl
  exact hu (h.pool.owner (Phase.client_hold hd) hb)

theorem Server.step_handles (a : ConnAct K) (hi : s.Inv tun n) (h : s.Handles)
    (hC : s.RecordOk a) (hs : s.step a = some s') : s'.Handles := by
  cases Server.step_move hs with
  | noSlot hk hslot => exact h.keep hk _ rfl (.inl rfl) fun _ => rfl
  | offer hk hslot => exact h.keep hk _ rfl (.inl rfl) fun _ => rfl
  | alloc hk hr => exact h.keep hk _ rfl (.inl rfl) fun _ => rfl
  | configured hk => exact h.keep hk _ rfl (.inl rfl) fun _ => rfl
  | configFailed hk => exact h.keep hk _ rfl (.inl rfl) fun _ => rfl
  | connected hk => exact h.keep hk _ rfl (.inl rfl) fun _ => rfl
  | shutdown hk => exact h.keep hk _ rfl (.inl rfl) fun _ => rfl
  | block hk hg => exact h.keep hk _ rfl (.inl rfl) fun _ => rfl
  | full hk hg => exact h.keep hk _ rfl (.inl rfl) fun _ => rfl
  | reserve hk hg => exact h.keep hk _ rfl (.inl rfl) fun _ => rfl
  | allocDone hk => exact h.keep hk _ rfl (.inl rfl) fun _ => rfl
  | allocFailed hk => exact h.keep hk _ rfl (.inl rfl) fun _ => rfl
  | @fill k idx b hk =>
    refine h.next k (.configuring b) rfl (fun d hd => ?_) fun u d hu hd => ?_
    · cases hd
      exact congrArg Client.connectionHandle (Session.setClient_self ..)
    · have hb : b ∈ (s.ph k).hold := by
        rw [hk]
        exact Multiset.mem_singleton_self b
      exact congrArg Client.connectionHandle
        (Session.setClient_of_ne _ (hi.record_ne hu hb hd) _)
  | @noEntry k b hk | @entry k b i hk | @assign k b hk =>
    refine h.keep hk _ rfl (.inl rfl) fun d => ?_
    refine handle_update s.session.mem b ?_ d
    rfl
  | outOfRange hk ht => exact h.keep hk _ rfl (.inr rfl) fun _ => rfl
  | @clear k b why t hk ht =>
    obtain rfl := Session.removeClear_some ht
    refine h.keep hk _ rfl (.inl rfl) fun d => ?_
    refine handle_update s.session.mem b ?_ d
    rfl
  | unlist hk hlock => exact h.keep hk _ rfl (.inl rfl) fun _ => rfl
  | put hk ht =>
    obtain ⟨p, -, rfl⟩ := Session.clientPut_some ht
    exact h.keep hk _ rfl (.inr rfl) fun _ => rfl
  | @clearHandle k b hk =>
    refine h.next k (.closing b) rfl (fun d hd => by cases hd) fun u d hu hd => ?_
    -- no client has the record that is written here
    have hst : b ∈ (s.ph k).stale := by
      rw [hk]
      rfl
    have hne : d ≠ b := fun e => hC b hst u hu (e ▸ hd)
    exact congrArg Client.connectionHandle (Session.setClient_of_ne _ hne _)
  | close hk => exact h.keep hk _ rfl (.inl rfl) fun _ => rfl
  | closeConfig hk => exact h.keep hk _ rfl (.inl rfl) fun _ => rfl
  | fail hk => exact h.keep hk _ rfl (.inl rfl) fun _ => rfl

theorem Server.handles_run (hi : s.Inv tun n) (h : s.Handles) {l : List (ConnAct K)}
    (hs : exec Server.step s l = some s') (hC : Along Server.step Server.RecordOk s l) :
    s'.Inv tun n ∧ s'.Handles := by
  refine exec_inv_along (I := fun t => t.Inv tun n ∧ t.Handles) (fun t a t' ht hC hst => ?_)
    ⟨hi, h⟩ hs hC
  exact ⟨Server.step_inv t a t' ht.1 hst, Server.step_handles a ht.1 ht.2 hC hst⟩

theorem Server.reach_handles {session : Session K} (h0 : session.Fresh tun n)
    {l : List (ConnAct K)} (hs : exec Server.step (Server.init session) l = some s)
    (hC : Along Server.step Server.RecordOk (Server.init session) l) :
    s.Inv tun n ∧ s.Handles := by
  refine Server.handles_run (Server.init_inv h0) (fun k b hb => ?_) hs hC
  cases hb

/-! ## the steps of `SHUTDOWN_COMPLETE` -/

/-- a section that writes one record only, which no other client has -/
theorem Server.write_undisturbed {a : ConnAct K} {k : K} (hk : ∀ u, s.Disconnects u a → u = k)
    {b : Blk} {c : Client K} (hs : s.step a = some s')
    (hmem : s'.session.mem = Function.update s.session.mem b c)
    (hb : ∀ u, u ≠ k → (s.ph u).client ≠ some b) : s.Undisturbed a := by
  intro v hv t ht u d hu hd
  obtain rfl := Option.some.inj (hs.symm.trans ht)
  obtain rfl := hk v hv
  have hne : d ≠ b := fun e => hb u hu (e ▸ hd)
  rw [hmem, Function.update_of_ne hne]

theorem Server.pass_undisturbed {a : ConnAct K} (hs : s.step a = some s')
    (hmem : s'.session.mem = s.session.mem) : s.Undisturbed a := by
  intro k _ t ht u b _ _
  obtain rfl := Option.some.inj (hs.symm.trans ht)
  rw [hmem]

/-- a section of a handler of another kind -/
theorem Server.other_undisturbed {k : K} (hk : (s.ph k).disconnecting = false) :
    s.Undisturbed (.run k) := by
  rintro u ⟨rfl, hu⟩
  rw [hk] at hu
  cases hu

theorem Server.Inv.undisturbed (hi : s.Inv tun n) (a : ConnAct K) (hC : s.RecordOk a)
    (hs : s.step a = some s') : s.Undisturbed a := by
  cases Server.step_move hs with
  | @fill k idx b hk => exact Server.other_undisturbed (by rw [hk]; rfl)
  | @noEntry k b hk => exact Server.other_undisturbed (by rw [hk]; rfl)
  | @entry k b i hk => exact Server.other_undisturbed (by rw [hk]; rfl)
  | @assign k b hk => exact Server.other_undisturbed (by rw [hk]; rfl)
  | @clear k b why t hk ht =>
    have hb : b ∈ (s.ph k).hold := by
      rw [hk]
      exact Multiset.mem_singleton_self b
    obtain rfl := Session.removeClear_some ht
    -- `list_remove_client` clears the record before it puts it
    refine Server.write_undisturbed (k := k) (fun u hu => hu.1.symm) hs rfl fun u hu hd => ?_
    exact hi.record_ne hu hb hd rfl
  | @clearHandle k b hk =>
    have hst : b ∈ (s.ph k).stale := by
      rw [hk]
      rfl
    exact Server.write_undisturbed (k := k) (fun u hu => hu.1.symm) hs rfl (hC b hst)
  | put hk ht =>
    obtain ⟨p, -, rfl⟩ := Session.clientPut_some ht
    exact Server.pass_undisturbed hs rfl
  | _ => exact Server.pass_undisturbed hs rfl

/-- the write behind `pool_put` takes the handle out of the record of the client that has it now -/
theorem Server.Handles.disturbed (h : s.Handles) (a : ConnAct K) (hC : ¬ s.RecordOk a) :
    ¬ s.Undisturbed a := by
  cases a with
  | run k =>
    simp only [Server.RecordOk, not_forall, not_not] at hC
    obtain ⟨b, hst, u, hu, hd⟩ := hC
    cases hk : s.ph k with
    | removed c why =>
      rw [hk] at hst
      cases why with
      | shutdown =>
        cases hst
        intro hun
        have hs : s.step (.run k) = some (s.goto k (s.session.clearHandle b) (.closing b)) := by
          simp only [Server.step, Server.run, hk]
        have e := hun k ⟨rfl, by rw [hk]; rfl⟩ _ hs u b hu hd
        have hn : ((s.session.clearHandle b).mem b).connectionHandle = none :=
          congrArg Client.connectionHandle (Session.setClient_self ..)
        have hh := h u b hd
        rw [← e] at hh
        exact Option.some_ne_none u (hh.symm.trans hn)
      | config => cases hst
    | _ =>
      rw [hk] at hst
      cases hst
  | _ => exact absurd trivial hC

/-- **A disconnect and the other clients.**  In a run of the callbacks, no step of a
`SHUTDOWN_COMPLETE` handler changes the record of another client, if and only if whenever such a
handler comes to its write of `client->ConnectionHandle`, no other client has got the record since
`pool_put`. -/
theorem server_undisturbed_iff (tun : TunIface) (n : ℕ) (session : Session K)
    (h0 : session.Fresh tun n) (l : List (ConnAct K)) (s : Server K)
    (hs : exec Server.step (Server.init session) l = some s) :
    Along Server.step Server.Undisturbed (Server.init session) l ↔
      Along Server.step Server.RecordOk (Server.init session) l := by
  refine along_iff_along (I := fun s => s.Inv tun n ∧ s.Handles) ?_ ?_ ?_ hs
  · rintro s a s' ⟨hi, hh⟩ hC hs
    exact ⟨Server.step_inv s a s' hi hs, Server.step_handles a hi hh hC hs⟩
  · rintro s a s' ⟨hi, hh⟩ hs
    constructor
    · intro hun
      by_contra hC
      exact hh.disturbed a hC hun
    · intro hC
      exact hi.undisturbed a hC hs
  · refine ⟨Server.init_inv h0, fun k b hb => ?_⟩
    cases hb

end

/-- the connection `false` comes up, goes down as far as its `pool_put`, and `true` takes the block -/
def recycled : List (ConnAct Bool) :=
  [.newConnection false, .run false, .alloc false (some 100), .run false, .run false,
   .configured false true, .shutdownComplete false, .run false, .run false, .run false,
   .newConnection true, .run true]

/-- the handler of the first connection comes to its write before the second one fills the record -/
theorem server_undisturbed_iff_recycled :
    ∃ s, exec Server.step (Server.init (fourSlots Bool))
        (recycled ++ [.run false, .run true]) = some s ∧
      (s.session.mem 100).connectionHandle = some true ∧
      Along Server.step Server.Undisturbed (Server.init (fourSlots Bool))
        (recycled ++ [.run false, .run true]) := by
  have h : (exec Server.step (Server.init (fourSlots Bool))
      (recycled ++ [.run false, .run true])).map
      (fun s => (s.session.mem 100).connectionHandle) = some (some true) := by decide
  obtain ⟨s, hs, e⟩ := Option.map_eq_some_iff.mp h
  have hC : Along Server.step Server.RecordOk (Server.init (fourSlots Bool))
      (recycled ++ [.run false, .run true]) := by decide
  exact ⟨s, hs, e, (server_undisturbed_iff tunThirty 30 (fourSlots Bool) fourSlots_fresh
    (recycled ++ [.run false, .run true]) s hs).mpr hC⟩

/-- and here after that: the second connection is live, and its record has no handle any more -/
theorem disconnect_clears_other_handle :
    ∃ s t, exec Server.step (Server.init (fourSlots Bool))
        (recycled ++ [.run true, .configured true true]) = some s ∧
      s.ph true = .live 100 false ∧ (s.session.mem 100).connectionHandle = some true ∧
      s.Disconnects false (.run false) ∧ s.step (.run false) = some t ∧ t.ph true = .live 100 false ∧
      (t.session.mem 100).connectionHandle = none ∧ ¬ s.Undisturbed (.run false) := by
  refine ⟨_, _, rfl, rfl, rfl, ⟨rfl, rfl⟩, rfl, rfl, rfl, fun hun => ?_⟩
  have e := congrArg Client.connectionHandle
    (hun false ⟨rfl, rfl⟩ _ rfl true 100 (by decide) rfl)
  cases e

end QuicVpn
