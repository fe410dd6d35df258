import QuicVpn.Server.Addresses
import QuicVpn.Server.Handlers

/-!
# Delivery of tunnel packets to the clients (`thread_pkt_data_send`)

Here each connection handler is one step, and the send thread takes two for a packet: `lookup dst`
calls `ip_client_search` on the destination address, and `send` reads `ConnectionHandle` from the
record found and calls `DatagramSend`.  `sent` records each call with the state of the lookup, the
destination and the handle.

* `Server.Assigned`   the connection that has an address;
* `Deliver.Right`     every packet went to the connection that had its address at the lookup.

Between the two steps the record can be cleared, or cleared and reused for another connection.
`deliver_right_iff`: the packets go to the right connection exactly as long as no `send` comes after
the `SHUTDOWN_COMPLETE` of the connection that was looked up.
-/

set_option linter.unusedSectionVars false

namespace QuicVpn
open Conc

/-- where the send thread is; `at_` is the state in which it looked the address up -/
inductive SendPc (K : Type) where
  | idle
  | found (at_ : Server K) (dst : InAddr) (c : Blk)

structure Deliver (K : Type) where
  server : Server K
  pc : SendPc K
  sent : List (Server K × InAddr × Option K)

inductive DeliverAct (K : Type) where
  | newConnection (k : K) (alloc : Option Blk) (ok : Bool)
  | connected (k : K)
  | shutdownComplete (k : K)
  | lookup (dst : InAddr)
  | send

section
variable {K : Type} [Fintype K] [DecidableEq K]

/-- a step of the callbacks, seen by the send thread -/
def Deliver.handle (s : Deliver K) : Option (Server K) → Option (Deliver K)
  | some t => some { s with server := t }
  | none => none

def Deliver.step (s : Deliver K) : DeliverAct K → Option (Deliver K)
  | .newConnection k alloc ok => s.handle (s.server.onNewConnection k alloc ok)
  | .connected k => s.handle (s.server.onConnected k)
  | .shutdownComplete k => s.handle (s.server.onShutdownComplete k)
  | .lookup dst =>
    match s.pc with
    | .idle =>
      match ipClientSearch s.server.session.ipPool dst with
      | some c => some { s with pc := .found s.server dst c }
      | none => some s
    | .found _ _ _ => none
  | .send =>
    match s.pc with
    | .idle => none
    | .found at_ dst c =>
      some { s with pc := .idle
                    sent := (at_, dst, (s.server.session.mem c).connectionHandle) :: s.sent }

def Deliver.init (session : Session K) : Deliver K := ⟨Server.init session, .idle, []⟩

/-- the address is that of the entry in the record of the connection -/
def Server.Assigned (s : Server K) (dst : InAddr) (k : K) : Prop :=
  ∃ b c i, s.ph k = .live b c ∧ (s.session.mem b).ipEntry = some i ∧
    (s.session.ipPool.ipEntry i).ip = dst

/-- every packet was sent on the connection that had its address at the lookup -/
def Deliver.Right (s : Deliver K) : Prop :=
  ∀ e ∈ s.sent, ∃ k, Server.Assigned e.1 e.2.1 k ∧ e.2.2 = some k

/-- a `send` only while the connection that was looked up is still up -/
def SendsToLive (s : Deliver K) (a : DeliverAct K) : Prop :=
  a = .send → ∀ at_ dst c, s.pc = .found at_ dst c →
    ∀ k, at_.Assigned dst k → ∃ b cn, s.server.ph k = .live b cn

/-! ## the server between two handlers -/

structure Server.Between (tun : TunIface) (n : ℕ) (s : Server K) : Prop where
  inv : s.Inv tun n
  quiet : ∀ k, (s.ph k).quiet = true
  lock : s.listLock = none
  live : ∀ k b c, s.ph k = .live b c → (s.session.mem b).connectionHandle = some k
  stale : ∀ b ∈ s.heap, ∀ k, (s.session.mem b).connectionHandle = some k →
    (∃ c, s.ph k = .live b c) ∨ s.ph k = .refused

/-- a connection that is up stays up with its record, or is closed for good -/
def Server.Keeps (s s' : Server K) : Prop :=
  (∀ k b c, s.ph k = .live b c → (∃ c', s'.ph k = .live b c') ∨ s'.ph k = .closed) ∧
  (∀ k, s.ph k = .closed → s'.ph k = .closed) ∧ ∀ b ∈ s.heap, b ∈ s'.heap

section
variable {tun : TunIface} {n : ℕ} {s s' : Server K} {k : K}

theorem Server.Between.inv_run (h : s.Between tun n)
    (hrun : ∃ l, exec Server.step s l = some s') : s'.Inv tun n := by
  obtain ⟨l, hl⟩ := hrun
  exact exec_inv (I := Server.Inv tun n) Server.step_inv h.inv hl

/-- **One handler.**  It moves connection `k` to `q`; what is left to show is which handles the
records have, for `k` and for the others. -/
theorem Server.Between.next (h : s.Between tun n) (hinv : s'.Inv tun n) {q : Phase}
    (hph : s'.ph = Function.update s.ph k q) (hq : q.quiet = true) (hlock : s'.listLock = none)
    (hlive : ∀ u d c, u ≠ k → s.ph u = .live d c → (s'.session.mem d).connectionHandle = some u)
    (hstale : ∀ d ∈ s'.heap, ∀ u, u ≠ k → (s'.session.mem d).connectionHandle = some u →
      (∃ c, s.ph u = .live d c) ∨ s.ph u = .refused)
    (hown : ∀ d c, q = .live d c → (s'.session.mem d).connectionHandle = some k)
    (hleft : ∀ d ∈ s'.heap, (s'.session.mem d).connectionHandle = some k →
      (∃ c, q = .live d c) ∨ q = .refused) : s'.Between tun n := by
  refine ⟨hinv, fun u => ?_, hlock, fun u d c hu => ?_, fun d hd u hh => ?_⟩
  · rw [hph]
    by_cases huk : u = k
    · rw [huk, Function.update_self]
      exact hq
    · rw [Function.update_of_ne huk]
      exact h.quiet u
  · rw [hph] at hu
    by_cases huk : u = k
    · rw [huk, Function.update_self] at hu
      rw [huk]
      exact hown d c hu
    · rw [Function.update_of_ne huk] at hu
      exact hlive u d c huk hu
  · rw [hph]
    by_cases huk : u = k
    · rw [huk] at hh
      rw [huk, Function.update_self]
      exact hleft d hd hh
    · rw [Function.update_of_ne huk]
      exact hstale d hd u huk hh

/-- the handler of `k` keeps the record, or closes the connection -/
theorem Server.keeps_next {q0 q : Phase} (hk : s.ph k = q0)
    (hph : s'.ph = Function.update s.ph k q) (h0 : q0 ≠ .closed)
    (hq : ∀ b c, q0 = .live b c → (∃ c', q = .live b c') ∨ q = .closed)
    (hheap : ∀ b ∈ s.heap, b ∈ s'.heap) : s.Keeps s' := by
  refine ⟨fun u b c hu => ?_, fun u hu => ?_, hheap⟩
  · rw [hph]
    by_cases huk : u = k
    · rw [huk, Function.update_self]
      exact hq b c (hk.symm.trans (huk ▸ hu))
    · rw [Function.update_of_ne huk]
      exact Or.inl ⟨c, hu⟩
  · have huk : u ≠ k := by
      intro e
      rw [e, hk] at hu
      exact h0 hu
    rw [hph, Function.update_of_ne huk]
    exact hu

/-- two connections that are up have different records -/
theorem Server.Between.ne_record (h : s.Between tun n) {u : K} {b d : Blk} {c c' : Bool}
    (hu : u ≠ k) (hk : s.ph k = .live b c) (hd : s.ph u = .live d c') : d ≠ b := by
  intro e
  apply hu
  apply h.inv.pool.owner (b := b)
  · rw [hd, e]
    exact Multiset.mem_singleton_self b
  · rw [hk]
    exact Multiset.mem_singleton_self b

/-- the handles after `list_add_client` has given the record `b` to `k` -/
theorem Server.Between.added (h : s.Between tun n) {alloc : Option Blk} {b : Blk} {t : Session K}
    (hk : s.ph k = .idle) (hfresh : ∀ b ∈ alloc, b ∉ s.heap)
    (hadd : listAddClient s.session k alloc = (some b, t)) :
    (∀ u d c, u ≠ k → s.ph u = .live d c → (t.mem d).connectionHandle = some u) ∧
    (∀ d ∈ s.session.taken alloc ++ s.heap, ∀ u, u ≠ k → (t.mem d).connectionHandle = some u →
      (∃ c, s.ph u = .live d c) ∨ s.ph u = .refused) ∧
    ∀ d ∈ s.session.taken alloc ++ s.heap, (t.mem d).connectionHandle = some k → d = b := by
  obtain ⟨hself, hother⟩ := listAddClient_handle hadd
  have hinv := h.inv_run (Server.add_run_some hk h.lock hfresh hadd)
  have hold : ∀ d ∈ s.session.taken alloc ++ s.heap, d ≠ b → d ∈ s.heap := by
    intro d hd hne
    rcases List.mem_append.mp hd with hd | hd
    · exact absurd (listAddClient_taken hadd hd) hne
    · exact hd
  refine ⟨fun u d c hu hd => ?_, fun d hd u hu hh => ?_, fun d hd hh => ?_⟩
  · -- the record is not that of another connection that is up
    have hne : d ≠ b := by
      intro e
      apply hu
      apply hinv.pool.owner (b := b)
      · show b ∈ (Function.update s.ph k (.configuring b) u).hold
        rw [Function.update_of_ne hu, hd, e]
        exact Multiset.mem_singleton_self b
      · show b ∈ (Function.update s.ph k (.configuring b) k).hold
        rw [Function.update_self]
        exact Multiset.mem_singleton_self b
    rw [hother d hne]
    exact h.live u d c hd
  · have hne : d ≠ b := by
      intro e
      rw [e, hself] at hh
      exact hu (Option.some.inj hh).symm
    rw [hother d hne] at hh
    exact h.stale d (hold d hd hne) u hh
  · by_contra hne
    rw [hother d hne] at hh
    rcases h.stale d (hold d hd hne) k hh with ⟨c, e⟩ | e
    · exact Phase.noConfusion (hk.symm.trans e)
    · exact Phase.noConfusion (hk.symm.trans e)

theorem Server.Between.onNewConnection (h : s.Between tun n) {alloc : Option Blk} {ok : Bool}
    (hs : s.onNewConnection k alloc ok = some s') : s'.Between tun n ∧ s.Keeps s' := by
  have hinv := h.inv_run (Server.onNewConnection_run h.lock hs)
  unfold Server.onNewConnection at hs
  rw [Option.ite_none_right_eq_some] at hs
  obtain ⟨⟨hk, hfresh⟩, hs⟩ := hs
  have hgrow : ∀ b ∈ s.heap, b ∈ s.session.taken alloc ++ s.heap :=
    fun b hb => List.mem_append_right _ hb
  split at hs
  · rename_i t hadd
    cases hs
    obtain ⟨hmem, htaken⟩ := listAddClient_none hadd
    have hold : s.session.taken alloc ++ s.heap = s.heap := by rw [htaken, List.nil_append]
    refine ⟨h.next hinv rfl rfl rfl (fun u d c hu hd => ?_) (fun d hd u hu hh => ?_)
      (fun d c e => Phase.noConfusion e) (fun d hd hh => Or.inr rfl),
      Server.keeps_next hk rfl Phase.noConfusion (fun b c e => Phase.noConfusion e) hgrow⟩
    · show (t.mem d).connectionHandle = some u
      rw [hmem]
      exact h.live u d c hd
    · exact h.stale d (hold ▸ hd) u (hmem ▸ hh)
  · rename_i b t hadd
    obtain ⟨hlive, hstale, hb⟩ := h.added hk hfresh hadd
    cases ok with
    | true =>
      cases hs
      refine ⟨h.next hinv rfl rfl h.lock hlive hstale (fun d c e => ?_) (fun d hd hh => ?_),
        Server.keeps_next hk rfl Phase.noConfusion (fun b c e => Phase.noConfusion e) hgrow⟩
      · cases e
        exact (listAddClient_handle hadd).1
      · rw [hb d hd hh]
        exact Or.inl ⟨false, rfl⟩
    | false =>
      rw [if_neg Bool.false_ne_true] at hs
      split at hs
      · cases hs
      · rename_i r t' hrem
        cases hs
        have hsame := listRemoveClient_handle hrem
        refine ⟨h.next hinv rfl rfl h.lock (fun u d c hu hd => (hsame d).trans (hlive u d c hu hd))
          (fun d hd u hu hh => hstale d hd u hu ((hsame d).symm.trans hh))
          (fun d c e => Phase.noConfusion e) (fun d hd hh => Or.inr rfl),
          Server.keeps_next hk rfl Phase.noConfusion (fun b c e => Phase.noConfusion e) hgrow⟩

theorem Server.Between.onConnected (h : s.Between tun n) (hs : s.onConnected k = some s') :
    s'.Between tun n ∧ s.Keeps s' := by
  have hinv := h.inv_run (Server.onConnected_run hs)
  unfold Server.onConnected at hs
  split at hs
  · rename_i b hk
    cases hs
    have hsame := initializeClientState_handle s.session b
    refine ⟨h.next hinv rfl rfl h.lock (fun u d c _ hd => (hsame d).trans (h.live u d c hd))
      (fun d hd u _ hh => h.stale d hd u ((hsame d).symm.trans hh)) (fun d c e => ?_)
      (fun d hd hh => Or.inl ?_),
      Server.keeps_next hk rfl Phase.noConfusion (fun d c e => Or.inl ?_) fun b hb => hb⟩
    · cases e
      exact (hsame b).trans (h.live k b false hk)
    · rcases h.stale d hd k ((hsame d).symm.trans hh) with ⟨c, e⟩ | e
      · cases hk.symm.trans e
        exact ⟨true, rfl⟩
      · exact Phase.noConfusion (hk.symm.trans e)
    · cases e
      exact ⟨true, rfl⟩
  · cases hs

theorem Server.Between.onShutdownComplete (h : s.Between tun n)
    (hs : s.onShutdownComplete k = some s') : s'.Between tun n ∧ s.Keeps s' := by
  have hinv := h.inv_run (Server.onShutdownComplete_run h.lock hs)
  unfold Server.onShutdownComplete at hs
  split at hs
  · rename_i b cn hk
    dsimp only at hs
    split at hs
    · cases hs
    · rename_i r t hrem
      cases hs
      have hsame := listRemoveClient_handle hrem
      have hself : ((t.clearHandle b).mem b).connectionHandle = none :=
        congrArg Client.connectionHandle (Session.setClient_self ..)
      have hother : ∀ d, d ≠ b →
          ((t.clearHandle b).mem d).connectionHandle = (s.session.mem d).connectionHandle := by
        intro d hd
        exact (congrArg Client.connectionHandle (Session.setClient_of_ne _ hd _)).trans (hsame d)
      -- the cleared record has no handle, and every other record has its old one
      have hstale : ∀ d ∈ s.heap, ∀ u, ((t.clearHandle b).mem d).connectionHandle = some u →
          d ≠ b ∧ ((∃ c, s.ph u = .live d c) ∨ s.ph u = .refused) := by
        intro d hd u hh
        have hne : d ≠ b := by
          intro e
          rw [e] at hh
          exact absurd (hself.symm.trans hh) (Option.some_ne_none u).symm
        exact ⟨hne, h.stale d hd u ((hother d hne).symm.trans hh)⟩
      refine ⟨h.next hinv rfl rfl h.lock (fun u d c hu hd => ?_)
        (fun d hd u _ hh => (hstale d hd u hh).2) (fun d c e => Phase.noConfusion e)
        (fun d hd hh => ?_),
        Server.keeps_next hk rfl Phase.noConfusion (fun _ _ _ => Or.inr rfl) fun b hb => hb⟩
      · exact (hother d (h.ne_record hu hk hd)).trans (h.live u d c hd)
      · obtain ⟨hne, hs | hs⟩ := hstale d hd k hh
        · obtain ⟨c, e⟩ := hs
          cases hk.symm.trans e
          exact absurd rfl hne
        · exact Phase.noConfusion (hk.symm.trans hs)
  · cases hs

/-- what `ip_client_search` finds is the record of the one connection that has the address -/
theorem Server.Between.search (h : s.Between tun n) {dst : InAddr} {c : Blk}
    (hc : ipClientSearch s.session.ipPool dst = some c) :
    ∃ k cn, s.ph k = .live c cn ∧ s.Assigned dst k ∧ ∀ u, s.Assigned dst u → u = k := by
  obtain ⟨i, hi, hip, hcl⟩ := ipClientSearch_some hc
  have hlease := (h.inv.leases i c).mp hcl
  obtain ⟨⟨k, cn, hk⟩, he⟩ := (Server.held_quiet h.quiet c i).mp hlease
  refine ⟨k, cn, hk, ⟨c, cn, i, hk, he, hip⟩, fun u hu => ?_⟩
  obtain ⟨d, dn, j, hd, hj, hjp⟩ := hu
  have hclj : (s.session.ipPool.ipEntry j).client = some d :=
    (h.inv.leases j d).mpr ((Server.held_quiet h.quiet d j).mpr ⟨⟨u, dn, hd⟩, hj⟩)
  have hjlt := h.inv.ok.bound j (by rw [hclj]; exact Option.some_ne_none d)
  obtain rfl : j = i := h.inv.subnet.ip_inj hjlt hi (hjp.trans hip.symm)
  have hdc : d = c := Option.some.inj (hclj.symm.trans hcl)
  apply h.inv.pool.owner (b := c)
  · rw [hd, hdc]
    exact Multiset.mem_singleton_self c
  · rw [hk]
    exact Multiset.mem_singleton_self c

end

/-! ## the send thread -/

/-- the connection that was looked up: it still has the record, or it is closed -/
def SendPc.Found (s : Server K) : SendPc K → Prop
  | .idle => True
  | .found at_ dst c => c ∈ s.heap ∧ ∃ k, at_.Assigned dst k ∧ (∀ u, at_.Assigned dst u → u = k) ∧
      ((∃ cn, s.ph k = .live c cn) ∨ s.ph k = .closed)

structure Deliver.Inv (tun : TunIface) (n : ℕ) (s : Deliver K) : Prop where
  server : s.server.Between tun n
  found : s.pc.Found s.server
  right : s.Right

section
variable {tun : TunIface} {n : ℕ}

theorem SendPc.Found.keeps {s s' : Server K} {pc : SendPc K} (h : pc.Found s) (hk : s.Keeps s') :
    pc.Found s' := by
  cases pc with
  | idle => trivial
  | found at_ dst c =>
    obtain ⟨hc, k, ha, hu, hlive⟩ := h
    refine ⟨hk.2.2 c hc, k, ha, hu, ?_⟩
    rcases hlive with ⟨cn, hl⟩ | hcl
    · exact hk.1 k c cn hl
    · exact Or.inr (hk.2.1 k hcl)

theorem Deliver.Inv.handle {s s' : Deliver K} {o : Option (Server K)} (h : s.Inv tun n)
    (ho : ∀ t, o = some t → t.Between tun n ∧ s.server.Keeps t) (hs : s.handle o = some s') :
    s'.Inv tun n := by
  cases o with
  | none => cases hs
  | some t =>
    cases hs
    obtain ⟨hb, hk⟩ := ho t rfl
    exact ⟨hb, h.found.keeps hk, h.right⟩

theorem Deliver.step_inv (s : Deliver K) (a : DeliverAct K) (s' : Deliver K) (h : s.Inv tun n)
    (hC : SendsToLive s a) (hs : s.step a = some s') : s'.Inv tun n := by
  cases a with
  | newConnection k alloc ok => exact h.handle (fun t ht => h.server.onNewConnection ht) hs
  | connected k => exact h.handle (fun t ht => h.server.onConnected ht) hs
  | shutdownComplete k => exact h.handle (fun t ht => h.server.onShutdownComplete ht) hs
  | lookup dst =>
    simp only [Deliver.step] at hs
    split at hs
    · split at hs
      · rename_i c hc
        cases hs
        obtain ⟨k, cn, hk, ha, hu⟩ := h.server.search hc
        refine ⟨h.server, ⟨?_, k, ha, hu, Or.inl ⟨cn, hk⟩⟩, h.right⟩
        apply h.server.inv.pool.mem_heap (k := k)
        rw [hk]
        exact Multiset.mem_singleton_self c
      · cases hs
        exact h
    · cases hs
  | send =>
    have hfound := h.found
    simp only [Deliver.step] at hs
    split at hs
    · cases hs
    · rename_i at_ dst c hpc
      cases hs
      rw [hpc] at hfound
      obtain ⟨_, k, ha, hu, hlive⟩ := hfound
      refine ⟨h.server, trivial, fun e he => ?_⟩
      rcases List.mem_cons.mp he with rfl | he
      · refine ⟨k, ha, ?_⟩
        obtain ⟨b, cn, hb⟩ := hC rfl at_ dst c hpc k ha
        rcases hlive with ⟨cn', hl⟩ | hcl
        · exact h.server.live k c cn' hl
        · rw [hcl] at hb
          cases hb
      · exact h.right e he

/-- once the connection is closed, its handle is in no record: the packet goes elsewhere -/
theorem Deliver.step_bad (s : Deliver K) (a : DeliverAct K) (s' : Deliver K) (h : s.Inv tun n)
    (hC : ¬ SendsToLive s a) (hs : s.step a = some s') : ¬ s'.Right := by
  unfold SendsToLive at hC
  simp only [not_forall] at hC
  obtain ⟨rfl, at_, dst, c, hpc, k, ha, hdown⟩ := hC
  have hfound := h.found
  simp only [Deliver.step, hpc] at hs
  cases hs
  rw [hpc] at hfound
  obtain ⟨hc, k0, _, hu, hlive⟩ := hfound
  obtain rfl : k = k0 := hu k ha
  intro hright
  obtain ⟨u, hau, hh⟩ := hright _ List.mem_cons_self
  obtain rfl : u = k := hu u hau
  rcases hlive with ⟨cn, hl⟩ | hcl
  · exact hdown ⟨c, cn, hl⟩
  · rcases h.server.stale c hc u hh with ⟨cn, e⟩ | e
    · rw [hcl] at e
      cases e
    · rw [hcl] at e
      cases e

theorem Deliver.init_inv {session : Session K} (h : session.Fresh tun n) :
    (Deliver.init session).Inv tun n := by
  refine ⟨⟨Server.init_inv h, fun _ => rfl, rfl, fun k b c e => ?_, fun b hb => ?_⟩, trivial,
    fun e he => ?_⟩
  · cases e
  · cases hb
  · cases he

/-- **Delivery.**  Along every run of the send thread and the connection handlers, every packet is
sent on the connection that had its destination address at the lookup, if and only if every
`DatagramSend` is called before the `SHUTDOWN_COMPLETE` of that connection. -/
theorem deliver_right_iff (tun : TunIface) (n : ℕ) (session : Session K)
    (h0 : session.Fresh tun n) (l : List (DeliverAct K)) (s : Deliver K)
    (hs : exec Deliver.step (Deliver.init session) l = some s) :
    Always Deliver.step Deliver.Right (Deliver.init session) l ↔
      Along Deliver.step SendsToLive (Deliver.init session) l :=
  always_iff_along (I := Deliver.Inv tun n) (fun _ h => h.right) Deliver.step_inv Deliver.step_bad
    (Deliver.init_inv h0) hs

end

end

/-- a packet for `10.8.0.2` while the connection with that address is up -/
theorem deliver_right_one_packet :
    Always Deliver.step Deliver.Right (Deliver.init (fourSlots (Fin 2)))
      [.newConnection 0 (some 100) true, .connected 0, .lookup 0x0200080a, .send] := by
  obtain ⟨s, hs⟩ := Option.isSome_iff_exists.mp (show (exec Deliver.step
    (Deliver.init (fourSlots (Fin 2)))
    [.newConnection 0 (some 100) true, .connected 0, .lookup 0x0200080a, .send]).isSome = true
    by decide)
  refine (deliver_right_iff tunThirty 30 (fourSlots (Fin 2)) fourSlots_fresh _ s hs).mpr ?_
  refine ⟨fun e => (by cases e), fun s1 h1 => ⟨fun e => (by cases e), fun s2 h2 =>
    ⟨fun e => (by cases e), fun s3 h3 => ⟨fun _ at_ dst c hpc k ha => ?_, fun _ _ => trivial⟩⟩⟩⟩
  cases h1
  cases h2
  cases h3
  cases hpc
  obtain ⟨b, cn, i, hk, _⟩ := ha
  exact ⟨b, cn, hk⟩

/-- the connection goes down between lookup and send, and another one gets its record: the packet
is sent to that one -/
theorem deliver_to_another_client :
    ∃ s, exec Deliver.step (Deliver.init (fourSlots (Fin 2)))
        [.newConnection 0 (some 100) true, .connected 0, .lookup 0x0200080a, .shutdownComplete 0,
         .newConnection 1 (some 200) true, .send] = some s ∧
      s.sent.map (fun e => e.2.2) = [some 1] ∧ ¬ s.Right := by
  have h : (exec Deliver.step (Deliver.init (fourSlots (Fin 2)))
        [.newConnection 0 (some 100) true, .connected 0, .lookup 0x0200080a, .shutdownComplete 0,
         .newConnection 1 (some 200) true, .send]).map
      (fun s => s.sent.map fun e => (e.1.ph 1, e.2.2)) = some [(.idle, some 1)] := by decide
  obtain ⟨s, hs, e⟩ := Option.map_eq_some_iff.mp h
  obtain ⟨p, l, hp⟩ : ∃ p l, s.sent = p :: l := by
    cases hsent : s.sent with
    | nil =>
      rw [hsent] at e
      cases e
    | cons p l => exact ⟨p, l, rfl⟩
  rw [hp, List.map_cons] at e
  simp only [List.cons.injEq, Prod.mk.injEq, List.map_eq_nil_iff] at e
  obtain ⟨⟨hidle, hto⟩, hl⟩ := e
  refine ⟨s, hs, by rw [hp, hl]; exact congrArg (fun x => [x]) hto, fun hright => ?_⟩
  obtain ⟨k, ⟨b, c, i, hk, _⟩, hh⟩ := hright p (by rw [hp]; exact List.mem_cons_self)
  rw [hto] at hh
  cases hh
  rw [hidle] at hk
  cases hk

end QuicVpn
