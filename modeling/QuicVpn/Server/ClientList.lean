import QuicVpn.Lib.Exec
import QuicVpn.Server.Client

/-!
# The client list under calls of `list_add_client` and `list_remove_client`

A step is one call:

* `add handle b`    `list_add_client`, where `aligned_alloc` would return the fresh block `b`;
* `remove b`        `list_remove_client` on a client that an earlier call returned and that has not
                    been removed since.

`live` are these clients, and `refusals` records how many there were at each return of `NULL`.
`ListSys.Rep` is the representation of the live clients by the list.  `list_remove_client` clears
`slot_idx` before it uses it, so that it always empties slot `0`: `listSys_rep_iff` says that the
representation holds along a run exactly as long as only clients of slot `0` are removed.
-/

set_option linter.unusedSectionVars false

namespace QuicVpn
open Conc

structure ListSys (K : Type) where
  session : Session K
  live : List Blk
  heap : List Blk
  refusals : List ℕ

inductive ListAct (K : Type) where
  | add (handle : K) (b : Blk)
  | remove (b : Blk)

section
variable {K : Type}

def ListSys.step (s : ListSys K) : ListAct K → Option (ListSys K)
  | .add handle b =>
    if b ∈ s.heap then none
    else
      match listAddClient s.session handle (some b) with
      | (some c, s') => some { s with session := s', live := c :: s.live, heap := c :: s.heap }
      | (none, s') => some { s with session := s', refusals := s.live.length :: s.refusals }
  | .remove b =>
    if b ∈ s.live then
      match listRemoveClient s.session b with
      | some (_, s') => some { s with session := s', live := s.live.erase b }
      | none => none
    else none

/-- the list right after `init_client_manager` -/
def ListSys.init (session : Session K) : ListSys K := ⟨session, [], [], []⟩

/-- the slots hold the live clients, each in the slot of its `slot_idx`, and `NULL` was only
returned with all slots taken -/
structure ListSys.Rep (s : ListSys K) : Prop where
  live : ∀ i < s.session.ipPool.maxClients, ∀ b, s.session.clientList i = some b → b ∈ s.live
  slot : ∀ b ∈ s.live, ∃ i < s.session.ipPool.maxClients, (s.session.mem b).slotIdx = i ∧
    ∀ j < s.session.ipPool.maxClients, s.session.clientList j = some b ↔ j = i
  full : ∀ n ∈ s.refusals, n = s.session.ipPool.maxClients

/-- the step removes no client but that of slot `0` -/
def RemovesFirst (s : ListSys K) (a : ListAct K) : Prop :=
  ∀ b, a = .remove b → (s.session.mem b).slotIdx = 0

theorem removesFirst_add (s : ListSys K) (handle : K) (b : Blk) :
    RemovesFirst s (.add handle b) := by
  intro c e
  cases e

/-! ## the invariant -/

structure ListSys.Inv (s : ListSys K) : Prop where
  rep : s.Rep
  pool : ∃ free, PoolInv s.session.clientPool free s.live 0 0 s.heap
  cap : s.session.clientPool.cap = s.session.ipPool.maxClients

theorem ListSys.Inv.nodup {s : ListSys K} (h : s.Inv) : s.live.Nodup := by
  obtain ⟨free, hp⟩ := h.pool
  exact hp.out_nodup

/-- the slots of the live clients are different, so there are at most `max_clients` of them -/
theorem ListSys.Inv.length_le {s : ListSys K} (h : s.Inv) :
    s.live.length ≤ s.session.ipPool.maxClients := by
  rw [← List.toFinset_card_of_nodup h.nodup, ← Finset.card_range s.session.ipPool.maxClients]
  apply Finset.card_le_card_of_injOn (fun b => (s.session.mem b).slotIdx.toNat)
  · intro b hb
    obtain ⟨i, hi, e, _⟩ := h.rep.slot b (List.mem_toFinset.mp hb)
    show (s.session.mem b).slotIdx.toNat ∈ (Finset.range s.session.ipPool.maxClients : Set ℕ)
    rw [e, Int.toNat_natCast]
    exact Finset.mem_coe.mpr (Finset.mem_range.mpr hi)
  · intro b hb c hc e
    obtain ⟨i, hi, ei, hbi⟩ := h.rep.slot b (List.mem_toFinset.mp hb)
    obtain ⟨j, hj, ej, hcj⟩ := h.rep.slot c (List.mem_toFinset.mp hc)
    have hij : i = j := by
      simp only [ei, ej, Int.toNat_natCast] at e
      exact e
    have h1 := (hbi i hi).mpr rfl
    rw [(hcj i hi).mpr hij] at h1
    cases h1
    rfl

/-- if no slot is empty there are `max_clients` live clients -/
theorem ListSys.Inv.length_of_no_slot {s : ListSys K} (h : s.Inv)
    (hfull : s.session.freeSlot = none) : s.live.length = s.session.ipPool.maxClients := by
  apply Nat.le_antisymm h.length_le
  rw [← List.toFinset_card_of_nodup h.nodup]
  conv_lhs => rw [← Finset.card_range s.session.ipPool.maxClients]
  apply Finset.card_le_card_of_injOn (fun i => (s.session.clientList i).getD 0)
  · intro i hi
    obtain ⟨b, hb⟩ := Session.freeSlot_none hfull (Finset.mem_range.mp hi)
    show (s.session.clientList i).getD 0 ∈ (s.live.toFinset : Set Blk)
    rw [hb]
    exact Finset.mem_coe.mpr (List.mem_toFinset.mpr (h.rep.live i (Finset.mem_range.mp hi) b hb))
  · intro i hi j hj e
    have hi' := Finset.mem_range.mp hi
    have hj' := Finset.mem_range.mp hj
    obtain ⟨b, hb⟩ := Session.freeSlot_none hfull hi'
    obtain ⟨c, hc⟩ := Session.freeSlot_none hfull hj'
    have ebc : b = c := by
      simp only [hb, hc, Option.getD_some] at e
      exact e
    obtain ⟨k, _, _, hk⟩ := h.rep.slot b (h.rep.live i hi' b hb)
    rw [(hk i hi').mp hb, (hk j hj').mp (by rw [hc, ebc])]

/-- a client that comes in at an empty slot -/
theorem ListSys.Rep.fill {s : ListSys K} {idx : ℕ} {b : Blk} {handle : K} {p : Pool}
    {H : List Blk} (h : s.Rep) (hidx : idx < s.session.ipPool.maxClients)
    (hempty : s.session.clientList idx = none) (hb : b ∉ s.live) :
    ({ s with session := ({ s.session with clientPool := p } : Session K).addFill idx b handle,
              live := b :: s.live, heap := H } : ListSys K).Rep := by
  refine ⟨fun i hi c hc => ?_, fun c hc => ?_, h.full⟩
  · by_cases hi' : i = idx
    · rw [hi'] at hc
      have e : Function.update s.session.clientList idx (some b) idx = some c := hc
      rw [Function.update_self] at e
      cases e
      exact List.mem_cons_self
    · have e : Function.update s.session.clientList idx (some b) i = some c := hc
      rw [Function.update_of_ne hi'] at e
      exact List.mem_cons_of_mem _ (h.live i hi c e)
  · by_cases hcb : c = b
    · subst hcb
      refine ⟨idx, hidx, ?_, fun j hj => ?_⟩
      · exact congrArg Client.slotIdx (Session.setClient_self ..)
      · show Function.update s.session.clientList idx (some c) j = some c ↔ j = idx
        by_cases hj' : j = idx
        · rw [hj', Function.update_self]
          exact iff_of_true rfl rfl
        · rw [Function.update_of_ne hj']
          exact iff_of_false (fun hj'' => hb (h.live j hj c hj'')) hj'
    · have hc' : c ∈ s.live := (List.mem_cons.mp hc).resolve_left hcb
      obtain ⟨i, hi, e, hu⟩ := h.slot c hc'
      refine ⟨i, hi, ?_, fun j hj => ?_⟩
      · exact (congrArg Client.slotIdx (Session.setClient_of_ne _ hcb _)).trans e
      · show Function.update s.session.clientList idx (some b) j = some c ↔ j = i
        rw [← hu j hj]
        by_cases hj' : j = idx
        · rw [hj', Function.update_self, hempty]
          exact iff_of_false (fun e => hcb (Option.some.inj e).symm) (fun e => by cases e)
        · rw [Function.update_of_ne hj']

theorem ListSys.add_inv {s s' : ListSys K} {handle : K} {b : Blk} (h : s.Inv)
    (hs : s.step (.add handle b) = some s') : s'.Inv := by
  obtain ⟨free, hp⟩ := h.pool
  simp only [ListSys.step] at hs
  split at hs
  · cases hs
  · rename_i hb
    have hfresh : ∀ c ∈ some b, c ∉ s.heap := by
      intro c hc
      cases hc
      exact hb
    -- a return of `NULL` changes nothing; it happens with `max_clients` live clients only
    have hnull : ∀ q : Pool, q = s.session.clientPool →
        s.live.length = s.session.ipPool.maxClients →
        ({ s with session := { s.session with clientPool := q },
                  refusals := s.live.length :: s.refusals } : ListSys K).Inv := by
      intro q hq hlen
      refine ⟨⟨h.rep.live, h.rep.slot, fun n hn => ?_⟩, ⟨free, by rw [hq]; exact hp⟩,
        by rw [hq]; exact h.cap⟩
      rcases List.mem_cons.mp hn with rfl | hn
      · exact hlen
      · exact h.rep.full n hn
    unfold listAddClient at hs
    cases hslot : s.session.freeSlot with
    | none =>
      rw [hslot] at hs
      cases hs
      exact hnull s.session.clientPool rfl (h.length_of_no_slot hslot)
    | some idx =>
      obtain ⟨hidx, hempty⟩ := Session.freeSlot_some hslot
      rw [hslot] at hs
      cases hg : poolTryGet s.session.clientPool (some b) with
      | mk g p =>
        rw [hg] at hs
        cases g with
        | none =>
          cases hs
          obtain ⟨hpe, hwhy⟩ := hp.tryGet_none hg
          rcases hwhy with hwhy | ⟨_, htot, hfree⟩
          · cases hwhy
          · apply hnull p hpe
            have ht : s.session.clientPool.totalBlocks = s.live.length + free.length + 0 := hp.total
            rw [hfree, List.length_nil] at ht
            rw [← h.cap]
            omega
        | some c =>
          cases hs
          obtain ⟨free', hp'⟩ := hp.tryGet_some hfresh hg
          have hc : c ∉ s.live := by
            have hn := hp'.out_nodup
            exact fun hm => (Multiset.nodup_cons.mp hn).1 hm
          refine ⟨h.rep.fill hidx hempty hc, ⟨free', hp'⟩, ?_⟩
          show p.cap = s.session.ipPool.maxClients
          rw [← h.cap]
          exact poolTryGet_cap hg

/-- what `list_remove_client` does to a live client: slot `0` is emptied, whichever was its own -/
theorem ListSys.remove_cases {s s' : ListSys K} {b : Blk} (h : s.Inv)
    (hs : s.step (.remove b) = some s') :
    b ∈ s.live ∧ ∃ q free, PoolInv q free (s.live.erase b) 0 0 s.heap ∧
      q.cap = s.session.clientPool.cap ∧
      s' = { s with live := s.live.erase b
                    session := { s.session with
                      clientPool := q
                      clientList := Function.update s.session.clientList 0 none
                      mem := Function.update s.session.mem b
                        { s.session.mem b with slotIdx := 0, uid := 0, ipEntry := none } } } := by
  obtain ⟨free, hp⟩ := h.pool
  simp only [ListSys.step] at hs
  split at hs
  · rename_i hb
    obtain ⟨i, hi, e, _⟩ := h.rep.slot b hb
    have hrange : ¬ ((s.session.mem b).slotIdx < 0 ∨
        (s.session.mem b).slotIdx > s.session.ipPool.maxClients) := by omega
    have hout : (s.live : Multiset Blk) = b ::ₘ ((s.live.erase b : List Blk) : Multiset Blk) := by
      rw [Multiset.cons_coe, Multiset.coe_eq_coe]
      exact List.perm_cons_erase hb
    rw [hout] at hp
    obtain ⟨q, hq, hp'⟩ := hp.put
    refine ⟨hb, q, b :: free, hp', poolPut_cap hq, ?_⟩
    simp only [listRemoveClient, Session.removeClear, if_neg hrange, Session.removeUnlist,
      Session.clientPut, Session.setClient, Function.update_self, hq, Option.some.injEq] at hs
    exact hs.symm
  · cases hs

theorem ListSys.step_inv (s : ListSys K) (a : ListAct K) (s' : ListSys K) (h : s.Inv)
    (hC : RemovesFirst s a) (hs : s.step a = some s') : s'.Inv := by
  cases a with
  | add handle b => exact ListSys.add_inv h hs
  | remove b =>
    have hz := hC b rfl
    obtain ⟨hb, q, free, hp, hcap, rfl⟩ := ListSys.remove_cases h hs
    obtain ⟨i, hi, e, hu⟩ := h.rep.slot b hb
    obtain rfl : i = 0 := by omega
    refine ⟨⟨fun j hj c hc => ?_, fun c hc => ?_, h.rep.full⟩, ⟨free, hp⟩, hcap.trans h.cap⟩
    · have hc' : Function.update s.session.clientList 0 none j = some c := hc
      by_cases hj' : j = 0
      · rw [hj', Function.update_self] at hc'
        cases hc'
      · rw [Function.update_of_ne hj'] at hc'
        -- `b` was in slot `0` only, so another slot holds another client
        have hcb : c ≠ b := by
          intro ecb
          rw [ecb] at hc'
          exact hj' ((hu j hj).mp hc')
        exact (List.mem_erase_of_ne hcb).mpr (h.rep.live j hj c hc')
    · obtain ⟨hcb, hc'⟩ := (h.nodup.mem_erase_iff).mp hc
      obtain ⟨k, hk, ek, huk⟩ := h.rep.slot c hc'
      have hk0 : k ≠ 0 := by
        intro ek0
        have h1 := (hu k hk).mpr ek0
        rw [(huk k hk).mpr rfl] at h1
        cases h1
        exact hcb rfl
      refine ⟨k, hk, ?_, fun j hj => ?_⟩
      · exact (congrArg Client.slotIdx (Function.update_of_ne hcb ..)).trans ek
      · show Function.update s.session.clientList 0 none j = some c ↔ j = k
        by_cases hj' : j = 0
        · rw [hj', Function.update_self]
          exact iff_of_false (fun e => by cases e) (fun e => hk0 e.symm)
        · rw [Function.update_of_ne hj']
          exact huk j hj

/-- a client outside slot `0` stays in its slot when it is removed -/
theorem ListSys.step_bad (s : ListSys K) (a : ListAct K) (s' : ListSys K) (h : s.Inv)
    (hC : ¬ RemovesFirst s a) (hs : s.step a = some s') : ¬ s'.Rep := by
  unfold RemovesFirst at hC
  simp only [not_forall] at hC
  obtain ⟨b, rfl, hne⟩ := hC
  obtain ⟨hb, q, free, _, _, rfl⟩ := ListSys.remove_cases h hs
  obtain ⟨i, hi, e, hu⟩ := h.rep.slot b hb
  have hi0 : i ≠ 0 := by
    intro e0
    rw [e, e0] at hne
    exact hne rfl
  intro hrep
  have hstill : Function.update s.session.clientList 0 none i = some b := by
    rw [Function.update_of_ne hi0]
    exact (hu i hi).mpr rfl
  exact h.nodup.not_mem_erase (hrep.live i hi b hstill)

theorem ListSys.init_inv {s0 session : Session K}
    (h : initClientManager s0 s0.ipPool.maxClients = some session) : (ListSys.init session).Inv := by
  obtain ⟨p, hp, rfl⟩ := initClientManager_ok h
  refine ⟨⟨?_, ?_, ?_⟩, ⟨[], PoolInv.init hp []⟩, poolInit_cap hp⟩
  · intro i _ b hb
    cases hb
  · intro b hb
    cases hb
  · intro n hn
    cases hn

/-- **The client list.**  Along every run of calls from the list of `init_client_manager`, the list
represents the live clients in every state if and only if every `list_remove_client` is called on a
client whose `slot_idx` is `0`. -/
theorem listSys_rep_iff (s0 session : Session K)
    (h0 : initClientManager s0 s0.ipPool.maxClients = some session) (l : List (ListAct K))
    (s : ListSys K) (hs : exec ListSys.step (ListSys.init session) l = some s) :
    Always ListSys.step ListSys.Rep (ListSys.init session) l ↔
      Along ListSys.step RemovesFirst (ListSys.init session) l :=
  always_iff_along (fun _ h => h.rep) ListSys.step_inv ListSys.step_bad (ListSys.init_inv h0) hs

end

/-- the first client goes and comes back: slot `0` is used again -/
theorem listSys_rep_first_slot :
    Always ListSys.step ListSys.Rep (ListSys.init (fourSlots ℕ)) [.add 7 100, .remove 100, .add 8 200] := by
  obtain ⟨s, hs⟩ := Option.isSome_iff_exists.mp (show (exec ListSys.step
    (ListSys.init (fourSlots ℕ)) [.add 7 100, .remove 100, .add 8 200]).isSome = true by decide)
  refine (listSys_rep_iff (fourAddresses ℕ) (fourSlots ℕ) rfl _ s hs).mpr ?_
  refine ⟨removesFirst_add _ 7 100, fun s1 h1 => ⟨fun b e => ?_, fun s2 _ => ?_⟩⟩
  · cases e
    cases h1
    rfl
  · exact ⟨removesFirst_add s2 8 200, fun _ _ => trivial⟩

/-- the second of two clients is removed: it stays in slot `1`, and slot `0` is emptied -/
theorem listSys_rep_second_slot :
    ∃ s, exec ListSys.step (ListSys.init (fourSlots ℕ)) [.add 7 100, .add 8 200, .remove 200] = some s ∧
      ¬ s.Rep := by
  have h : (exec ListSys.step (ListSys.init (fourSlots ℕ)) [.add 7 100, .add 8 200, .remove 200]).map
      (fun s => (s.session.ipPool.maxClients, s.session.clientList 1, s.live))
      = some (4, some 200, [100]) := by decide
  obtain ⟨s, hs, e⟩ := Option.map_eq_some_iff.mp h
  refine ⟨s, hs, fun hrep => ?_⟩
  simp only [Prod.mk.injEq] at e
  obtain ⟨hmax, hslot, hlive⟩ := e
  have hm := hrep.live 1 (by omega) 200 hslot
  rw [hlive] at hm
  exact absurd hm (by decide)

end QuicVpn
