import QuicVpn.Common.PoolSys

/-!
# Wake-ups of the block pool

`pool_wait_get` sleeps while nothing is free and the capacity is used up.  Two sections make a block
obtainable again: `pool_put`, which signals, and the undoing of a reservation after a failed
`aligned_alloc`, which does not.

* `PoolSys.NoLostWakeup`   next to a sleeper that has not been signalled there are at most as many
                           obtainable blocks as signalled threads on their way to the lock;
* `PoolSys.UndoOk`         a reservation is undone only where that leaves the balance intact.

A block that has been handed out, reserved or announced by a signal is claimed.  `obtainable_iff`
turns the free list into a count, and with it the balance says that all `cap` blocks are claimed
(`noLostWakeup_iff`).  The main result is `poolSys_wakes_iff`.
-/

set_option linter.unusedSectionVars false

namespace QuicVpn
open Conc

/-- `1` for a thread that has been signalled and has not re-acquired the lock -/
def PoolPc.called : PoolPc → ℕ
  | .signalled => 1
  | _ => 0

/-- `1` for a thread that has a block coming: reserved, or announced by a signal -/
def PoolPc.claim (q : PoolPc) : ℕ := q.resv + q.called

theorem PoolPc.claim_le (q : PoolPc) : q.claim ≤ 1 := by
  cases q <;> exact Nat.le_of_ble_eq_true rfl

section
variable {T : Type} [Fintype T] [DecidableEq T]

/-- number of threads that have been signalled and have not yet re-acquired the lock -/
def PoolSys.signalled (s : PoolSys T) : ℕ := ∑ t, (s.pc t).called

/-- `length(free_list) + (cap - total_blocks)` is `n` -/
def PoolSys.Obtainable (s : PoolSys T) (n : ℕ) : Prop :=
  ∃ free, Chain s.pool.next s.pool.freeList free ∧
    n = free.length + (s.pool.cap - s.pool.totalBlocks)

def PoolSys.NoLostWakeup (s : PoolSys T) : Prop :=
  (∃ t, s.pc t = .sleeping) → ∃ n, s.Obtainable n ∧ n ≤ s.signalled

/-- the undoing of a reservation finds nobody asleep, or a signal to spare -/
def PoolSys.UndoOk (s : PoolSys T) : PoolAct T → Prop
  | .finish t =>
    s.pc t = .allocated none → (∃ u, s.pc u = .sleeping) → ∃ n, s.Obtainable n ∧ n < s.signalled
  | _ => True

/-- blocks handed out, reserved, or announced by a signal -/
def PoolSys.claimed (s : PoolSys T) : ℕ := s.out.length + ∑ t, (s.pc t).claim

/-! ## the balance as a count -/

theorem PoolSys.claimed_eq (s : PoolSys T) :
    s.claimed = s.out.length + s.reservations + s.signalled := by
  have e : ∑ t, (s.pc t).claim = s.reservations + s.signalled := Finset.sum_add_distrib
  rw [PoolSys.claimed, e, Nat.add_assoc]

section
variable {cap : ℕ} {s : PoolSys T}

/-- what is neither handed out nor reserved is obtainable -/
theorem PoolSys.Inv.obtainable_iff (h : s.Inv cap) (hcap : cap ≠ 0) (n : ℕ) :
    s.Obtainable n ↔ n + s.out.length + s.reservations = cap := by
  obtain ⟨_, hc, free, hi⟩ := h
  rw [PoolSys.resv_sum, PoolSys.out_sum] at hi
  have ht : s.pool.totalBlocks = s.out.length + free.length + s.reservations := hi.total
  have hle : s.pool.totalBlocks ≤ s.pool.cap := hi.cap (by rw [hc]; exact hcap)
  constructor
  · rintro ⟨free', hch, rfl⟩
    have hl : free'.length = free.length := by rw [hch.unique hi.chain]
    omega
  · intro hn
    exact ⟨free, hi.chain, by omega⟩

theorem PoolSys.Inv.exists_obtainable (h : s.Inv cap) (hcap : cap ≠ 0) :
    ∃ n, n + s.out.length + s.reservations = cap := by
  obtain ⟨_, _, free, hi⟩ := id h
  exact ⟨_, (h.obtainable_iff hcap _).mp ⟨free, hi.chain, rfl⟩⟩

theorem PoolSys.Inv.noLostWakeup_iff (h : s.Inv cap) (hcap : cap ≠ 0) :
    s.NoLostWakeup ↔ ((∃ t, s.pc t = .sleeping) → cap ≤ s.claimed) := by
  rw [PoolSys.claimed_eq]
  constructor
  · intro hn hsl
    obtain ⟨n, ho, hle⟩ := hn hsl
    have := (h.obtainable_iff hcap n).mp ho
    omega
  · intro hn hsl
    have hle := hn hsl
    obtain ⟨n, ho⟩ := h.exists_obtainable hcap
    exact ⟨n, (h.obtainable_iff hcap n).mpr ho, by omega⟩

theorem PoolSys.Inv.undoOk_iff (h : s.Inv cap) (hcap : cap ≠ 0) (t : T) :
    s.UndoOk (.finish t) ↔
      (s.pc t = .allocated none → (∃ u, s.pc u = .sleeping) → cap < s.claimed) := by
  rw [PoolSys.claimed_eq]
  constructor
  · intro hn hpc hsl
    obtain ⟨n, ho, hlt⟩ := hn hpc hsl
    have := (h.obtainable_iff hcap n).mp ho
    omega
  · intro hn hpc hsl
    have hlt := hn hpc hsl
    obtain ⟨n, ho⟩ := h.exists_obtainable hcap
    exact ⟨n, (h.obtainable_iff hcap n).mpr ho, by omega⟩

/-- a get that finds no room: all blocks are handed out or reserved -/
theorem PoolSys.Inv.full_claimed {p : Pool} (h : s.Inv cap)
    (hg : poolTryGetLocked s.pool = (.full, p)) : cap ≤ s.out.length + s.reservations := by
  obtain ⟨_, hc, free, hi⟩ := h
  rw [PoolSys.resv_sum, PoolSys.out_sum] at hi
  obtain ⟨_, hfull, rfl⟩ := hi.get_full_room hg
  have ht : s.pool.totalBlocks = s.out.length + 0 + s.reservations := hi.total
  omega

end

/-! ## what a step does to the count -/

/-- every sleeper leaves all `cap` blocks claimed -/
def PoolSys.Balanced (cap : ℕ) (s : PoolSys T) : Prop :=
  (∃ t, s.pc t = .sleeping) → cap ≤ s.claimed

/-- a thread that moves to a point at which it does not sleep leaves no new sleeper -/
theorem sleeper_of_update {pc : T → PoolPc} {t : T} {q : PoolPc} (hq : q ≠ .sleeping)
    (h : ∃ u, Function.update pc t q u = .sleeping) : ∃ u, pc u = .sleeping := by
  obtain ⟨u, hu⟩ := h
  by_cases e : u = t
  · subst e
    rw [Function.update_self] at hu
    exact absurd hu hq
  · rw [Function.update_of_ne e] at hu
    exact ⟨u, hu⟩

section
variable {cap : ℕ} {s s' : PoolSys T} {t : T}

/-- the first section of a get never lowers the count of claimed blocks below `cap` -/
theorem PoolSys.Balanced.afterGet (full : PoolPc) (hr : (s.pc t).resv = 0) (hf : full.resv = 0)
    (hi : s.Inv cap) (h : s.Balanced cap) :
    (s.afterGet t full (poolTryGetLocked s.pool)).Balanced cap := by
  obtain ⟨r, r1, r2⟩ := sum_split PoolPc.claim s.pc t
  have hle := (s.pc t).claim_le
  cases hlk : poolTryGetLocked s.pool with
  | mk g p =>
    cases g with
    | block b =>
      intro hsl
      have hb := h (sleeper_of_update (by decide) hsl)
      show cap ≤ (b :: s.out).length + ∑ u, (Function.update s.pc t .idle u).claim
      have hz : PoolPc.idle.claim = 0 := rfl
      rw [r2, hz, List.length_cons]
      unfold PoolSys.claimed at hb
      omega
    | reserved =>
      intro hsl
      have hb := h (sleeper_of_update (by decide) hsl)
      show cap ≤ s.out.length + ∑ u, (Function.update s.pc t .reserved u).claim
      have ho : PoolPc.reserved.claim = 1 := rfl
      rw [r2, ho]
      unfold PoolSys.claimed at hb
      omega
    | full =>
      intro _
      have hfull := hi.full_claimed hlk
      obtain ⟨v, v1, v2⟩ := sum_split PoolPc.resv s.pc t
      have e : (s.afterGet t full (.full, p)).reservations = s.reservations := by
        show ∑ u, (Function.update s.pc t full u).resv = ∑ u, (s.pc u).resv
        rw [v2, v1, hr, hf]
      rw [PoolSys.claimed_eq, e]
      show cap ≤ s.out.length + s.reservations + _
      omega

/-- the second section of a get: the reservation becomes a block, or is undone -/
theorem PoolSys.finish_claimed (hs : s.step (.finish t) = some s') :
    ((∃ b, s.pc t = .allocated (some b)) ∧ s'.claimed = s.claimed ∨
      s.pc t = .allocated none ∧ s'.claimed + 1 = s.claimed) ∧
      s'.pc = Function.update s.pc t .idle := by
  obtain ⟨r, r1, r2⟩ := sum_split PoolPc.claim s.pc t
  have hz : PoolPc.idle.claim = 0 := rfl
  simp only [PoolSys.step] at hs
  split at hs
  · rename_i b hpc
    cases hs
    have ho : (PoolPc.allocated (some b)).claim = 1 := rfl
    rw [hpc, ho] at r1
    refine ⟨Or.inl ⟨⟨b, hpc⟩, ?_⟩, rfl⟩
    show (b :: s.out).length + ∑ u, (Function.update s.pc t .idle u).claim = _
    rw [r2, hz, List.length_cons, PoolSys.claimed, r1]
    omega
  · rename_i hpc
    cases hs
    have ho : (PoolPc.allocated none).claim = 1 := rfl
    rw [hpc, ho] at r1
    refine ⟨Or.inr ⟨hpc, ?_⟩, rfl⟩
    show s.out.length + ∑ u, (Function.update s.pc t .idle u).claim + 1 = _
    rw [r2, hz, PoolSys.claimed, r1]
    omega
  · cases hs

theorem PoolSys.Balanced.put {b : Blk} {w : Option T} (hi : s.Inv cap) (h : s.Balanced cap)
    (hs : s.step (.put b w) = some s') : s'.Balanced cap := by
  have hi' := PoolSys.put_inv hi hs
  simp only [PoolSys.step] at hs
  split at hs
  · rename_i hc
    obtain ⟨hb, hw⟩ := hc
    split at hs
    · rename_i p _
      cases hs
      have hlen : (s.out.erase b).length + 1 = s.out.length := by
        rw [List.length_erase_of_mem hb]
        have := List.length_pos_of_mem hb
        omega
      cases w with
      | none =>
        rintro ⟨u, hu⟩
        exact absurd hu (hw u)
      | some t =>
        -- the block that comes back is announced to `t`
        intro _
        have hbal := h ⟨t, hw⟩
        obtain ⟨r, r1, r2⟩ := sum_split PoolPc.claim s.pc t
        have hpc : s.pc t = .sleeping := hw
        have hz : PoolPc.sleeping.claim = 0 := rfl
        have ho : PoolPc.signalled.claim = 1 := rfl
        rw [hpc, hz] at r1
        show cap ≤ (s.out.erase b).length + ∑ u, (Function.update s.pc t .signalled u).claim
        rw [r2, ho]
        unfold PoolSys.claimed at hbal
        omega
    · cases hs
      exact absurd hi'.1 (by simp)
  · cases hs

/-- every step that undoes no reservation at a bad moment keeps the balance -/
theorem PoolSys.step_balanced (hcap : cap ≠ 0) (a : PoolAct T) (hi : s.Inv cap)
    (h : s.Balanced cap) (hC : s.UndoOk a) (hs : s.step a = some s') : s'.Balanced cap := by
  cases a with
  | tryGet t =>
    simp only [PoolSys.step, Option.ite_none_right_eq_some, Option.some.injEq] at hs
    obtain ⟨hpc, rfl⟩ := hs
    exact PoolSys.Balanced.afterGet .idle (by rw [hpc]; rfl) rfl hi h
  | waitGet t =>
    simp only [PoolSys.step, Option.ite_none_right_eq_some, Option.some.injEq] at hs
    obtain ⟨hpc, rfl⟩ := hs
    rw [poolWaitGetLocked_eq]
    exact PoolSys.Balanced.afterGet .sleeping (by rw [hpc]; rfl) rfl hi h
  | wake t =>
    simp only [PoolSys.step, Option.ite_none_right_eq_some, Option.some.injEq] at hs
    obtain ⟨hpc, rfl⟩ := hs
    rw [poolWaitGetLocked_eq]
    have hr : (s.pc t).resv = 0 := by rcases hpc with hpc | hpc <;> rw [hpc] <;> rfl
    exact PoolSys.Balanced.afterGet .sleeping hr rfl hi h
  | alloc t r =>
    simp only [PoolSys.step, Option.ite_none_right_eq_some, Option.some.injEq] at hs
    obtain ⟨⟨hpc, _⟩, rfl⟩ := hs
    intro hsl
    have hne : PoolPc.allocated r ≠ .sleeping := PoolPc.noConfusion
    have hb := h (sleeper_of_update hne hsl)
    obtain ⟨v, v1, v2⟩ := sum_split PoolPc.claim s.pc t
    show cap ≤ s.out.length + ∑ u, (Function.update s.pc t (.allocated r) u).claim
    have ho : (PoolPc.allocated r).claim = PoolPc.reserved.claim := rfl
    rw [v2, ho, ← hpc, ← v1]
    exact hb
  | finish t =>
    obtain ⟨hcl, hpc'⟩ := PoolSys.finish_claimed hs
    intro hsl
    rw [hpc'] at hsl
    have hsl' := sleeper_of_update (by decide) hsl
    have hb := h hsl'
    rcases hcl with ⟨_, e⟩ | ⟨hpc, e⟩
    · omega
    · have := (hi.undoOk_iff hcap t).mp hC hpc hsl'
      omega
  | put b w => exact PoolSys.Balanced.put hi h hs

/-- undoing a reservation at a bad moment leaves a sleeper next to a block it could take -/
theorem PoolSys.step_unbalanced (hcap : cap ≠ 0) (a : PoolAct T) (hi : s.Inv cap)
    (hC : ¬ s.UndoOk a) (hs : s.step a = some s') : ¬ s'.Balanced cap := by
  cases a with
  | finish t =>
    rw [hi.undoOk_iff hcap, Classical.not_imp, Classical.not_imp] at hC
    obtain ⟨hpc, ⟨u, hu⟩, hlt⟩ := hC
    obtain ⟨hcl, hpc'⟩ := PoolSys.finish_claimed hs
    have hne : u ≠ t := by
      rintro rfl
      rw [hpc] at hu
      cases hu
    intro hb
    have hle := hb ⟨u, by rw [hpc', Function.update_of_ne hne]; exact hu⟩
    rcases hcl with ⟨⟨b, hb'⟩, _⟩ | ⟨_, e⟩
    · rw [hpc] at hb'
      cases hb'
    · omega
  | _ => exact absurd trivial hC

end

/-- **Wake-ups of the pool.**  A run leaves no sleeper next to an obtainable block that no signal
announces, in any of its states, if and only if no reservation is undone while a thread sleeps
unsignalled and all obtainable blocks are announced already. -/
theorem poolSys_wakes_iff (blockSize cap : ℕ) (hcap : cap ≠ 0) (p : Pool)
    (hp : poolInit blockSize cap = some p) (l : List (PoolAct T)) (s : PoolSys T)
    (hs : exec PoolSys.step (PoolSys.init p) l = some s) :
    Always PoolSys.step PoolSys.NoLostWakeup (PoolSys.init p) l ↔
      Along PoolSys.step PoolSys.UndoOk (PoolSys.init p) l := by
  refine always_iff_along (I := fun s => s.Inv cap ∧ s.Balanced cap) ?_ ?_ ?_ ?_ hs
  · rintro s ⟨hi, hb⟩
    exact (hi.noLostWakeup_iff hcap).mpr hb
  · rintro s a s' ⟨hi, hb⟩ hC hs
    exact ⟨PoolSys.step_inv s a s' hi hs, PoolSys.step_balanced hcap a hi hb hC hs⟩
  · rintro s a s' ⟨hi, _⟩ hC hs hn
    have hi' := PoolSys.step_inv s a s' hi hs
    exact PoolSys.step_unbalanced hcap a hi hC hs ((hi'.noLostWakeup_iff hcap).mp hn)
  · refine ⟨PoolSys.init_inv hp, ?_⟩
    rintro ⟨t, ht⟩
    cases ht

end

/-- a pool with room for one block -/
def oneBlock : Pool := ⟨64, 1, 0, 0, none, fun _ => none⟩

/-- the second thread sleeps while the first has the block, and is woken by its return -/
def blockReturned : List (PoolAct Bool) :=
  [.tryGet false, .waitGet true, .alloc false (some 7), .finish false, .put 7 (some true), .wake true]

theorem poolSys_wakes_iff_blockReturned :
    ∃ s, exec PoolSys.step (PoolSys.init oneBlock) blockReturned = some s ∧
      s.out = [7] ∧ Along PoolSys.step PoolSys.UndoOk (PoolSys.init oneBlock) blockReturned ∧
      Always PoolSys.step PoolSys.NoLostWakeup (PoolSys.init oneBlock) blockReturned := by
  have hC : Along PoolSys.step PoolSys.UndoOk (PoolSys.init oneBlock) blockReturned := by
    refine ⟨trivial, fun _ e => ?_⟩
    cases e
    refine ⟨trivial, fun _ e => ?_⟩
    cases e
    refine ⟨trivial, fun _ e => ?_⟩
    cases e
    refine ⟨fun hpc => absurd hpc (by decide), fun _ e => ?_⟩
    cases e
    refine ⟨trivial, fun _ e => ?_⟩
    cases e
    exact ⟨trivial, fun _ _ => trivial⟩
  exact ⟨_, rfl, rfl, hC,
    (poolSys_wakes_iff 64 1 (by decide) oneBlock rfl blockReturned _ rfl).mpr hC⟩

/-- the first thread reserves the only block, the second goes to sleep, and `aligned_alloc` fails:
the block is obtainable again and nobody tells the sleeper -/
theorem reservation_undone_silently :
    ∃ s, exec PoolSys.step (PoolSys.init oneBlock)
        [.tryGet false, .waitGet true, .alloc false none, .finish false] = some s ∧
      ¬ s.NoLostWakeup := by
  refine ⟨_, rfl, fun h => ?_⟩
  obtain ⟨n, ⟨free, _, hn⟩, hle⟩ := h ⟨true, rfl⟩
  have hsig : n ≤ 0 := hle
  have hn' : n = free.length + 1 := hn
  omega

end QuicVpn
