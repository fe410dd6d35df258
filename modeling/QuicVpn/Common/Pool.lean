import Mathlib.Algebra.GroupWithZero.Nat
import QuicVpn.Lib.Chain
import QuicVpn.Lib.Threads

/-!
# The block pool of `pool.h` (Linux): its critical sections

A block is the address of a `pool_block_t` header; `next` is the `next` field of all headers, so
the free list is an intrusive list.  `pool_try_get` and `pool_wait_get` drop the lock while they
allocate, so each of them is cut at the lock:

* `poolTryGetLocked`, `poolWaitGetLocked`   the first section: a recycled block, a reservation,
                                            or no room;
* `poolAllocDone`, `poolAllocFailed`        the second section, after `aligned_alloc`;
* `poolPut`                                 the only section of `pool_put`; `none` is its `FATAL`.

`PoolInv p free out gap r H` ties a pool to the blocks around it: `free` is its free list, `out` the
blocks handed out, `gap` the blocks that `aligned_alloc` returned and the second section has not
counted yet, `r` the number of open reservations and `H` the allocated memory.  Every section
preserves it (`PoolInv.get_block` .. `PoolInv.put`), whatever the callers do with the blocks.
-/

set_option linter.unusedSectionVars false

namespace QuicVpn
open Conc

/-- the address of a block header -/
abbrev Blk := ℕ

/-- `pool_t` together with the `next` fields of the block headers -/
structure Pool where
  blockSize : ℕ
  cap : ℕ
  totalBlocks : ℕ
  inUse : ℤ
  freeList : Option Blk
  next : Blk → Option Blk

/-- `SIZE_MAX` -/
def sizeMax : ℕ := 2 ^ 64 - 1

/-- `sizeof(pool_block_t)`: two pointers -/
def poolHeader : ℕ := 16

/-- `pool_init`: the argument checks and the zeroed record -/
def poolInit (blockSize cap : ℕ) : Option Pool :=
  if blockSize = 0 then none
  else if blockSize > sizeMax - poolHeader then none
  else some ⟨blockSize, cap, 0, 0, none, fun _ => none⟩

/-- outcome of the first section of a get -/
inductive Got where
  | block (b : Blk)
  | full
  | reserved
  deriving DecidableEq, Repr

/-- the first section of `pool_try_get` -/
def poolTryGetLocked (p : Pool) : Got × Pool :=
  match p.freeList with
  | some b => (.block b, { p with freeList := p.next b, inUse := p.inUse + 1 })
  | none =>
    if p.cap ≠ 0 ∧ p.totalBlocks ≥ p.cap then (.full, p)
    else (.reserved, { p with totalBlocks := p.totalBlocks + 1 })

/-- one turn of the loop of `pool_wait_get`; `full` is the turn that ends in `pthread_cond_wait` -/
def poolWaitGetLocked (p : Pool) : Got × Pool :=
  match p.freeList with
  | some b => (.block b, { p with freeList := p.next b, inUse := p.inUse + 1 })
  | none =>
    if p.cap = 0 ∨ p.totalBlocks < p.cap then
      (.reserved, { p with totalBlocks := p.totalBlocks + 1 })
    else (.full, p)

/-- the section after a successful `aligned_alloc` -/
def poolAllocDone (p : Pool) : Pool := { p with inUse := p.inUse + 1 }

/-- the section after a failed `aligned_alloc` -/
def poolAllocFailed (p : Pool) : Pool := { p with totalBlocks := p.totalBlocks - 1 }

/-- the section of `pool_put`; `none` is the underflow `FATAL` -/
def poolPut (p : Pool) (b : Blk) : Option Pool :=
  if p.inUse - 1 < 0 then none
  else some { p with inUse := p.inUse - 1, next := Function.update p.next b p.freeList,
                     freeList := some b }

/-- `pool_try_get` as one call, when no other thread interferes; `alloc` is what `aligned_alloc`
would return -/
def poolTryGet (p : Pool) (alloc : Option Blk) : Option Blk × Pool :=
  match poolTryGetLocked p with
  | (.block b, p') => (some b, p')
  | (.full, p') => (none, p')
  | (.reserved, p') =>
    match alloc with
    | some b => (some b, poolAllocDone p')
    | none => (none, poolAllocFailed p')

/-- the two gets decide alike; they differ in what `full` leads to -/
theorem poolWaitGetLocked_eq (p : Pool) : poolWaitGetLocked p = poolTryGetLocked p := by
  unfold poolWaitGetLocked poolTryGetLocked
  cases p.freeList with
  | some b => rfl
  | none =>
    by_cases h : p.cap = 0 ∨ p.totalBlocks < p.cap
    · have h' : ¬ (p.cap ≠ 0 ∧ p.totalBlocks ≥ p.cap) := by omega
      simp only [if_pos h, if_neg h']
    · have h' : p.cap ≠ 0 ∧ p.totalBlocks ≥ p.cap := by omega
      simp only [if_neg h, if_pos h']

theorem poolTryGetLocked_cap (p : Pool) : (poolTryGetLocked p).2.cap = p.cap := by
  unfold poolTryGetLocked
  split
  · rfl
  · split <;> rfl

theorem poolPut_cap {p q : Pool} {b : Blk} (h : poolPut p b = some q) : q.cap = p.cap := by
  unfold poolPut at h
  split at h
  · cases h
  · cases h
    rfl

theorem poolTryGet_cap {p q : Pool} {alloc g : Option Blk} (h : poolTryGet p alloc = (g, q)) :
    q.cap = p.cap := by
  have hc := poolTryGetLocked_cap p
  unfold poolTryGet at h
  split at h
  · rename_i e
    cases h
    rw [e] at hc
    exact hc
  · rename_i e
    cases h
    rw [e] at hc
    exact hc
  · rename_i e
    rw [e] at hc
    cases alloc <;> cases h <;> exact hc

theorem poolInit_cap {blockSize cap : ℕ} {p : Pool} (h : poolInit blockSize cap = some p) :
    p.cap = cap := by
  unfold poolInit at h
  split at h
  · cases h
  · split at h
    · cases h
    · cases h
      rfl

/-! ## the invariant -/

structure PoolInv (p : Pool) (free : List Blk) (out gap : Multiset Blk) (r : ℕ) (H : List Blk) :
    Prop where
  chain : Chain p.next p.freeList free
  nodup : ((free : Multiset Blk) + out + gap).Nodup
  heap : ∀ b ∈ (free : Multiset Blk) + out + gap, b ∈ H
  inUse : p.inUse = out.card
  total : p.totalBlocks = out.card + free.length + r
  cap : p.cap ≠ 0 → p.totalBlocks ≤ p.cap

theorem PoolInv.init {blockSize cap : ℕ} {p : Pool} (h : poolInit blockSize cap = some p)
    (H : List Blk) : PoolInv p [] 0 0 0 H := by
  unfold poolInit at h
  split at h
  · cases h
  · split at h
    · cases h
    · cases h
      exact ⟨rfl, by simp, by simp, by simp, by simp, fun _ => Nat.zero_le _⟩

section
variable {p p' : Pool} {free : List Blk} {out gap : Multiset Blk} {r : ℕ} {H : List Blk}

/-- a block between the free list and the blocks handed out is counted once -/
theorem free_out_comm (free : List Blk) (out gap : Multiset Blk) (b : Blk) :
    ((b :: free : List Blk) : Multiset Blk) + out + gap
      = (free : Multiset Blk) + (b ::ₘ out) + gap := by
  rw [← Multiset.cons_coe, Multiset.cons_add, Multiset.add_cons]

theorem PoolInv.get_block {b : Blk} (h : PoolInv p free out gap r H)
    (hg : poolTryGetLocked p = (.block b, p')) :
    ∃ free', free = b :: free' ∧ PoolInv p' free' (b ::ₘ out) gap r H := by
  unfold poolTryGetLocked at hg
  cases hf : p.freeList with
  | none =>
    rw [hf] at hg
    dsimp only at hg
    split at hg <;> cases hg
  | some c =>
    rw [hf] at hg
    cases hg
    have hc := h.chain
    rw [hf] at hc
    obtain ⟨free', rfl, hr⟩ := hc.pop
    refine ⟨free', rfl, hr, ?_, ?_, ?_, ?_, h.cap⟩
    · rw [← free_out_comm]
      exact h.nodup
    · rw [← free_out_comm]
      exact h.heap
    · show p.inUse + 1 = _
      rw [h.inUse, Multiset.card_cons]
      push_cast
      rfl
    · show p.totalBlocks = _
      rw [h.total, Multiset.card_cons, List.length_cons]
      omega

theorem PoolInv.get_full (hg : poolTryGetLocked p = (.full, p')) : p' = p := by
  unfold poolTryGetLocked at hg
  split at hg
  · cases hg
  · split at hg <;> cases hg
    rfl

/-- a get finds no room only where the capacity is used up and nothing is free -/
theorem PoolInv.get_full_room (h : PoolInv p free out gap r H)
    (hg : poolTryGetLocked p = (.full, p')) :
    p.cap ≠ 0 ∧ p.totalBlocks = p.cap ∧ free = [] := by
  unfold poolTryGetLocked at hg
  split at hg
  · cases hg
  · rename_i hfree
    split at hg
    · rename_i hfull
      have hc := h.chain
      rw [hfree] at hc
      have hle := h.cap hfull.1
      exact ⟨hfull.1, by omega, hc.nil_of_none⟩
    · cases hg

theorem PoolInv.get_reserved (h : PoolInv p free out gap r H)
    (hg : poolTryGetLocked p = (.reserved, p')) : PoolInv p' free out gap (r + 1) H := by
  unfold poolTryGetLocked at hg
  split at hg
  · cases hg
  · split at hg
    · cases hg
    · rename_i hroom
      cases hg
      refine ⟨h.chain, h.nodup, h.heap, h.inUse, ?_, fun hc => ?_⟩
      · show p.totalBlocks + 1 = _
        rw [h.total]
        omega
      · have hc' : p.cap ≠ 0 := hc
        show p.totalBlocks + 1 ≤ p.cap
        omega

/-- `aligned_alloc` returns memory that is not in use; the pool is not touched -/
theorem PoolInv.alloc {b : Blk} (h : PoolInv p free out gap r H) (hb : b ∉ H) :
    PoolInv p free out (b ::ₘ gap) r (b :: H) := by
  have e : ((free : Multiset Blk) + out + (b ::ₘ gap)) = b ::ₘ ((free : Multiset Blk) + out + gap) :=
    Multiset.add_cons _ _ _
  refine ⟨h.chain, ?_, ?_, h.inUse, h.total, h.cap⟩
  · rw [e, Multiset.nodup_cons]
    exact ⟨fun hm => hb (h.heap b hm), h.nodup⟩
  · rw [e]
    intro c hc
    rcases Multiset.mem_cons.mp hc with rfl | hc
    · exact List.mem_cons_self
    · exact List.mem_cons_of_mem _ (h.heap c hc)

theorem PoolInv.allocDone {b : Blk} (h : PoolInv p free out (b ::ₘ gap) (r + 1) H) :
    PoolInv (poolAllocDone p) free (b ::ₘ out) gap r H := by
  have e : ((free : Multiset Blk) + (b ::ₘ out) + gap) = (free : Multiset Blk) + out + (b ::ₘ gap) := by
    rw [Multiset.add_cons, Multiset.add_cons, Multiset.cons_add]
  refine ⟨h.chain, ?_, ?_, ?_, ?_, h.cap⟩
  · rw [e]
    exact h.nodup
  · rw [e]
    exact h.heap
  · show p.inUse + 1 = _
    rw [h.inUse, Multiset.card_cons]
    push_cast
    rfl
  · show p.totalBlocks = _
    rw [h.total, Multiset.card_cons]
    omega

theorem PoolInv.allocFailed (h : PoolInv p free out gap (r + 1) H) :
    PoolInv (poolAllocFailed p) free out gap r H := by
  have ht := h.total
  refine ⟨h.chain, h.nodup, h.heap, h.inUse, ?_, fun hc => ?_⟩
  · show p.totalBlocks - 1 = _
    omega
  · have := h.cap hc
    show p.totalBlocks - 1 ≤ p.cap
    omega

/-- a block that is handed out can be put back: no underflow, and it becomes the first free block -/
theorem PoolInv.put {b : Blk} (h : PoolInv p free (b ::ₘ out) gap r H) :
    ∃ q, poolPut p b = some q ∧ PoolInv q (b :: free) out gap r H := by
  have hu := h.inUse
  rw [Multiset.card_cons] at hu
  have hlt : ¬ p.inUse - 1 < 0 := by push_cast at hu; omega
  have e := free_out_comm free out gap b
  have hb : b ∉ free := by
    have hn := h.nodup
    rw [← e, ← Multiset.cons_coe, Multiset.cons_add, Multiset.cons_add, Multiset.nodup_cons] at hn
    intro hm
    exact hn.1 (Multiset.mem_add.mpr (Or.inl (Multiset.mem_add.mpr (Or.inl hm))))
  refine ⟨_, if_neg hlt, h.chain.push hb, ?_, ?_, ?_, ?_, h.cap⟩
  · rw [e]
    exact h.nodup
  · rw [e]
    exact h.heap
  · show p.inUse - 1 = _
    push_cast at hu
    omega
  · show p.totalBlocks = _
    rw [h.total, Multiset.card_cons, List.length_cons]
    omega

theorem PoolInv.mono (h : PoolInv p free out gap r H) (b : Blk) :
    PoolInv p free out gap r (b :: H) :=
  ⟨h.chain, h.nodup, fun c hc => List.mem_cons_of_mem _ (h.heap c hc), h.inUse, h.total, h.cap⟩

/-- `pool_try_get` as one call hands out a block that was free or is new -/
theorem PoolInv.tryGet_some {alloc : Option Blk} {b : Blk} (h : PoolInv p free out gap r H)
    (hfresh : ∀ b ∈ alloc, b ∉ H) (hg : poolTryGet p alloc = (some b, p')) :
    ∃ free', PoolInv p' free' (b ::ₘ out) gap r (b :: H) := by
  unfold poolTryGet at hg
  split at hg
  · rename_i c q hlk
    cases hg
    obtain ⟨free', _, h'⟩ := h.get_block hlk
    exact ⟨free', h'.mono b⟩
  · cases hg
  · rename_i q hlk
    have h' := h.get_reserved hlk
    cases alloc with
    | none => cases hg
    | some c =>
      cases hg
      exact ⟨free, (h'.alloc (hfresh b rfl)).allocDone⟩

/-- without a block the pool is as before: memory ran out, or the capacity is reached -/
theorem PoolInv.tryGet_none {alloc : Option Blk} (h : PoolInv p free out gap r H)
    (hg : poolTryGet p alloc = (none, p')) :
    p' = p ∧ (alloc = none ∨ p.cap ≠ 0 ∧ p.totalBlocks = p.cap ∧ free = []) := by
  unfold poolTryGet at hg
  split at hg
  · cases hg
  · rename_i q hlk
    cases hg
    exact ⟨PoolInv.get_full hlk, Or.inr (h.get_full_room hlk)⟩
  · rename_i q hlk
    cases alloc with
    | some c => cases hg
    | none =>
      cases hg
      refine ⟨?_, Or.inl rfl⟩
      unfold poolTryGetLocked at hlk
      split at hlk
      · cases hlk
      · split at hlk
        · cases hlk
        · cases hlk
          rfl

theorem PoolInv.out_nodup (h : PoolInv p free out gap r H) : out.Nodup :=
  (Multiset.nodup_add.mp (Multiset.nodup_add.mp h.nodup).1).2.1

end

/-! ## the share of a thread

What a thread has of a pool is a triple: the blocks handed out to it, the blocks it has allocated and
not counted yet, and its open reservations.  The shares add up, and each section changes the share
of the thread that runs it and leaves the rest `R` alone. -/

abbrev Share := Multiset Blk × Multiset Blk × ℕ

/-- the blocks `m` are handed out -/
def Share.held (m : Multiset Blk) : Share := (m, 0, 0)

/-- between the two sections of a get, before `aligned_alloc` has returned -/
def Share.reserved : Share := (0, 0, 1)

/-- the same with the return of `aligned_alloc` -/
def Share.allocated : Option Blk → Share
  | some b => (0, {b}, 1)
  | none => Share.reserved

def PoolOk (p : Pool) (sh : Share) (H : List Blk) : Prop :=
  ∃ free, PoolInv p free sh.1 sh.2.1 sh.2.2 H

theorem Share.held_add (m n : Multiset Blk) :
    Share.held (m + n) = Share.held m + Share.held n := by
  show (m + n, 0, 0) = (m + n, (0 : Multiset Blk) + 0, 0 + 0)
  rw [zero_add]

theorem Share.held_cons (b : Blk) (m : Multiset Blk) :
    Share.held (b ::ₘ m) = Share.held {b} + Share.held m := by
  rw [← Share.held_add, Multiset.singleton_add]

section
variable {p p' : Pool} {R : Share} {H : List Blk} {b : Blk}

theorem PoolOk.init {blockSize cap : ℕ} (h : poolInit blockSize cap = some p) (H : List Blk) :
    PoolOk p 0 H := ⟨[], PoolInv.init h H⟩

theorem PoolOk.nodup (h : PoolOk p R H) : R.1.Nodup := by
  obtain ⟨free, hp⟩ := h
  exact hp.out_nodup

theorem PoolOk.inUse (h : PoolOk p R H) : p.inUse = R.1.card := by
  obtain ⟨free, hp⟩ := h
  exact hp.inUse

theorem PoolOk.mem_heap (h : PoolOk p R H) (hb : b ∈ R.1) : b ∈ H := by
  obtain ⟨free, hp⟩ := h
  apply hp.heap
  rw [Multiset.mem_add, Multiset.mem_add]
  exact Or.inl (Or.inr hb)

theorem PoolOk.get_block (h : PoolOk p R H) (hg : poolTryGetLocked p = (.block b, p')) :
    PoolOk p' (Share.held {b} + R) H := by
  obtain ⟨free, hp⟩ := h
  obtain ⟨free', _, hp'⟩ := hp.get_block hg
  refine ⟨free', ?_⟩
  show PoolInv p' free' ({b} + R.1) (0 + R.2.1) (0 + R.2.2) H
  rw [Multiset.singleton_add, zero_add, Nat.zero_add]
  exact hp'

theorem PoolOk.get_reserved (h : PoolOk p R H) (hg : poolTryGetLocked p = (.reserved, p')) :
    PoolOk p' (Share.reserved + R) H := by
  obtain ⟨free, hp⟩ := h
  refine ⟨free, ?_⟩
  show PoolInv p' free (0 + R.1) (0 + R.2.1) (1 + R.2.2) H
  rw [zero_add, zero_add, Nat.add_comm]
  exact hp.get_reserved hg

theorem PoolOk.alloc {r : Option Blk} (h : PoolOk p (Share.reserved + R) H)
    (hr : ∀ b ∈ r, b ∉ H) : PoolOk p (Share.allocated r + R) (r.toList ++ H) := by
  cases r with
  | none => exact h
  | some b =>
    obtain ⟨free, hp⟩ := h
    refine ⟨free, ?_⟩
    have hp' := hp.alloc (hr b rfl)
    show PoolInv p free _ ({b} + R.2.1) _ (b :: H)
    rw [Multiset.singleton_add, ← zero_add R.2.1]
    exact hp'

theorem PoolOk.allocDone (h : PoolOk p (Share.allocated (some b) + R) H) :
    PoolOk (poolAllocDone p) (Share.held {b} + R) H := by
  obtain ⟨free, hp⟩ := h
  have hp' : PoolInv p free R.1 (b ::ₘ R.2.1) (R.2.2 + 1) H := by
    have e : PoolInv p free (0 + R.1) ({b} + R.2.1) (1 + R.2.2) H := hp
    rw [zero_add, Multiset.singleton_add, Nat.add_comm] at e
    exact e
  refine ⟨free, ?_⟩
  show PoolInv _ free ({b} + R.1) (0 + R.2.1) (0 + R.2.2) H
  rw [Multiset.singleton_add, zero_add, Nat.zero_add]
  exact hp'.allocDone

theorem PoolOk.allocFailed (h : PoolOk p (Share.reserved + R) H) :
    PoolOk (poolAllocFailed p) R H := by
  obtain ⟨free, hp⟩ := h
  have hp' : PoolInv p free R.1 R.2.1 (R.2.2 + 1) H := by
    have e : PoolInv p free (0 + R.1) (0 + R.2.1) (1 + R.2.2) H := hp
    rw [zero_add, zero_add, Nat.add_comm] at e
    exact e
  exact ⟨free, hp'.allocFailed⟩

/-- a block that is handed out goes back without an underflow -/
theorem PoolOk.put (h : PoolOk p (Share.held {b} + R) H) :
    ∃ q, poolPut p b = some q ∧ PoolOk q R H := by
  obtain ⟨free, hp⟩ := h
  have hp' : PoolInv p free (b ::ₘ R.1) R.2.1 R.2.2 H := by
    have e : PoolInv p free ({b} + R.1) (0 + R.2.1) (0 + R.2.2) H := hp
    rw [zero_add, Nat.zero_add, Multiset.singleton_add] at e
    exact e
  obtain ⟨q, hq, hi⟩ := hp'.put
  exact ⟨q, hq, b :: free, hi⟩

end

end QuicVpn
