import Mathlib.Data.BitVec
import Mathlib.Data.Multiset.Range
import Mathlib.Data.List.Nodup
import QuicVpn.Lib.Chain

/-!
# The lock-free pool of `lf_pool.h`: its record and its free list

The blocks lie in one array; a block is its index, and carries the index of the next free block.  The
head of the free list is a word of 64 bits, an index and a generation that every update raises.

* `lfPoolInit`            the argument checks and the record of the full pool;
* `LfPool.Free p l`       the free list of `p` goes through the blocks `l`;
* `lfPoolInit_free`       a new pool has all its blocks in the list.
-/

set_option linter.unusedSectionVars false

namespace QuicVpn
open Conc

/-- `UINT32_MAX`, the end of the free list -/
def uint32Max : ℕ := 4294967295

/-- `lf_pool_head_t` -/
structure LfHead where
  nextIdx : ℕ
  generation : BitVec 32
  deriving DecidableEq, Repr

/-- `lf_pool_t`; `nextIdx i` is the field of block `i`, and `blocksSem` the value of the semaphore -/
structure LfPool where
  blockSize : ℕ
  capacity : ℕ
  nextIdx : ℕ → ℕ
  head : LfHead
  inUse : ℤ
  blocksSem : ℕ

/-- the loop of `lf_pool_init` over its first `n` turns, on memory that is zero -/
def linkSlots (n : ℕ) : ℕ → ℕ :=
  (List.range n).foldl (fun f i => Function.update f i ((i + 1) % 2 ^ 32)) fun _ => 0

/-- `lf_pool_init`; `malloc` and `semInit` tell which of the two calls succeed -/
def lfPoolInit (blockSize capacity : ℕ) (malloc semInit : Bool) : Option LfPool :=
  if blockSize = 0 ∨ capacity = 0 then none
  else if capacity ≥ uint32Max then none
  else if !malloc then none
  else
    let nextIdx := Function.update (linkSlots (capacity - 1)) (capacity - 1) uint32Max
    if !semInit then none
    else some ⟨blockSize, capacity, nextIdx, ⟨0, 0⟩, 0, capacity⟩

/-- the block an index leads to -/
def blockAt (i : ℕ) : Option ℕ := if i = uint32Max then none else some i

def LfPool.Free (p : LfPool) (l : List ℕ) : Prop :=
  Chain (fun i => blockAt (p.nextIdx i)) (blockAt p.head.nextIdx) l

/-! ## the new pool -/

theorem blockAt_of_ne {i : ℕ} (h : i ≠ uint32Max) : blockAt i = some i := if_neg h

theorem linkSlots_succ (n : ℕ) :
    linkSlots (n + 1) = Function.update (linkSlots n) n ((n + 1) % 2 ^ 32) := by
  unfold linkSlots
  rw [List.range_succ, List.foldl_append]
  rfl

theorem linkSlots_of_lt {n i : ℕ} (h : i < n) : linkSlots n i = (i + 1) % 2 ^ 32 := by
  induction n with
  | zero => exact absurd h (Nat.not_lt_zero i)
  | succ n ih =>
    rw [linkSlots_succ]
    by_cases e : i = n
    · rw [e, Function.update_self]
    · rw [Function.update_of_ne e]
      exact ih (by omega)

theorem lfPoolInit_some {blockSize capacity : ℕ} {malloc semInit : Bool} {p : LfPool}
    (h : lfPoolInit blockSize capacity malloc semInit = some p) :
    capacity ≠ 0 ∧ capacity < uint32Max ∧
      p = ⟨blockSize, capacity,
        Function.update (linkSlots (capacity - 1)) (capacity - 1) uint32Max, ⟨0, 0⟩, 0, capacity⟩ := by
  unfold lfPoolInit at h
  split_ifs at h with h0 h1 h2 h3
  exact ⟨fun e => h0 (.inr e), by omega, (Option.some.inj h).symm⟩

/-- from slot `i` on the links lead through all later blocks -/
theorem chain_linkSlots {capacity : ℕ} (hm : capacity < uint32Max) :
    ∀ n i, i + n + 1 = capacity →
      Chain (fun i => blockAt (Function.update (linkSlots (capacity - 1)) (capacity - 1) uint32Max i))
        (some i) (List.range' i (n + 1)) := by
  have hmax : uint32Max = 4294967295 := rfl
  intro n
  induction n with
  | zero =>
    intro i hi
    have e : i = capacity - 1 := by omega
    refine ⟨rfl, ?_⟩
    show blockAt _ = none
    rw [e, Function.update_self]
    exact if_pos rfl
  | succ n ih =>
    intro i hi
    have e : Function.update (linkSlots (capacity - 1)) (capacity - 1) uint32Max i = i + 1 := by
      rw [Function.update_of_ne (by omega), linkSlots_of_lt (by omega)]
      exact Nat.mod_eq_of_lt (by omega)
    refine ⟨rfl, ?_⟩
    dsimp only
    rw [e, blockAt_of_ne (by omega)]
    exact ih (i + 1) (by omega)

theorem lfPoolInit_free {blockSize capacity : ℕ} {malloc semInit : Bool} {p : LfPool}
    (h : lfPoolInit blockSize capacity malloc semInit = some p) :
    p.Free (List.range capacity) := by
  obtain ⟨hc, hm, rfl⟩ := lfPoolInit_some h
  have hchain := chain_linkSlots hm (capacity - 1) 0 (by omega)
  rw [Nat.sub_add_cancel (Nat.one_le_iff_ne_zero.mpr hc), ← List.range_eq_range'] at hchain
  exact hchain

/-! ## taking a block and giving it back -/

section
variable {p : LfPool} {l : List ℕ}

/-- the first block of the list -/
theorem LfPool.Free.head_of_ne_nil (h : p.Free l) (hl : l ≠ []) :
    p.head.nextIdx ∈ l ∧ p.head.nextIdx ≠ uint32Max := by
  cases l with
  | nil => exact absurd rfl hl
  | cons b l =>
    have hb : blockAt p.head.nextIdx = some b := h.1
    have hne : p.head.nextIdx ≠ uint32Max := by
      intro e
      rw [e] at hb
      exact absurd hb (by simp [blockAt])
    rw [blockAt_of_ne hne] at hb
    rw [Option.some.inj hb]
    exact ⟨List.mem_cons_self, Option.some.inj hb ▸ hne⟩

/-- the head moves on to the next block -/
theorem LfPool.Free.pop (h : p.Free l) (hl : l ≠ []) (g : BitVec 32) :
    ∃ l', l = p.head.nextIdx :: l' ∧
      LfPool.Free { p with head := ⟨p.nextIdx p.head.nextIdx, g⟩ } l' := by
  have hne := (h.head_of_ne_nil hl).2
  unfold LfPool.Free at h
  rw [blockAt_of_ne hne] at h
  exact h.pop

/-- writing the field of a block that is not in the list -/
theorem LfPool.Free.link (h : p.Free l) {b : ℕ} (hb : b ∉ l) (x : ℕ) :
    LfPool.Free { p with nextIdx := Function.update p.nextIdx b x } l := by
  have e : (fun i => blockAt (Function.update p.nextIdx b x i)) =
      Function.update (fun i => blockAt (p.nextIdx i)) b (blockAt x) := by
    funext i
    by_cases hi : i = b
    · rw [hi, Function.update_self, Function.update_self]
    · rw [Function.update_of_ne hi, Function.update_of_ne hi]
  unfold LfPool.Free
  rw [e]
  exact Chain.of_ne (blockAt x) h hb

/-- the head moves to a block that leads to it -/
theorem LfPool.Free.push (h : p.Free l) {b : ℕ} (hb : p.nextIdx b = p.head.nextIdx)
    (hne : b ≠ uint32Max) (g : BitVec 32) : LfPool.Free { p with head := ⟨b, g⟩ } (b :: l) := by
  refine ⟨blockAt_of_ne hne, ?_⟩
  show Chain _ (blockAt (p.nextIdx b)) l
  rw [hb]
  exact h

end

end QuicVpn
