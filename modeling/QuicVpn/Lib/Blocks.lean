import Mathlib.Data.List.Basic
import Mathlib.Data.Nat.Basic
import Mathlib.Tactic.Ring

/-!
# Cutting a sequence into blocks

`blocks n x` are the full blocks of `n` consecutive elements of `x`; a remainder of less than `n`
elements is left out.

* `blocks_append`     after whole blocks, the rest is cut on its own;
* `blocks_of_le`      the first block, and the blocks of the rest;
* `blocks_isPrefix`   a longer sequence starts with the same blocks;
* `blocks_eq_iff`     it has the same ones if it has no more of them.
-/

namespace Conc

section
variable {α : Type*} (n : ℕ)

def blocks (x : List α) : List (List α) :=
  (List.range (x.length / n)).map fun k => (x.drop (n * k)).take n

theorem length_blocks (x : List α) : (blocks n x).length = x.length / n := by
  unfold blocks
  rw [List.length_map, List.length_range]

theorem blocks_of_lt {x : List α} (h : x.length < n) : blocks n x = [] := by
  unfold blocks
  rw [Nat.div_eq_of_lt h]
  rfl

/-- a block inside `a` does not depend on what follows -/
theorem block_append_left {a : List α} (b : List α) {k : ℕ} (hk : k < a.length / n) :
    ((a ++ b).drop (n * k)).take n = (a.drop (n * k)).take n := by
  have hle : n * k + n ≤ a.length := by
    calc n * k + n = n * (k + 1) := by ring
      _ ≤ n * (a.length / n) := Nat.mul_le_mul_left n hk
      _ ≤ a.length := Nat.mul_div_le _ _
  rw [List.drop_append_of_le_length (by omega), List.take_append_of_le_length]
  rw [List.length_drop]
  omega

theorem blocks_append {a : List α} (b : List α) (hn : 0 < n) (ha : n ∣ a.length) :
    blocks n (a ++ b) = blocks n a ++ blocks n b := by
  obtain ⟨m, hm⟩ := ha
  have ham : a.length / n = m := by rw [hm, Nat.mul_div_cancel_left m hn]
  have hlen : (a ++ b).length / n = m + b.length / n := by
    rw [List.length_append, hm, Nat.mul_add_div hn]
  unfold blocks
  rw [hlen, ham, List.range_add, List.map_append, List.map_map]
  congr 1
  · apply List.map_congr_left
    intro k hk
    apply block_append_left
    rw [ham]
    exact List.mem_range.mp hk
  · apply List.map_congr_left
    intro k _
    show ((a ++ b).drop (n * (m + k))).take n = (b.drop (n * k)).take n
    have e : n * (m + k) = a.length + n * k := by rw [hm]; ring
    rw [e, List.drop_length_add_append]

theorem blocks_of_length_eq {x : List α} (hn : 0 < n) (h : x.length = n) : blocks n x = [x] := by
  unfold blocks
  rw [h, Nat.div_self hn]
  show [(x.drop (n * 0)).take n] = [x]
  rw [Nat.mul_zero, List.drop_zero, List.take_of_length_le h.le]

/-- the first block, and the blocks of the rest -/
theorem blocks_of_le {x : List α} (hn : 0 < n) (h : n ≤ x.length) :
    blocks n x = x.take n :: blocks n (x.drop n) := by
  have hlen : (x.take n).length = n := by rw [List.length_take, Nat.min_eq_left h]
  conv_lhs => rw [← List.take_append_drop n x]
  rw [blocks_append n _ hn (by rw [hlen]), blocks_of_length_eq n hn hlen, List.singleton_append]

theorem blocks_isPrefix (a b : List α) : blocks n a <+: blocks n (a ++ b) := by
  have hle : a.length / n ≤ (a ++ b).length / n := by
    apply Nat.div_le_div_right
    rw [List.length_append]
    exact Nat.le_add_right _ _
  obtain ⟨d, hd⟩ := Nat.exists_eq_add_of_le hle
  have hleft : blocks n a =
      (List.range (a.length / n)).map fun k => ((a ++ b).drop (n * k)).take n := by
    apply List.map_congr_left
    intro k hk
    exact (block_append_left n b (List.mem_range.mp hk)).symm
  rw [hleft]
  unfold blocks
  rw [hd, List.range_add, List.map_append]
  exact List.prefix_append _ _

theorem blocks_eq_iff {a b : List α} :
    blocks n a = blocks n (a ++ b) ↔ a.length / n = (a ++ b).length / n := by
  rw [← length_blocks, ← length_blocks]
  exact ⟨fun h => congrArg List.length h, (blocks_isPrefix n a b).eq_of_length⟩

end

end Conc
