import Mathlib.Data.List.Rotate
import Mathlib.Data.List.Nodup
import Mathlib.Data.List.Sublists
import Mathlib.Data.Nat.ModEq
import Mathlib.Tactic.Ring

/-!
# Scans around a ring of positions

A ring has the positions `0 .. n - 1`.  `cycle n c` lists them in the order in which a scan that starts
at the cursor `c` looks at them.

* `cycle_next`        where the scan stopped at `k`, the next one starts behind it: what was passed
                      comes last;
* `before_of_scan`    a position that the scan neither passed nor stopped at stays in front of all that
                      were behind it.
-/

namespace Conc

def cycle (n c : ℕ) : List ℕ := (List.range n).map fun i => (c + i) % n

section
variable {n c k : ℕ}

theorem length_cycle : (cycle n c).length = n := by
  rw [cycle, List.length_map, List.length_range]

theorem lt_of_mem_cycle {i : ℕ} (h : i ∈ cycle n c) : i < n := by
  obtain ⟨j, hj, rfl⟩ := List.mem_map.mp h
  exact Nat.mod_lt _ (lt_of_le_of_lt (Nat.zero_le j) (List.mem_range.mp hj))

theorem nodup_cycle (n c : ℕ) : (cycle n c).Nodup := by
  refine List.Nodup.map_on ?_ List.nodup_range
  intro i hi j hj e
  have hij : i ≡ j [MOD n] := Nat.ModEq.add_left_cancel' c e
  exact Nat.ModEq.eq_of_lt_of_lt hij (List.mem_range.mp hi) (List.mem_range.mp hj)

/-- every position is looked at -/
theorem mem_cycle {i : ℕ} : i ∈ cycle n c ↔ i < n := by
  refine ⟨lt_of_mem_cycle, fun hi => ?_⟩
  refine List.mem_map.mpr ⟨(i + (n - c % n)) % n, ?_, ?_⟩
  · exact List.mem_range.mpr (Nat.mod_lt _ (by omega))
  · have hc : c % n < n := Nat.mod_lt _ (by omega)
    have e : c % n + (i + (n - c % n)) = i + n := by omega
    calc (c + (i + (n - c % n)) % n) % n = (c % n + (i + (n - c % n))) % n := by
          rw [Nat.add_mod_mod, ← Nat.mod_add_mod]
      _ = i := by rw [e, Nat.add_mod_right, Nat.mod_eq_of_lt hi]

theorem cycle_rotate (m : ℕ) : (cycle n c).rotate m = cycle n (c + m) := by
  apply List.ext_getElem
  · rw [List.length_rotate, length_cycle, length_cycle]
  · intro i h1 h2
    rw [List.getElem_rotate]
    simp only [cycle, List.getElem_map, List.getElem_range, List.length_map, List.length_range]
    rw [Nat.add_mod_mod]
    congr 1
    ring

theorem cycle_mod : cycle n (c % n) = cycle n c := by
  apply List.map_congr_left
  intro i _
  rw [Nat.mod_add_mod]

/-- **The next scan.**  It starts behind the position where the last one stopped. -/
theorem cycle_next {A B : List ℕ} (h : cycle n c = A ++ k :: B) :
    cycle n ((k + 1) % n) = B ++ (A ++ [k]) := by
  have hlen : A.length < n := by
    have := congrArg List.length h
    rw [length_cycle, List.length_append, List.length_cons] at this
    omega
  -- `k` is the position number `A.length` of the scan
  have hk : k = (c + A.length) % n := by
    have hget : (cycle n c)[A.length]? = some k := by
      rw [h, List.getElem?_append_right (Nat.le_refl _), Nat.sub_self]
      rfl
    rw [cycle, List.getElem?_map, List.getElem?_range hlen] at hget
    exact (Option.some.inj hget).symm
  have hrot : cycle n ((k + 1) % n) = (cycle n c).rotate (A.length + 1) := by
    rw [cycle_rotate, cycle_mod, hk, ← cycle_mod, Nat.mod_add_mod, cycle_mod, Nat.add_assoc]
  have hsplit : A ++ k :: B = (A ++ [k]) ++ B := by simp
  have hl : A.length + 1 = (A ++ [k]).length := by simp
  rw [hrot, h, hsplit, hl, List.rotate_append_length_eq]

end

section
variable {α : Type*} {i j k : α} {A B : List α}

/-- what is in front of `i` in the whole list and not in `A` is in front of it in the rest -/
theorem before_of_not_mem (h : [j, i].Sublist (A ++ B)) (hj : j ∉ A) : [j, i].Sublist B := by
  induction A with
  | nil => exact h
  | cons a A ih =>
    rw [List.mem_cons, not_or] at hj
    exact ih (h.of_cons_of_ne hj.1) hj.2

/-- a position `j` that the scan neither passed nor stopped at stays in front of `i` -/
theorem before_of_scan (h : [j, i].Sublist (A ++ k :: B)) (hj : j ∉ A) (hk : j ≠ k) :
    [j, i].Sublist (B ++ (A ++ [k])) :=
  ((before_of_not_mem h hj).of_cons_of_ne hk).trans (List.sublist_append_left B _)

/-- the scan does not stop at a position behind one it has not passed -/
theorem not_before (hn : (A ++ i :: B).Nodup) (hj : j ∉ A) (hji : j ≠ i) :
    ¬ [j, i].Sublist (A ++ i :: B) := by
  intro h
  have h1 : [j, i].Sublist B := (before_of_not_mem h hj).of_cons_of_ne hji
  have h2 : i ∈ B := h1.subset (List.mem_cons_of_mem _ List.mem_cons_self)
  have h3 := (List.nodup_append.mp hn).2.1
  exact (List.nodup_cons.mp h3).1 h2

end

end Conc
