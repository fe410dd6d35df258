import Mathlib.Logic.Function.Basic
import Mathlib.Data.List.Basic
import Mathlib.Data.Nat.ModEq

/-!
# Circular buffers

A ring of `size` cells is a function `cell : ℕ → β` read below `size` only.  `ring cell size head n`
is the list of the `n` elements that start at `head`, in order.

* `ring_push`     writing the cell behind the last element appends it;
* `ring_pop`      advancing the head removes the first element;
* `ring_clear`    a write to a cell outside the occupied part changes nothing.

Where the free cells are empty and the positions grow without bound, `Window cell size lo l` says
what all cells hold, seen from the position `lo` on: the elements `l`, and then nothing.

* `Window.push`, `Window.pop`     writing the first free cell, clearing the first occupied one;
* `Window.front`, `Window.gap`    what is in these two cells before.
-/

namespace Conc

section
variable {β : Type*}

def ring (cell : ℕ → β) (size head n : ℕ) : List β :=
  (List.range n).map fun i => cell ((head + i) % size)

theorem ring_length (cell : ℕ → β) (size head n : ℕ) : (ring cell size head n).length = n := by
  simp [ring]

/-- cells at different distances from the head are different -/
theorem mod_ne_mod (size head : ℕ) {i j : ℕ} (hij : i < j) (hj : j < i + size) :
    (head + i) % size ≠ (head + j) % size := by
  intro h
  have hij' : i ≡ j [MOD size] := Nat.ModEq.add_left_cancel' head h
  have hle := Nat.le_of_dvd (by omega) ((Nat.modEq_iff_dvd' hij.le).mp hij')
  omega

theorem ring_congr {cell cell' : ℕ → β} {size head n : ℕ}
    (h : ∀ i, i < n → cell ((head + i) % size) = cell' ((head + i) % size)) :
    ring cell size head n = ring cell' size head n := by
  unfold ring
  apply List.map_congr_left
  intro i hi
  exact h i (List.mem_range.mp hi)

theorem ring_push (cell : ℕ → β) (size head n : ℕ) (x : β) (hn : n < size) :
    ring (Function.update cell ((head + n) % size) x) size head (n + 1)
      = ring cell size head n ++ [x] := by
  have hpre : ring (Function.update cell ((head + n) % size) x) size head n
      = ring cell size head n := by
    apply ring_congr
    intro i hi
    rw [Function.update_of_ne (mod_ne_mod size head hi (by omega))]
  unfold ring at hpre ⊢
  rw [List.range_succ, List.map_append, hpre]
  simp

theorem ring_pop (cell : ℕ → β) (size head n : ℕ) (hh : head < size) :
    ring cell size head (n + 1) = cell head :: ring cell size ((head + 1) % size) n := by
  unfold ring
  rw [List.range_succ_eq_map, List.map_cons, List.map_map, Nat.add_zero, Nat.mod_eq_of_lt hh]
  congr 1
  apply List.map_congr_left
  intro i _
  show cell ((head + (i + 1)) % size) = cell (((head + 1) % size + i) % size)
  rw [Nat.mod_add_mod]
  congr 2
  omega

theorem ring_clear (cell : ℕ → β) (size head n : ℕ) (x : β) (hh : head < size) (hn : n < size) :
    ring (Function.update cell head x) size ((head + 1) % size) n
      = ring cell size ((head + 1) % size) n := by
  apply ring_congr
  intro i hi
  have hne : ((head + 1) % size + i) % size ≠ head := by
    rw [Nat.mod_add_mod, Nat.add_assoc]
    have h := mod_ne_mod size head (show 0 < 1 + i by omega) (by omega)
    rw [Nat.add_zero, Nat.mod_eq_of_lt hh] at h
    exact fun e => h e.symm
  rw [Function.update_of_ne hne]

/-! ## positions that are not reduced -/

def Window (cell : ℕ → Option β) (size lo : ℕ) (l : List β) : Prop :=
  l.length ≤ size ∧ ∀ i, i < size → cell ((lo + i) % size) = l[i]?

theorem Window.empty (size lo : ℕ) : Window (fun _ => (none : Option β)) size lo [] :=
  ⟨Nat.zero_le _, fun _ _ => rfl⟩

section
variable {cell : ℕ → Option β} {size lo : ℕ} {l : List β} {x : β}

theorem Window.front (h : Window cell size lo (x :: l)) : cell (lo % size) = some x := by
  obtain ⟨hlen, hc⟩ := h
  rw [List.length_cons] at hlen
  exact hc 0 (by omega)

theorem Window.gap (h : Window cell size lo l) (hl : l.length < size) :
    cell ((lo + l.length) % size) = none := by
  rw [h.2 _ hl]
  exact List.getElem?_eq_none (Nat.le_refl _)

theorem Window.push (h : Window cell size lo l) (hl : l.length < size) :
    Window (Function.update cell ((lo + l.length) % size) (some x)) size lo (l ++ [x]) := by
  refine ⟨?_, fun i hi => ?_⟩
  · rw [List.length_append, List.length_singleton]
    exact hl
  · rcases Nat.lt_trichotomy i l.length with hlt | rfl | hgt
    · rw [Function.update_of_ne (mod_ne_mod size lo hlt (by omega)), List.getElem?_append_left hlt]
      exact h.2 i hi
    · rw [Function.update_self, List.getElem?_append_right (Nat.le_refl _), Nat.sub_self]
      rfl
    · rw [Function.update_of_ne (mod_ne_mod size lo hgt (by omega)).symm, h.2 i hi,
        List.getElem?_eq_none (by omega), List.getElem?_eq_none]
      rw [List.length_append, List.length_singleton]
      exact hgt

theorem Window.pop (h : Window cell size lo (x :: l)) :
    Window (Function.update cell (lo % size) none) size (lo + 1) l := by
  obtain ⟨hlen, hc⟩ := h
  rw [List.length_cons] at hlen
  refine ⟨by omega, fun i hi => ?_⟩
  by_cases he : i + 1 = size
  · -- the cell that has been cleared is the last one now
    have e : (lo + 1 + i) % size = lo % size := by
      rw [show lo + 1 + i = lo + size by omega, Nat.add_mod_right]
    rw [e, Function.update_self, List.getElem?_eq_none (by omega)]
  · have hne : (lo + 1 + i) % size ≠ lo % size := by
      have := mod_ne_mod size lo (show 0 < i + 1 by omega) (by omega)
      rw [Nat.add_zero] at this
      rw [show lo + 1 + i = lo + (i + 1) by omega]
      exact this.symm
    rw [Function.update_of_ne hne, show lo + 1 + i = lo + (i + 1) by omega, hc (i + 1) (by omega)]
    rfl

end

end

end Conc
