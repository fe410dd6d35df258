import Mathlib.Logic.Function.Basic
import Mathlib.Tactic.ByContra

/-!
# A table of leases and its holders

The table says for each cell which resource it is leased to; each party holds at most one lease, a
resource together with a cell.  `Leases table held`: the two sides agree.

* `Leases.take`     a party without a lease gets a cell that is not leased;
* `Leases.drop`     a party gives its cell back.
-/

namespace Conc

section
variable {I R K : Type*}

def Leases (table : I → Option R) (held : K → Option (R × I)) : Prop :=
  ∀ i r, table i = some r ↔ ∃ k, held k = some (r, i)

variable {table : I → Option R} {held held' : K → Option (R × I)}

theorem Leases.none (h : ∀ k, held k = none) (ht : ∀ i, table i = none) : Leases table held := by
  intro i r
  rw [ht i]
  constructor
  · intro e
    cases e
  · intro ⟨k, hk⟩
    rw [h k] at hk
    cases hk

theorem Leases.congr (h : Leases table held) (he : ∀ k, held' k = held k) :
    Leases table held' := by
  have e : held' = held := funext he
  rw [e]
  exact h

variable [DecidableEq I] [DecidableEq K]

theorem Leases.take {k : K} {r : R} {i : I} (h : Leases table held) (hk : held k = Option.none)
    (hi : table i = Option.none) :
    Leases (Function.update table i (some r)) (Function.update held k (some (r, i))) := by
  intro j q
  by_cases hj : j = i
  · subst hj
    rw [Function.update_self]
    constructor
    · intro e
      cases e
      exact ⟨k, Function.update_self ..⟩
    · intro ⟨u, hu⟩
      by_cases hku : u = k
      · rw [hku, Function.update_self] at hu
        cases hu
        rfl
      · rw [Function.update_of_ne hku] at hu
        have := (h j q).mpr ⟨u, hu⟩
        rw [hi] at this
        cases this
  · rw [Function.update_of_ne hj, h j q]
    constructor
    · intro ⟨u, hu⟩
      have hku : u ≠ k := by
        intro e
        rw [e, hk] at hu
        cases hu
      exact ⟨u, by rw [Function.update_of_ne hku]; exact hu⟩
    · intro ⟨u, hu⟩
      by_cases hku : u = k
      · rw [hku, Function.update_self] at hu
        cases hu
        exact absurd rfl hj
      · rw [Function.update_of_ne hku] at hu
        exact ⟨u, hu⟩

/-- `hone`: no two parties hold the same resource -/
theorem Leases.drop {k : K} {r : R} {i : I} (h : Leases table held) (hk : held k = some (r, i))
    (hone : ∀ u j, held u = some (r, j) → u = k) :
    Leases (Function.update table i Option.none) (Function.update held k Option.none) := by
  intro j q
  by_cases hj : j = i
  · subst hj
    rw [Function.update_self]
    constructor
    · intro e
      cases e
    · intro ⟨u, hu⟩
      by_cases hku : u = k
      · rw [hku, Function.update_self] at hu
        cases hu
      · rw [Function.update_of_ne hku] at hu
        have hq := (h j q).mpr ⟨u, hu⟩
        have hr := (h j r).mpr ⟨k, hk⟩
        rw [hr] at hq
        cases hq
        exact absurd (hone u j hu) hku
  · rw [Function.update_of_ne hj, h j q]
    constructor
    · intro ⟨u, hu⟩
      have hku : u ≠ k := by
        intro e
        rw [e, hk] at hu
        cases hu
        exact hj rfl
      exact ⟨u, by rw [Function.update_of_ne hku]; exact hu⟩
    · intro ⟨u, hu⟩
      by_cases hku : u = k
      · rw [hku, Function.update_self] at hu
        cases hu
      · rw [Function.update_of_ne hku] at hu
        exact ⟨u, hu⟩

end

end Conc
