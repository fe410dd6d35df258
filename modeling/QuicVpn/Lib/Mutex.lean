import Mathlib.Logic.Function.Basic

/-!
# A mutex and the program counters of its threads

`Owns holds m pc` says that the mutex `m` names exactly the thread whose program counter is at a place
inside a locked section.

* `Owns.take`, `Owns.release`, `Owns.same`   what a step of one thread does to it;
* `Owns.unique`                              two threads are never both inside.
-/

namespace Conc

section
variable {T P : Type*} {holds : P → Bool} {m : Option T} {pc pc' : T → P} {t u : T} {p : P}

def Owns (holds : P → Bool) (m : Option T) (pc : T → P) : Prop := ∀ t, holds (pc t) = true ↔ m = some t

theorem Owns.unique (h : Owns holds m pc) (ht : holds (pc t) = true) (hu : holds (pc u) = true) :
    t = u := Option.some.inj (((h t).mp ht).symm.trans ((h u).mp hu))

theorem Owns.congr (h : Owns holds m pc) (he : ∀ u, holds (pc' u) = holds (pc u)) :
    Owns holds m pc' := by
  intro u
  rw [he u]
  exact h u

variable [DecidableEq T]

/-- a step inside or outside of the locked sections -/
theorem Owns.same (h : Owns holds m pc) (hp : holds p = holds (pc t)) :
    Owns holds m (Function.update pc t p) := by
  apply h.congr
  intro u
  by_cases hu : u = t
  · rw [hu, Function.update_self, hp]
  · rw [Function.update_of_ne hu]

theorem Owns.take (h : Owns holds none pc) (hp : holds p = true) :
    Owns holds (some t) (Function.update pc t p) := by
  intro u
  by_cases hu : u = t
  · rw [hu, Function.update_self]
    exact iff_of_true hp rfl
  · rw [Function.update_of_ne hu]
    refine iff_of_false (fun hh => ?_) (fun e => hu (Option.some.inj e).symm)
    cases (h u).mp hh

theorem Owns.release (h : Owns holds m pc) (ht : holds (pc t) = true) (hp : holds p = false) :
    Owns holds none (Function.update pc t p) := by
  intro u
  by_cases hu : u = t
  · rw [hu, Function.update_self, hp]
    exact iff_of_false Bool.false_ne_true nofun
  · rw [Function.update_of_ne hu]
    exact iff_of_false (fun hh => hu (h.unique hh ht)) nofun

end

end Conc
