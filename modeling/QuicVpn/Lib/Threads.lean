import Mathlib.Algebra.BigOperators.Group.Finset.Basic
import Mathlib.Algebra.Order.BigOperators.Group.Finset
import Mathlib.Algebra.BigOperators.Group.Finset.Piecewise
import Mathlib.Algebra.BigOperators.Pi
import Mathlib.Data.Multiset.AddSub

/-!
# Sums over the threads of a system

The program counters of finitely many threads are a function `pc : T → P`.  What the threads own
or count together is a sum `∑ t, f (pc t)`: of numbers (how many threads are at some point) or of
multisets (which resources they hold).

* `sum_split`       the share of one thread and the rest, which a step of that thread keeps;
* `owner_unique`    if the threads together hold nothing twice, a resource has one holder.
-/

namespace Conc

section
variable {T P M : Type*} [Fintype T] [DecidableEq T] [AddCommMonoid M]

/-- a step of thread `t` replaces the share of `t` and keeps the rest `r` -/
theorem sum_split (f : P → M) (pc : T → P) (t : T) :
    ∃ r, ∑ u, f (pc u) = f (pc t) + r ∧ ∀ p, ∑ u, f (Function.update pc t p u) = f p + r := by
  refine ⟨∑ u ∈ Finset.univ.erase t, f (pc u), ?_, fun p => ?_⟩
  · exact (Finset.add_sum_erase Finset.univ (fun u => f (pc u)) (Finset.mem_univ t)).symm
  · rw [← Finset.add_sum_erase Finset.univ _ (Finset.mem_univ t), Function.update_self]
    congr 1
    apply Finset.sum_congr rfl
    intro u hu
    rw [Function.update_of_ne (Finset.ne_of_mem_erase hu)]

end

section
variable {T P α : Type*} [Fintype T] [DecidableEq T]

theorem mem_share (f : P → Multiset α) (pc : T → P) (t : T) {b : α} (hb : b ∈ f (pc t)) :
    b ∈ ∑ u, f (pc u) := by
  obtain ⟨r, h, _⟩ := sum_split f pc t
  rw [h, Multiset.mem_add]
  exact Or.inl hb

/-- if the threads together hold nothing twice, a resource has one holder -/
theorem owner_unique (f : P → Multiset α) (pc : T → P) (hn : (∑ u, f (pc u)).Nodup)
    {t u : T} {b : α} (ht : b ∈ f (pc t)) (hu : b ∈ f (pc u)) : t = u := by
  by_contra hne
  rw [← Finset.add_sum_erase Finset.univ (fun u => f (pc u)) (Finset.mem_univ t)] at hn
  have hmem : u ∈ Finset.univ.erase t := Finset.mem_erase.mpr ⟨fun h => hne h.symm, Finset.mem_univ u⟩
  rw [← Finset.add_sum_erase _ (fun u => f (pc u)) hmem] at hn
  have hd := (Multiset.nodup_add.mp hn).2.2
  exact Multiset.disjoint_left.mp hd ht (Multiset.mem_add.mpr (Or.inl hu))

end

section
variable {T P : Type*} [Fintype T] [DecidableEq T]

/-- the count of a single thread is at most the count of all -/
theorem share_le (f : P → ℕ) (pc : T → P) (t : T) : f (pc t) ≤ ∑ u, f (pc u) := by
  obtain ⟨r, h, _⟩ := sum_split f pc t
  omega

end

end Conc
