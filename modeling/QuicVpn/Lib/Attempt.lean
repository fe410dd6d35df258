import Mathlib.Data.Int.Notation
import Mathlib.Tactic.ByContra

/-!
# Calls one after the other, with one exit for failures

`if (f(x) != 0) goto cleanup;` line by line: each call returns a code, `0` for success.  The codes
of some calls are tested, and the first of these that is not `0` ends the sequence.

* `attempt run tested l s`   makes the calls `l`; its `trace` has each call made with its code;
* `attempt_ok_iff`           no failure was seen when every tested code is `0`;
* `attempt_inv`              what every call keeps holds at the end, wherever the end was;
* `attempt_append`, `attempt_append_fail`   two sequences one behind the other.
-/

namespace Conc

/-- the calls made with their codes, whether the sequence came to its end, and the state there -/
structure Tried (γ σ : Type*) where
  trace : List (γ × ℤ)
  ok : Bool
  state : σ

section
variable {γ σ : Type*} (run : γ → σ → ℤ × σ) (tested : γ → Bool)

def attempt : List γ → σ → Tried γ σ
  | [], s => ⟨[], true, s⟩
  | c :: l, s =>
    if tested c = true ∧ (run c s).1 ≠ 0 then ⟨[(c, (run c s).1)], false, (run c s).2⟩
    else
      let t := attempt l (run c s).2
      ⟨(c, (run c s).1) :: t.trace, t.ok, t.state⟩

variable {run tested}

theorem attempt_cons_fail {c : γ} {l : List γ} {s : σ} (h : tested c = true ∧ (run c s).1 ≠ 0) :
    attempt run tested (c :: l) s = ⟨[(c, (run c s).1)], false, (run c s).2⟩ := by
  rw [attempt, if_pos h]

theorem attempt_cons_go {c : γ} {l : List γ} {s : σ} (h : ¬ (tested c = true ∧ (run c s).1 ≠ 0)) :
    attempt run tested (c :: l) s = ⟨(c, (run c s).1) :: (attempt run tested l (run c s).2).trace,
      (attempt run tested l (run c s).2).ok, (attempt run tested l (run c s).2).state⟩ := by
  rw [attempt, if_neg h]

/-- the sequence came to its end when no tested call failed -/
theorem attempt_ok_iff (l : List γ) (s : σ) : (attempt run tested l s).ok = true ↔
    ∀ p ∈ (attempt run tested l s).trace, tested p.1 = true → p.2 = 0 := by
  induction l generalizing s with
  | nil => simp [attempt]
  | cons c l ih =>
    by_cases h : tested c = true ∧ (run c s).1 ≠ 0
    · rw [attempt_cons_fail h]
      constructor
      · intro hf
        exact absurd hf Bool.false_ne_true
      · intro hall
        exact absurd (hall _ List.mem_cons_self h.1) h.2
    · rw [attempt_cons_go h, List.forall_mem_cons, ih]
      refine (and_iff_right ?_).symm
      intro ht
      by_contra hne
      exact h ⟨ht, hne⟩

/-- then every call was made -/
theorem attempt_calls {l : List γ} {s : σ} (h : (attempt run tested l s).ok = true) :
    (attempt run tested l s).trace.map Prod.fst = l := by
  induction l generalizing s with
  | nil => rfl
  | cons c l ih =>
    by_cases hc : tested c = true ∧ (run c s).1 ≠ 0
    · rw [attempt_cons_fail hc] at h
      exact absurd h Bool.false_ne_true
    · rw [attempt_cons_go hc] at h ⊢
      rw [List.map_cons, ih h]

theorem attempt_mem {l : List γ} {s : σ} {p : γ × ℤ}
    (hp : p ∈ (attempt run tested l s).trace) : p.1 ∈ l := by
  induction l generalizing s with
  | nil => exact absurd hp List.not_mem_nil
  | cons c l ih =>
    by_cases hf : tested c = true ∧ (run c s).1 ≠ 0
    · rw [attempt_cons_fail hf, List.mem_singleton] at hp
      subst hp
      exact List.mem_cons_self
    · rw [attempt_cons_go hf] at hp
      rcases List.mem_cons.mp hp with rfl | hp
      · exact List.mem_cons_self
      · exact List.mem_cons_of_mem c (ih hp)

/-- what every call keeps holds where the sequence ended -/
theorem attempt_inv {I : σ → Prop} {l : List γ} (hI : ∀ c ∈ l, ∀ s, I s → I (run c s).2) {s : σ}
    (h : I s) : I (attempt run tested l s).state := by
  induction l generalizing s with
  | nil => exact h
  | cons c l ih =>
    have hc : I (run c s).2 := hI c List.mem_cons_self s h
    by_cases hf : tested c = true ∧ (run c s).1 ≠ 0
    · rw [attempt_cons_fail hf]
      exact hc
    · rw [attempt_cons_go hf]
      exact ih (fun d hd => hI d (List.mem_cons_of_mem c hd)) hc

/-- every code in the trace was returned in a state with the invariant -/
theorem attempt_trace {I : σ → Prop} {l : List γ} (hI : ∀ c ∈ l, ∀ s, I s → I (run c s).2) {s : σ}
    (h : I s) {p : γ × ℤ} (hp : p ∈ (attempt run tested l s).trace) :
    ∃ t, I t ∧ p.2 = (run p.1 t).1 := by
  induction l generalizing s with
  | nil => exact absurd hp List.not_mem_nil
  | cons c l ih =>
    by_cases hf : tested c = true ∧ (run c s).1 ≠ 0
    · rw [attempt_cons_fail hf, List.mem_singleton] at hp
      subst hp
      exact ⟨s, h, rfl⟩
    · rw [attempt_cons_go hf] at hp
      rcases List.mem_cons.mp hp with rfl | hp
      · exact ⟨s, h, rfl⟩
      · exact ih (fun d hd => hI d (List.mem_cons_of_mem c hd)) (hI c List.mem_cons_self s h) hp

/-- the sequence comes to its end when the invariant makes every tested call succeed -/
theorem attempt_ok {I : σ → Prop} {l : List γ} (hI : ∀ c ∈ l, ∀ s, I s → I (run c s).2)
    (h0 : ∀ c ∈ l, tested c = true → ∀ s, I s → (run c s).1 = 0) {s : σ} (h : I s) :
    (attempt run tested l s).ok = true := by
  rw [attempt_ok_iff]
  intro p hp ht
  obtain ⟨t, hIt, e⟩ := attempt_trace hI h hp
  have hmem : p.1 ∈ l := attempt_mem hp
  rw [e]
  exact h0 p.1 hmem ht t hIt

/-- and the calls have been made one after the other -/
theorem attempt_state {l : List γ} {s : σ} (h : (attempt run tested l s).ok = true) :
    (attempt run tested l s).state = l.foldl (fun s c => (run c s).2) s := by
  induction l generalizing s with
  | nil => rfl
  | cons c l ih =>
    by_cases hc : tested c = true ∧ (run c s).1 ≠ 0
    · rw [attempt_cons_fail hc] at h
      exact absurd h Bool.false_ne_true
    · rw [attempt_cons_go hc] at h ⊢
      exact ih h

theorem attempt_append {l l' : List γ} {s : σ} (h : (attempt run tested l s).ok = true) :
    attempt run tested (l ++ l') s =
      ⟨(attempt run tested l s).trace ++
          (attempt run tested l' (attempt run tested l s).state).trace,
        (attempt run tested l' (attempt run tested l s).state).ok,
        (attempt run tested l' (attempt run tested l s).state).state⟩ := by
  induction l generalizing s with
  | nil => rfl
  | cons c l ih =>
    by_cases hf : tested c = true ∧ (run c s).1 ≠ 0
    · rw [attempt_cons_fail hf] at h
      exact absurd h Bool.false_ne_true
    · rw [attempt_cons_go hf] at h
      rw [List.cons_append, attempt_cons_go hf, attempt_cons_go hf, ih h]
      rfl

/-- after a failure no more calls are made -/
theorem attempt_append_fail {l : List γ} {s : σ} (h : (attempt run tested l s).ok = false)
    (l' : List γ) : attempt run tested (l ++ l') s = attempt run tested l s := by
  induction l generalizing s with
  | nil => exact absurd h Bool.true_eq_false.mp
  | cons c l ih =>
    by_cases hf : tested c = true ∧ (run c s).1 ≠ 0
    · rw [List.cons_append, attempt_cons_fail hf, attempt_cons_fail hf]
    · rw [attempt_cons_go hf] at h
      rw [List.cons_append, attempt_cons_go hf, attempt_cons_go hf, ih h]

/-- where the code of a call does not depend on the state, the sequence comes to its end when every
tested call succeeds -/
theorem attempt_ok_iff_forall {A : γ → Prop} (hA : ∀ c s, (run c s).1 = 0 ↔ A c) (l : List γ) (s : σ) :
    (attempt run tested l s).ok = true ↔ ∀ c ∈ l, tested c = true → A c := by
  induction l generalizing s with
  | nil => simp [attempt]
  | cons c l ih =>
    by_cases hf : tested c = true ∧ (run c s).1 ≠ 0
    · rw [attempt_cons_fail hf, List.forall_mem_cons]
      refine iff_of_false Bool.false_ne_true fun hall => ?_
      exact hf.2 ((hA c s).mpr (hall.1 hf.1))
    · rw [attempt_cons_go hf, List.forall_mem_cons, ih]
      refine (and_iff_right fun ht => ?_).symm
      by_contra hn
      exact hf ⟨ht, fun hz => hn ((hA c s).mp hz)⟩

end

end Conc
