import Mathlib.Data.List.Induction
import QuicVpn.Lib.Exec

/-!
# Invariants that speak about the labels of a run, or rest on its environment

`exec_inv` is about states.  What a system has counted is a fact about a state and the labels that led
to it.

* `exec_history`       the induction rule for such a fact: the labels grow at their end, as the run does;
* `tally step f s l`   what the steps of the run `l` add up to, each counted by `f` in the state it is
                       taken from;
* `exec_tally`         a quantity that every step changes by what comes in less what goes out;
* `exec_bounded`       an invariant that holds while a quantity of slow growth is below its bound;
* `exec_of_rank`       a way to the end, when every state has a step that comes closer to it;
* `always_iff_along_given`   a condition that is exact as long as the environment keeps its part `D`.
-/

namespace Conc

section
variable {σ ι : Type*} (step : σ → ι → Option σ)

/-- what the steps of a run add up to -/
def tally (f : σ → ι → ℕ) : σ → List ι → ℕ
  | _, [] => 0
  | s, a :: l => f s a + (step s a).elim 0 (tally f · l)

variable {step}

theorem exec_concat {s u : σ} {a : ι} {l : List ι} :
    exec step s (l ++ [a]) = some u ↔ ∃ t, exec step s l = some t ∧ step t a = some u := by
  rw [exec_append]
  constructor
  · rintro ⟨t, ht, h⟩
    obtain ⟨v, hv, e⟩ := exec_cons.mp h
    cases e
    exact ⟨t, ht, hv⟩
  · rintro ⟨t, ht, h⟩
    exact ⟨t, ht, exec_cons.mpr ⟨u, h, rfl⟩⟩

/-- an invariant of the labels so far and the state they led to -/
theorem exec_history {I : List ι → σ → Prop} {s : σ} (h0 : I [] s)
    (hI : ∀ l t a t', I l t → step t a = some t' → I (l ++ [a]) t')
    {l : List ι} {u : σ} (h : exec step s l = some u) : I l u := by
  induction l using List.reverseRecOn generalizing u with
  | nil =>
    cases h
    exact h0
  | append_singleton l a ih =>
    obtain ⟨t, ht, hu⟩ := exec_concat.mp h
    exact hI l t a u (ih ht) hu

/-- a law of conservation for every step is one for every run -/
theorem exec_tally {μ : σ → ℕ} {out into : σ → ι → ℕ}
    (hμ : ∀ s a s', step s a = some s' → μ s' + out s a = μ s + into s a)
    {s u : σ} {l : List ι} (h : exec step s l = some u) :
    μ u + tally step out s l = μ s + tally step into s l := by
  induction l generalizing s with
  | nil =>
    cases h
    rfl
  | cons a l ih =>
    obtain ⟨t, ht, hl⟩ := exec_cons.mp h
    have h1 := hμ s a t ht
    have h2 := ih hl
    simp only [tally, ht, Option.elim_some]
    omega

/-- an invariant that needs `μ` to be below `N`, on a run that is too short to bring it there -/
theorem exec_bounded {I : σ → Prop} {μ : σ → ℕ} {N : ℕ}
    (hI : ∀ s a s', I s → μ s < N → step s a = some s' → I s' ∧ μ s' ≤ μ s + 1)
    {s u : σ} {l : List ι} (hs : I s) (hl : μ s + l.length ≤ N) (h : exec step s l = some u) :
    I u := by
  induction l generalizing s with
  | nil =>
    cases h
    exact hs
  | cons a l ih =>
    obtain ⟨t, ht, hu⟩ := exec_cons.mp h
    rw [List.length_cons] at hl
    obtain ⟨hIt, hμ⟩ := hI s a t hs (by omega) ht
    exact ih hIt (by omega) hu

/-- from every state with `I` some step keeps `I` and comes closer to `Q` -/
theorem exec_of_rank {I Q : σ → Prop} (μ : σ → ℕ)
    (hI : ∀ s, I s → ¬ Q s → ∃ a s', step s a = some s' ∧ I s' ∧ μ s' < μ s) {s : σ} (hs : I s) :
    ∃ l u, exec step s l = some u ∧ Q u := by
  induction hn : μ s using Nat.strongRecOn generalizing s with
  | ind n ih =>
    by_cases hQ : Q s
    · exact ⟨[], s, rfl, hQ⟩
    · obtain ⟨a, t, ht, hIt, hlt⟩ := hI s hs hQ
      obtain ⟨l, u, hl, hu⟩ := ih (μ t) (hn ▸ hlt) hIt rfl
      exact ⟨a :: l, u, exec_cons.mpr ⟨t, ht, hl⟩, hu⟩

/-- where the environment answers as it should, the steps with `C` keep `I`, and a step without `C`
breaks `P` -/
theorem always_iff_along_given {I P : σ → Prop} {C D : σ → ι → Prop} (hP : ∀ s, I s → P s)
    (hI : ∀ s a s', I s → D s a → C s a → step s a = some s' → I s')
    (hbad : ∀ s a s', I s → D s a → ¬ C s a → step s a = some s' → ¬ P s')
    {s u : σ} {l : List ι} (hs : I s) (h : exec step s l = some u) (hD : Along step D s l) :
    Always step P s l ↔ Along step C s l := by
  induction l generalizing s with
  | nil => exact ⟨fun _ => trivial, fun _ => hP s hs⟩
  | cons a l ih =>
    obtain ⟨t, ht, hl⟩ := exec_cons.mp h
    have hone : ∀ {Q : σ → Prop}, (∀ s', step s a = some s' → Q s') ↔ Q t := by
      intro Q
      exact ⟨fun hq => hq t ht, fun hq s' hs' => Option.some.inj (ht.symm.trans hs') ▸ hq⟩
    have hDt : Along step D t l := hD.2 t ht
    show P s ∧ _ ↔ C s a ∧ _
    rw [hone, hone]
    by_cases hC : C s a
    · rw [ih (hI s a t hs hD.1 hC ht) hl hDt, and_iff_right (hP s hs), and_iff_right hC]
    · refine iff_of_false (fun hc => ?_) fun hc => hC hc.1
      have hPt : P t := by
        cases l with
        | nil => exact hc.2
        | cons b l => exact hc.2.1
      exact hbad s a t hs hD.1 hC ht hPt

end

end Conc
