import Mathlib.Tactic.ByContra

/-!
# Runs of a guarded step function

A system is a function `step : σ → ι → Option σ`: the label chooses which party moves and how
its environment answers, and `none` means that this label is not enabled in this state.

* `exec step s l`       the state after the labels `l`, if every one of them was enabled;
* `Always step P s l`   `P` holds in every state the run `l` goes through, the first and the last
                        included;
* `Along step C s l`    every step of the run `l` meets `C` in the state it is taken from.

`exec_inv` is the induction rule.  `always_iff_along` is the rule for a condition that is exact: the
steps with `C` keep `P`, and a step without `C` breaks `P` at once.  `exec_iff_along` is the same for
what shows only at the end of a run: a step without `C` leads to states from which there is no way
back.  `along_iff_along` is the same for a property of steps.  `always_of_along` is the half of these
that needs no exactness, and `exec_inv_along` what it says of the last state.
-/

namespace Conc

section
variable {σ ι : Type*} (step : σ → ι → Option σ)

def exec : σ → List ι → Option σ
  | s, [] => some s
  | s, a :: l => (step s a).bind fun s' => exec s' l

def Always (P : σ → Prop) : σ → List ι → Prop
  | s, [] => P s
  | s, a :: l => P s ∧ ∀ s', step s a = some s' → Always P s' l

def Along (C : σ → ι → Prop) : σ → List ι → Prop
  | _, [] => True
  | s, a :: l => C s a ∧ ∀ s', step s a = some s' → Along C s' l

/-- whether all steps of a given run meet `C` can be computed -/
instance Along.decidable (C : σ → ι → Prop) [∀ s a, Decidable (C s a)] :
    ∀ s l, Decidable (Along step C s l)
  | _, [] => .isTrue trivial
  | s, a :: l =>
    match h : step s a with
    | none => decidable_of_iff (C s a)
        ⟨fun hC => ⟨hC, fun _ e => absurd (h.symm.trans e) (Option.some_ne_none _).symm⟩, And.left⟩
    | some t =>
      have := Along.decidable C t l
      decidable_of_iff (C s a ∧ Along step C t l)
        ⟨fun hC => ⟨hC.1, fun _ e => Option.some.inj (h.symm.trans e) ▸ hC.2⟩,
          fun hC => ⟨hC.1, hC.2 t h⟩⟩

variable {step}

theorem exec_cons {s u : σ} {a : ι} {l : List ι} :
    exec step s (a :: l) = some u ↔ ∃ t, step s a = some t ∧ exec step t l = some u := by
  show (step s a).bind (fun s' => exec step s' l) = some u ↔ _
  rw [Option.bind_eq_some_iff]

theorem exec_append {s u : σ} {l l' : List ι} :
    exec step s (l ++ l') = some u ↔
      ∃ t, exec step s l = some t ∧ exec step t l' = some u := by
  induction l generalizing s with
  | nil =>
    constructor
    · intro h
      exact ⟨s, rfl, h⟩
    · rintro ⟨t, ht, h⟩
      cases ht
      exact h
  | cons a l ih =>
    rw [List.cons_append, exec_cons]
    constructor
    · rintro ⟨t, ht, h⟩
      obtain ⟨v, hv, h'⟩ := ih.mp h
      exact ⟨v, exec_cons.mpr ⟨t, ht, hv⟩, h'⟩
    · rintro ⟨v, hv, h'⟩
      obtain ⟨t, ht, hl⟩ := exec_cons.mp hv
      exact ⟨t, ht, ih.mpr ⟨v, hl, h'⟩⟩

/-- an invariant of every step is an invariant of every run -/
theorem exec_inv {I : σ → Prop} (hI : ∀ s a s', I s → step s a = some s' → I s')
    {s u : σ} {l : List ι} (hs : I s) (h : exec step s l = some u) : I u := by
  induction l generalizing s with
  | nil =>
    cases h
    exact hs
  | cons a l ih =>
    obtain ⟨t, ht, hl⟩ := exec_cons.mp h
    exact ih (hI s a t hs ht) hl

/-- **A condition that is exact.**  The steps with `C` keep the invariant `I`, which gives `P`,
and a step without `C` leads to a state without `P`: then a run has `P` in all its states if and
only if all its steps meet `C`. -/
theorem always_iff_along {I P : σ → Prop} {C : σ → ι → Prop} (hP : ∀ s, I s → P s)
    (hI : ∀ s a s', I s → C s a → step s a = some s' → I s')
    (hbad : ∀ s a s', I s → ¬ C s a → step s a = some s' → ¬ P s')
    {s u : σ} {l : List ι} (hs : I s) (h : exec step s l = some u) :
    Always step P s l ↔ Along step C s l := by
  induction l generalizing s with
  | nil => exact ⟨fun _ => trivial, fun _ => hP s hs⟩
  | cons a l ih =>
    obtain ⟨t, ht, hl⟩ := exec_cons.mp h
    constructor
    · rintro ⟨_, hrest⟩
      have hPt : P t := by
        have := hrest t ht
        cases l with
        | nil => exact this
        | cons b l => exact this.1
      have hC : C s a := by
        by_contra hn
        exact hbad s a t hs hn ht hPt
      refine ⟨hC, fun s' hs' => ?_⟩
      obtain rfl : t = s' := Option.some.inj (ht.symm.trans hs')
      exact (ih (hI s a t hs hC ht) hl).mp (hrest t ht)
    · rintro ⟨hC, hrest⟩
      refine ⟨hP s hs, fun s' hs' => ?_⟩
      obtain rfl : t = s' := Option.some.inj (ht.symm.trans hs')
      exact (ih (hI s a t hs hC ht) hl).mpr (hrest t ht)

/-- **A condition that is exact for a property of steps.**  The steps with `C` keep `I`, and where `I`
holds a step has `D` if and only if it meets `C`. -/
theorem along_iff_along {I : σ → Prop} {C D : σ → ι → Prop}
    (hI : ∀ s a s', I s → C s a → step s a = some s' → I s')
    (hD : ∀ s a s', I s → step s a = some s' → (D s a ↔ C s a))
    {s u : σ} {l : List ι} (hs : I s) (h : exec step s l = some u) :
    Along step D s l ↔ Along step C s l := by
  induction l generalizing s with
  | nil => exact Iff.rfl
  | cons a l ih =>
    obtain ⟨t, ht, hl⟩ := exec_cons.mp h
    constructor
    · rintro ⟨hd, hrest⟩
      have hC : C s a := (hD s a t hs ht).mp hd
      refine ⟨hC, fun s' hs' => ?_⟩
      obtain rfl : t = s' := Option.some.inj (ht.symm.trans hs')
      exact (ih (hI s a t hs hC ht) hl).mp (hrest t ht)
    · rintro ⟨hC, hrest⟩
      refine ⟨(hD s a t hs ht).mpr hC, fun s' hs' => ?_⟩
      obtain rfl : t = s' := Option.some.inj (ht.symm.trans hs')
      exact (ih (hI s a t hs hC ht) hl).mpr (hrest t ht)

/-- what the steps with `C` keep holds at the end of a run of such steps -/
theorem exec_inv_along {I : σ → Prop} {C : σ → ι → Prop}
    (hI : ∀ s a s', I s → C s a → step s a = some s' → I s')
    {s u : σ} {l : List ι} (hs : I s) (h : exec step s l = some u) (hC : Along step C s l) : I u := by
  induction l generalizing s with
  | nil =>
    cases h
    exact hs
  | cons a l ih =>
    obtain ⟨t, ht, hl⟩ := exec_cons.mp h
    exact ih (hI s a t hs hC.1 ht) hl (hC.2 t ht)

/-- the steps with `C` keep the invariant `I`, which gives `P` -/
theorem always_of_along {I P : σ → Prop} {C : σ → ι → Prop} (hP : ∀ s, I s → P s)
    (hI : ∀ s a s', I s → C s a → step s a = some s' → I s')
    {s : σ} {l : List ι} (hs : I s) (h : Along step C s l) : Always step P s l := by
  induction l generalizing s with
  | nil => exact hP s hs
  | cons a l ih => exact ⟨hP s hs, fun s' hs' => ih (hI s a s' hs h.1 hs') (h.2 s' hs')⟩

/-- **A condition that is exact for the end of a run.**  The steps with `C` keep `I`; a step without
`C` leads into `D`, which no step leaves.  Where `I` gives `Q` and `D` excludes it, the run ends with
`Q` if and only if all its steps meet `C`. -/
theorem exec_iff_along {I D Q : σ → Prop} {C : σ → ι → Prop}
    (hI : ∀ s a s', I s → C s a → step s a = some s' → I s')
    (hbad : ∀ s a s', I s → ¬ C s a → step s a = some s' → D s')
    (hD : ∀ s a s', D s → step s a = some s' → D s')
    {s u : σ} {l : List ι} (hs : I s) (h : exec step s l = some u) (hQ : I u → Q u)
    (hnQ : D u → ¬ Q u) : Q u ↔ Along step C s l := by
  induction l generalizing s with
  | nil =>
    cases h
    exact ⟨fun _ => trivial, fun _ => hQ hs⟩
  | cons a l ih =>
    obtain ⟨t, ht, hl⟩ := exec_cons.mp h
    have hone : (∀ s', step s a = some s' → Along step C s' l) ↔ Along step C t l := by
      constructor
      · intro hrest
        exact hrest t ht
      · intro hrest s' hs'
        exact Option.some.inj (ht.symm.trans hs') ▸ hrest
    show Q u ↔ C s a ∧ _
    rw [hone]
    by_cases hC : C s a
    · rw [ih (hI s a t hs hC ht) hl]
      exact (and_iff_right hC).symm
    · have hu : D u := exec_inv hD (hbad s a t hs hC ht) hl
      exact ⟨fun hq => absurd hq (hnQ hu), fun hc => absurd hc.1 hC⟩

end

end Conc
