import Mathlib.Data.Multiset.AddSub
import Mathlib.Data.List.Count

/-!
# Custody of recycled objects

An object is handed out, used, and put back, again and again.  A trace lists these events, the
latest first.

* `holds a tr`        whether `a` is out after the trace;
* `Custody tr`        no object was handed out while it was out, and none was put back or touched
                      while it was not;
* `Held tr M`         `Custody`, and the objects that are out are those of `M`;
* `Owned tr M`        the same, and `M` has nothing twice;
* `Custody.put_once`, `Custody.no_touch`   what it means between two events of the trace.
-/

namespace Conc

inductive Ev (α : Type*) where
  | handout (a : α)
  | put (a : α)
  | touch (a : α)
  deriving DecidableEq

section
variable {α : Type*} [DecidableEq α]

def holds (a : α) : List (Ev α) → Bool
  | [] => false
  | .handout c :: l => if c = a then true else holds a l
  | .put c :: l => if c = a then false else holds a l
  | .touch _ :: l => holds a l

def Custody : List (Ev α) → Prop
  | [] => True
  | .handout a :: l => holds a l = false ∧ Custody l
  | .put a :: l => holds a l = true ∧ Custody l
  | .touch a :: l => holds a l = true ∧ Custody l

theorem Custody.tail {e : Ev α} {l : List (Ev α)} (h : Custody (e :: l)) : Custody l := by
  cases e with
  | handout a => exact h.2
  | put a => exact h.2
  | touch a => exact h.2

theorem Custody.suffix {l l' : List (Ev α)} (h : Custody (l' ++ l)) : Custody l := by
  induction l' with
  | nil => exact h
  | cons e l' ih => exact ih h.tail

/-- until the next handout, an object that was put back stays where it is -/
theorem Custody.after_put {a : α} {pre mid : List (Ev α)} (h : Custody (mid ++ .put a :: pre))
    (hmid : .handout a ∉ mid) :
    holds a (mid ++ .put a :: pre) = false ∧ .put a ∉ mid ∧ .touch a ∉ mid := by
  induction mid with
  | nil =>
    refine ⟨?_, List.not_mem_nil, List.not_mem_nil⟩
    show (if a = a then false else _) = false
    rw [if_pos rfl]
  | cons e mid ih =>
    obtain ⟨hout, hput, htouch⟩ := ih h.tail fun hm => hmid (List.mem_cons_of_mem _ hm)
    cases e with
    | handout c =>
      have hc : c ≠ a := fun e => hmid (e ▸ List.mem_cons_self)
      refine ⟨?_, ?_, ?_⟩
      · show (if c = a then true else holds a (mid ++ .put a :: pre)) = false
        rw [if_neg hc]
        exact hout
      · simp [hput]
      · simp [htouch]
    | put c =>
      have hc : c ≠ a := by
        intro e
        have h1 : holds c (mid ++ .put a :: pre) = true := h.1
        rw [e, hout] at h1
        cases h1
      refine ⟨?_, ?_, ?_⟩
      · show (if c = a then false else holds a (mid ++ .put a :: pre)) = false
        rw [if_neg hc]
        exact hout
      · simp [hput, Ne.symm hc]
      · simp [htouch]
    | touch c =>
      have hc : c ≠ a := by
        intro e
        have h1 : holds c (mid ++ .put a :: pre) = true := h.1
        rw [e, hout] at h1
        cases h1
      refine ⟨hout, ?_, ?_⟩
      · simp [hput]
      · simp [htouch, Ne.symm hc]

/-! ## the trace in the order of time -/

/-- after a put and before the next handout, there is no second put and no touch -/
theorem Custody.idle {tr : List (Ev α)} (h : Custody tr) {a : α} {pre mid post : List (Ev α)}
    (htr : tr.reverse = pre ++ .put a :: (mid ++ post)) (hmid : .handout a ∉ mid) :
    .put a ∉ mid ∧ .touch a ∉ mid := by
  have e : tr = post.reverse ++ (mid.reverse ++ .put a :: pre.reverse) := by
    rw [← List.reverse_reverse tr, htr]
    simp
  rw [e] at h
  have hm : .handout a ∉ mid.reverse := by
    rw [List.mem_reverse]
    exact hmid
  obtain ⟨_, h1, h2⟩ := h.suffix.after_put hm
  rw [List.mem_reverse] at h1 h2
  exact ⟨h1, h2⟩

theorem Custody.no_touch {tr : List (Ev α)} (h : Custody tr) {a : α} {pre mid post : List (Ev α)}
    (htr : tr.reverse = pre ++ .put a :: (mid ++ post)) (hmid : .handout a ∉ mid) :
    .touch a ∉ mid := (h.idle htr hmid).2

/-- from one handout up to the next there is at most one put -/
theorem Custody.put_once {tr : List (Ev α)} (h : Custody tr) {a : α} {pre mid post : List (Ev α)}
    (htr : tr.reverse = pre ++ .handout a :: (mid ++ post)) (hmid : .handout a ∉ mid) :
    mid.count (.put a) ≤ 1 := by
  -- the part of `mid` from its first put on has no other
  by_contra hc
  have hmem : .put a ∈ mid := List.count_pos_iff.mp (by omega)
  obtain ⟨x, y, rfl⟩ := List.append_of_mem hmem
  by_cases hx : .put a ∈ x
  · obtain ⟨u, v, rfl⟩ := List.append_of_mem hx
    have e : tr.reverse = (pre ++ .handout a :: u) ++ .put a :: ((v ++ .put a :: y) ++ post) := by
      rw [htr]
      simp
    refine (h.idle e fun hm => hmid ?_).1 (List.mem_append_right _ List.mem_cons_self)
    simp only [List.mem_append, List.mem_cons] at hm ⊢
    tauto
  · have e : tr.reverse = (pre ++ .handout a :: x) ++ .put a :: (y ++ post) := by
      rw [htr]
      simp
    have hy := (h.idle e fun hm => hmid
      (List.mem_append_right _ (List.mem_cons_of_mem _ hm))).1
    rw [List.count_append, List.count_cons_self, List.count_eq_zero_of_not_mem hx,
      List.count_eq_zero_of_not_mem hy] at hc
    omega

/-! ## the objects that are out -/

structure Held (tr : List (Ev α)) (M : Multiset α) : Prop where
  custody : Custody tr
  out : ∀ a, holds a tr = true ↔ a ∈ M

variable {tr : List (Ev α)} {M : Multiset α} {a : α}

theorem Held.nil : Held ([] : List (Ev α)) 0 := by
  refine ⟨trivial, fun a => ?_⟩
  simp [holds]

theorem Held.handout (h : Held tr M) (ha : a ∉ M) : Held (.handout a :: tr) (a ::ₘ M) := by
  refine ⟨⟨?_, h.custody⟩, fun c => ?_⟩
  · rw [← h.out a] at ha
    exact Bool.eq_false_iff.mpr ha
  · show (if a = c then true else holds c tr) = true ↔ c ∈ a ::ₘ M
    rw [Multiset.mem_cons]
    by_cases hc : a = c
    · simp [hc]
    · rw [if_neg hc, h.out c]
      simp [Ne.symm hc]

theorem Held.put (h : Held tr (a ::ₘ M)) (ha : a ∉ M) : Held (.put a :: tr) M := by
  refine ⟨⟨(h.out a).mpr (Multiset.mem_cons_self a M), h.custody⟩, fun c => ?_⟩
  show (if a = c then false else holds c tr) = true ↔ c ∈ M
  by_cases hc : a = c
  · rw [if_pos hc, ← hc]
    simp [ha]
  · rw [if_neg hc, h.out c, Multiset.mem_cons]
    simp [Ne.symm hc]

theorem Held.touch (h : Held tr M) (ha : a ∈ M) : Held (.touch a :: tr) M :=
  ⟨⟨(h.out a).mpr ha, h.custody⟩, h.out⟩

/-- the objects that are out are those of `M`, each once -/
structure Owned (tr : List (Ev α)) (M : Multiset α) : Prop where
  held : Held tr M
  nodup : M.Nodup

theorem Owned.nil : Owned ([] : List (Ev α)) 0 := ⟨Held.nil, Multiset.nodup_zero⟩

theorem Owned.fresh (h : Owned tr M) (ha : holds a tr = false) : a ∉ M := by
  rw [← h.held.out a, ha]
  exact Bool.false_ne_true

theorem Owned.handout (h : Owned tr M) (ha : holds a tr = false) :
    Owned (.handout a :: tr) (a ::ₘ M) :=
  ⟨h.held.handout (h.fresh ha), Multiset.nodup_cons.mpr ⟨h.fresh ha, h.nodup⟩⟩

theorem Owned.put (h : Owned tr (a ::ₘ M)) : Owned (.put a :: tr) M :=
  ⟨h.held.put (Multiset.nodup_cons.mp h.nodup).1, (Multiset.nodup_cons.mp h.nodup).2⟩

theorem Owned.touch (h : Owned tr M) (ha : a ∈ M) : Owned (.touch a :: tr) M :=
  ⟨h.held.touch ha, h.nodup⟩

end

end Conc
