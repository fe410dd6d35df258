import Mathlib.Logic.Function.Basic
import Mathlib.Data.List.Basic

/-!
# Intrusive singly linked lists

The nodes carry their own `next` pointers, so a list in memory is a head pointer together with
the map `next`.  `Chain next h l`: the pointer `h` leads through exactly the nodes `l`, and then
to the null pointer.

* `Chain.push`      linking a node in front;
* `Chain.pop`       unlinking the first node;
* `Chain.of_ne`     writing the `next` field of a node outside the list;
* `Chain.unique`    a pointer leads through one list only.
-/

namespace Conc

section
variable {α : Type*}

def Chain (next : α → Option α) : Option α → List α → Prop
  | h, [] => h = none
  | h, b :: l => h = some b ∧ Chain next (next b) l

variable {next : α → Option α}

theorem Chain.nil_of_none {l : List α} (h : Chain next none l) : l = [] := by
  cases l with
  | nil => rfl
  | cons b l => exact absurd h.1 (by simp)

theorem Chain.pop {b : α} {l : List α} (h : Chain next (some b) l) :
    ∃ l', l = b :: l' ∧ Chain next (next b) l' := by
  cases l with
  | nil => exact absurd h (by simp [Chain])
  | cons c l =>
    obtain ⟨e, hl⟩ := h
    cases e
    exact ⟨l, rfl, hl⟩

/-- a pointer leads through one list only -/
theorem Chain.unique {h : Option α} {l l' : List α} (hl : Chain next h l) (hl' : Chain next h l') :
    l = l' := by
  induction l generalizing h l' with
  | nil =>
    obtain rfl : h = none := hl
    exact hl'.nil_of_none.symm
  | cons b l ih =>
    obtain ⟨rfl, hr⟩ := hl
    obtain ⟨m, rfl, hm⟩ := hl'.pop
    rw [ih hr hm]

variable [DecidableEq α]

theorem Chain.of_ne {h : Option α} {l : List α} {b : α} (x : Option α) (hl : Chain next h l)
    (hb : b ∉ l) : Chain (Function.update next b x) h l := by
  induction l generalizing h with
  | nil => exact hl
  | cons c l ih =>
    obtain ⟨e, hr⟩ := hl
    have hc : c ≠ b := fun h => hb (h ▸ List.mem_cons_self)
    refine ⟨e, ?_⟩
    rw [Function.update_of_ne hc]
    exact ih hr (fun h => hb (List.mem_cons_of_mem _ h))

theorem Chain.push {h : Option α} {l : List α} {b : α} (hl : Chain next h l) (hb : b ∉ l) :
    Chain (Function.update next b h) (some b) (b :: l) := by
  refine ⟨rfl, ?_⟩
  rw [Function.update_self]
  exact hl.of_ne h hb

end

end Conc
