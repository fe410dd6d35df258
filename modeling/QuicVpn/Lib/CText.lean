import Mathlib.Algebra.Group.Nat.Defs
import Mathlib.Data.Nat.Notation
import Mathlib.Tactic.SplitIfs

/-!
# Texts in buffers, and decimal numbers

A buffer is a list of characters; the text in it ends at the first NUL.

* `text buf`         the text in a buffer, if there is a NUL;
* `snprintf buf t`   the text `t` put into a buffer, cut where it does not fit;
* `readDec`          a decimal number from its digits.
-/

namespace Conc.CText

def nul : Char := Char.ofNat 0

def text : List Char → Option (List Char)
  | [] => none
  | c :: l => if c = nul then some [] else (text l).map fun t => c :: t

/-- what `snprintf` leaves in a buffer; into one of length `0` nothing is written -/
def snprintf (buf t : List Char) : List Char :=
  if buf.length = 0 then buf
  else t.take (buf.length - 1) ++ nul :: buf.drop (min t.length (buf.length - 1) + 1)

theorem text_append {t : List Char} (ht : nul ∉ t) (rest : List Char) :
    text (t ++ nul :: rest) = some t := by
  induction t with
  | nil =>
    rw [List.nil_append, text, if_pos rfl]
  | cons c t ih =>
    rw [List.mem_cons, not_or] at ht
    rw [List.cons_append, text, if_neg (fun e => ht.1 e.symm), ih ht.2]
    rfl

/-- a text is cut at the length of the buffer -/
theorem text_snprintf {buf t : List Char} (ht : nul ∉ t) (hb : 0 < buf.length) :
    text (snprintf buf t) = some (t.take (buf.length - 1)) := by
  rw [snprintf, if_neg (by omega)]
  exact text_append (fun hn => ht (List.mem_of_mem_take hn)) _

theorem text_snprintf_of_lt {buf t : List Char} (ht : nul ∉ t) (h : t.length < buf.length) :
    text (snprintf buf t) = some t := by
  rw [text_snprintf ht (by omega), List.take_of_length_le (by omega)]

/-! ## decimal numbers -/

/-- the value of a non-empty list of digits -/
def readDec (l : List Char) : Option ℕ :=
  if l ≠ [] ∧ l.all Char.isDigit = true then some (Nat.ofDigitChars 10 l 0) else none

theorem readDec_toDigits (n : ℕ) : readDec (Nat.toDigits 10 n) = some n := by
  have hdigits : (Nat.toDigits 10 n).all Char.isDigit = true := by
    rw [List.all_eq_true]
    intro c hc
    exact Nat.isDigit_of_mem_toDigits (by decide) (by decide) hc
  rw [readDec, if_pos ⟨Nat.toDigits_ne_nil, hdigits⟩, Nat.ofDigitChars_ten_toDigits]

theorem not_mem_toDigits {c : Char} (hc : c.isDigit = false) (n : ℕ) : c ∉ Nat.toDigits 10 n := by
  intro hmem
  have hd := Nat.isDigit_of_mem_toDigits (by decide) (by decide) hmem
  rw [hc] at hd
  cases hd

/-- the number of digits -/
def decLen (n : ℕ) : ℕ := if n < 10 then 1 else if n < 100 then 2 else 3

theorem length_toDigits {n : ℕ} (h : n < 1000) : (Nat.toDigits 10 n).length = decLen n := by
  have hle : ∀ k, 0 < k → ((Nat.toDigits 10 n).length ≤ k ↔ n < 10 ^ k) := fun k hk =>
    Nat.length_toDigits_le_iff (by decide) hk
  have hpos : 0 < (Nat.toDigits 10 n).length := Nat.length_toDigits_pos
  have h1 := hle 1 (by decide)
  have h2 := hle 2 (by decide)
  have h3 := hle 3 (by decide)
  unfold decLen
  split_ifs <;> omega

end Conc.CText
