import Mathlib.Data.BitVec
import Mathlib.Tactic.SplitIfs

/-!
# Arithmetic of the machine

* `alignUp align x`     `x` rounded up to a multiple of `align`, in words of `w` bits; the sum may wrap;
* `addS`, `subS`        signed addition and subtraction of 64 bits, `none` where they overflow.
-/

namespace Conc

/-! ## rounding up -/

section
variable {w : ℕ}

def alignUp (align : ℕ) (x : BitVec w) : BitVec w :=
  (x + BitVec.ofNat w (align - 1)) &&& ~~~BitVec.ofNat w (align - 1)

/-- the low bits are cleared -/
theorem toNat_and_not_low (k : ℕ) (x : BitVec w) :
    (x &&& ~~~BitVec.ofNat w (2 ^ k - 1)).toNat = x.toNat / 2 ^ k * 2 ^ k := by
  have e : x &&& ~~~BitVec.ofNat w (2 ^ k - 1) = (x >>> k) <<< k := by
    apply BitVec.eq_of_getLsbD_eq
    intro i hi
    rw [BitVec.getLsbD_and, BitVec.getLsbD_not, BitVec.getLsbD_ofNat, Nat.testBit_two_pow_sub_one,
      BitVec.getLsbD_shiftLeft, BitVec.getLsbD_ushiftRight]
    by_cases h : i < k
    · simp [h]
    · have hsum : k + (i - k) = i := by omega
      simp [h, hi, hsum]
  rw [e, BitVec.toNat_shiftLeft, BitVec.toNat_ushiftRight, Nat.shiftLeft_eq, Nat.shiftRight_eq_div_pow]
  exact Nat.mod_eq_of_lt (lt_of_le_of_lt (Nat.div_mul_le_self _ _) x.isLt)

theorem toNat_alignUp {k : ℕ} (hk : k < w) (x : BitVec w) :
    (alignUp (2 ^ k) x).toNat = (x.toNat + (2 ^ k - 1)) % 2 ^ w / 2 ^ k * 2 ^ k := by
  have hlt : 2 ^ k - 1 < 2 ^ w :=
    lt_of_le_of_lt (Nat.sub_le _ _) (Nat.pow_lt_pow_right (by decide) hk)
  rw [alignUp, toNat_and_not_low, BitVec.toNat_add, BitVec.toNat_ofNat, Nat.mod_eq_of_lt hlt]

end

/-! ## signed addition -/

def int64Max : ℤ := 9223372036854775807

def int64Min : ℤ := -9223372036854775808

def addS (x y : ℤ) : Option ℤ := if int64Min ≤ x + y ∧ x + y ≤ int64Max then some (x + y) else none

def subS (x y : ℤ) : Option ℤ := if int64Min ≤ x - y ∧ x - y ≤ int64Max then some (x - y) else none

theorem addS_some {x y : ℤ} (h : int64Min ≤ x + y) (h' : x + y ≤ int64Max) : addS x y = some (x + y) :=
  if_pos ⟨h, h'⟩

theorem addS_none {x y : ℤ} (h : int64Max < x + y) : addS x y = none :=
  if_neg fun hc => absurd hc.2 (not_le.mpr h)

theorem subS_some {x y : ℤ} (h : int64Min ≤ x - y) (h' : x - y ≤ int64Max) : subS x y = some (x - y) :=
  if_pos ⟨h, h'⟩

end Conc
