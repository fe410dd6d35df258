import Mathlib.Data.BitVec
import Mathlib.Tactic.IntervalCases

/-!
# IPv4 addresses and netmasks

`struct in_addr` holds its address in network byte order; on the little-endian hosts the program is
built for, `ntohl` and `htonl` reverse the four bytes.

* `validateMask`     `validate_mask` of `utils.h`;
* `prefixMask p`     the mask of `p` ones followed by zeros, in host order;
* `and_prefixMask`, `or_not_prefixMask`   the first and the last address of a subnet, as numbers.
-/

set_option linter.unusedSectionVars false

namespace QuicVpn

/-- the field `s_addr` of `struct in_addr`, in network byte order -/
abbrev InAddr := BitVec 32

def ntohl (x : BitVec 32) : BitVec 32 :=
  x.extractLsb' 0 8 ++ x.extractLsb' 8 8 ++ x.extractLsb' 16 8 ++ x.extractLsb' 24 8

def htonl (x : BitVec 32) : BitVec 32 := ntohl x

/-- `validate_mask`: the inverted mask is a block of ones on the right -/
def validateMask (mask : InAddr) : Bool :=
  let ntohMask := ntohl mask
  if ntohMask = 0 then true
  else
    let inverted := ~~~ntohMask
    decide ((inverted + 1) &&& inverted = 0)

/-- the text of `inet_ntop(AF_INET, ..)` -/
def inetNtop (ip : InAddr) : String :=
  toString (ip.extractLsb' 0 8).toNat ++ "." ++ toString (ip.extractLsb' 8 8).toNat ++ "."
    ++ toString (ip.extractLsb' 16 8).toNat ++ "." ++ toString (ip.extractLsb' 24 8).toNat

/-! ## byte order -/

theorem ntohl_bit (x : BitVec 32) (i : ℕ) (hi : i < 32) :
    (ntohl x).getLsbD i = x.getLsbD (8 * (3 - i / 8) + i % 8) := by
  unfold ntohl
  simp only [BitVec.getLsbD_append, BitVec.getLsbD_extractLsb']
  interval_cases i <;> simp

theorem ntohl_ntohl (x : BitVec 32) : ntohl (ntohl x) = x := by
  apply BitVec.eq_of_getLsbD_eq
  intro i hi
  rw [ntohl_bit _ i hi, ntohl_bit _ _ (by omega)]
  congr 1
  omega

theorem ntohl_and (x y : BitVec 32) : ntohl (x &&& y) = ntohl x &&& ntohl y := by
  apply BitVec.eq_of_getLsbD_eq
  intro i hi
  rw [BitVec.getLsbD_and, ntohl_bit _ i hi, ntohl_bit _ i hi, ntohl_bit _ i hi, BitVec.getLsbD_and]

theorem ntohl_or (x y : BitVec 32) : ntohl (x ||| y) = ntohl x ||| ntohl y := by
  apply BitVec.eq_of_getLsbD_eq
  intro i hi
  rw [BitVec.getLsbD_or, ntohl_bit _ i hi, ntohl_bit _ i hi, ntohl_bit _ i hi, BitVec.getLsbD_or]

theorem ntohl_not (x : BitVec 32) : ntohl (~~~x) = ~~~(ntohl x) := by
  apply BitVec.eq_of_getLsbD_eq
  intro i hi
  have hj : 8 * (3 - i / 8) + i % 8 < 32 := by omega
  rw [BitVec.getLsbD_not, ntohl_bit _ i hi, ntohl_bit _ i hi, BitVec.getLsbD_not]
  simp only [hi, hj]

theorem htonl_ntohl (x : BitVec 32) : htonl (ntohl x) = x := ntohl_ntohl x

theorem ntohl_htonl (x : BitVec 32) : ntohl (htonl x) = x := ntohl_ntohl x

/-- an address is determined by its host-order value -/
theorem htonl_eq_iff (x y : BitVec 32) : htonl x = y ↔ x = ntohl y := by
  constructor
  · intro h
    rw [← h, ntohl_htonl]
  · intro h
    rw [h, htonl_ntohl]

/-! ## contiguous masks -/

/-- `p` ones followed by `32 - p` zeros -/
def prefixMask (p : ℕ) : BitVec 32 := BitVec.allOnes 32 <<< (32 - p)

theorem prefixMask_bit (p i : ℕ) (hi : i < 32) :
    (prefixMask p).getLsbD i = decide (32 - p ≤ i) := by
  unfold prefixMask
  rw [BitVec.getLsbD_shiftLeft, BitVec.getLsbD_allOnes]
  by_cases h : i < 32 - p
  · have h1 : ¬ 32 - p ≤ i := by omega
    simp [h, h1]
  · have h1 : 32 - p ≤ i := by omega
    have h2 : i - (32 - p) < 32 := by omega
    simp [h, h1, h2, hi]

/-- the first address of the subnet of `x` -/
theorem and_prefixMask (x : BitVec 32) (p : ℕ) :
    (x &&& prefixMask p).toNat = x.toNat / 2 ^ (32 - p) * 2 ^ (32 - p) := by
  have e : x &&& prefixMask p = (x >>> (32 - p)) <<< (32 - p) := by
    apply BitVec.eq_of_getLsbD_eq
    intro i hi
    rw [BitVec.getLsbD_and, prefixMask_bit p i hi, BitVec.getLsbD_shiftLeft,
      BitVec.getLsbD_ushiftRight]
    by_cases h : i < 32 - p
    · have h1 : ¬ 32 - p ≤ i := by omega
      simp [h, h1]
    · have h1 : 32 - p ≤ i := by omega
      have h2 : 32 - p + (i - (32 - p)) = i := by omega
      simp [h, h1, h2, hi]
  rw [e, BitVec.toNat_shiftLeft, BitVec.toNat_ushiftRight, Nat.shiftLeft_eq,
    Nat.shiftRight_eq_div_pow]
  have hle := Nat.div_mul_le_self x.toNat (2 ^ (32 - p))
  exact Nat.mod_eq_of_lt (lt_of_le_of_lt hle x.isLt)

/-- the bits outside the mask count the addresses of the subnet -/
theorem not_prefixMask (p : ℕ) : (~~~prefixMask p).toNat = 2 ^ (32 - p) - 1 := by
  have h : (prefixMask p).toNat = 2 ^ 32 - 2 ^ (32 - p) := by
    have h1 := and_prefixMask (BitVec.allOnes 32) p
    rw [BitVec.allOnes_and, BitVec.toNat_allOnes] at h1
    have hd : (2 ^ 32 - 1) / 2 ^ (32 - p) = 2 ^ (32 - (32 - p)) - 1 := by
      have hk : 32 - p ≤ 32 := by omega
      generalize 32 - p = k at *
      interval_cases k <;> rfl
    rw [h1, hd, Nat.sub_mul, ← pow_add, one_mul]
    congr 2
    omega
  have hle : 2 ^ (32 - p) ≤ 2 ^ 32 := Nat.pow_le_pow_right (by norm_num) (by omega)
  rw [BitVec.toNat_not, h]
  omega

/-- the last address of the subnet of `x` -/
theorem or_not_prefixMask (x : BitVec 32) (p : ℕ) :
    (x ||| ~~~prefixMask p).toNat
      = x.toNat / 2 ^ (32 - p) * 2 ^ (32 - p) + (2 ^ (32 - p) - 1) := by
  have e : x ||| ~~~prefixMask p = (x &&& prefixMask p) ||| ~~~prefixMask p := by
    apply BitVec.eq_of_getLsbD_eq
    intro i hi
    simp only [BitVec.getLsbD_or, BitVec.getLsbD_and, BitVec.getLsbD_not]
    cases (prefixMask p).getLsbD i <;> simp [hi]
  have hlt : 2 ^ (32 - p) - 1 < 2 ^ (32 - p) := Nat.sub_lt (Nat.two_pow_pos _) Nat.one_pos
  rw [e, BitVec.toNat_or, and_prefixMask, not_prefixMask, ← Nat.shiftLeft_eq,
    ← Nat.shiftLeft_add_eq_or_of_lt hlt]

/-- for a prefix of at least one bit, `~mask + 1` is the number of addresses of the subnet -/
theorem not_prefixMask_add_one (p : ℕ) (hp : 1 ≤ p) :
    (~~~prefixMask p + 1).toNat = 2 ^ (32 - p) := by
  have hpos : 0 < 2 ^ (32 - p) := Nat.two_pow_pos _
  have hle : 2 ^ (32 - p) ≤ 2 ^ 31 := Nat.pow_le_pow_right (by norm_num) (by omega)
  rw [BitVec.toNat_add, not_prefixMask]
  have h1 : (1 : BitVec 32).toNat = 1 := rfl
  rw [h1]
  omega

/-- the contiguous masks pass `validate_mask` -/
theorem validateMask_contiguous (mask : InAddr) (p : ℕ) (hp : 1 ≤ p)
    (hm : ntohl mask = prefixMask p) : validateMask mask = true := by
  have key : (~~~prefixMask p + 1) &&& ~~~prefixMask p = 0 := by
    apply BitVec.eq_of_toNat_eq
    rw [BitVec.toNat_and, not_prefixMask_add_one p hp, not_prefixMask, Nat.and_two_pow_sub_one_eq_mod,
      Nat.mod_self]
    rfl
  unfold validateMask
  simp only [hm]
  split
  · rfl
  · exact decide_eq_true key

/-- and only these do; the mask `0.0.0.0` is the one of prefix `0` -/
theorem contiguous_of_validateMask {mask : InAddr} (h : validateMask mask = true) :
    ∃ p ≤ 32, ntohl mask = prefixMask p := by
  unfold validateMask at h
  simp only at h
  split at h
  · rename_i h0
    exact ⟨0, by omega, h0.trans (by decide)⟩
  · rename_i h0
    have hand := congrArg BitVec.toNat (of_decide_eq_true h)
    generalize ntohl mask = x at *
    -- without overflow the inverted mask plus one is a power of two
    have hne : (~~~x).toNat ≠ 2 ^ 32 - 1 := by
      intro e
      rw [BitVec.toNat_not] at e
      exact h0 (BitVec.eq_of_toNat_eq (show x.toNat = 0 by have := x.isLt; omega))
    have hlt : (~~~x).toNat + 1 < 2 ^ 32 := by
      have := (~~~x).isLt
      omega
    have hadd : (~~~x + 1).toNat = (~~~x).toNat + 1 := by
      rw [BitVec.toNat_add]
      exact Nat.mod_eq_of_lt hlt
    have hpow : ((~~~x).toNat + 1).isPowerOfTwo := by
      rw [← Nat.and_sub_one_eq_zero_iff_isPowerOfTwo (Nat.add_one_ne_zero _), Nat.add_sub_cancel,
        ← hadd, ← BitVec.toNat_and]
      exact hand
    obtain ⟨k, hk⟩ := hpow
    have hk32 : k < 32 := by
      rw [hk] at hlt
      exact (Nat.pow_lt_pow_iff_right (by decide)).mp hlt
    refine ⟨32 - k, by omega, ?_⟩
    have hnot : ~~~x = ~~~prefixMask (32 - k) := by
      apply BitVec.eq_of_toNat_eq
      rw [not_prefixMask, show 32 - (32 - k) = k by omega]
      omega
    rw [← BitVec.not_not (b := x), hnot, BitVec.not_not]

end QuicVpn
