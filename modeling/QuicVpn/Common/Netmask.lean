import QuicVpn.Common.TunAddr
import QuicVpn.Common.Netlink

/-!
# Netmasks and prefix lengths

`validate_mask` and `mask_to_prefix` go from a mask to its prefix length, `get_netlink_addr_info` goes
back.  What a mask is for is said bit by bit, from the left, in the order of the host.

* `OnesThenZeros x p`      `p` ones followed by zeros;
* `SameNet p a b`          the addresses have the same first `p` bits;
* `sameNet_iff`            their numbers have the same quotient by the size of the subnet;
* `netmask_inverse`        the functions are inverse to each other, and the mask gives the least and
                           the greatest address of a subnet.
-/

set_option linter.unusedSectionVars false

namespace QuicVpn

def OnesThenZeros (x : BitVec 32) (p : ℕ) : Prop := ∀ i < 32, x.getMsbD i = decide (i < p)

def SameNet (p : ℕ) (a b : InAddr) : Prop := ∀ i < p, (ntohl a).getMsbD i = (ntohl b).getMsbD i

/-! ## masks -/

theorem prefixMask_msb (p i : ℕ) (hi : i < 32) : (prefixMask p).getMsbD i = decide (i < p) := by
  rw [BitVec.getMsbD_eq_getLsbD, decide_eq_true hi, Bool.true_and, prefixMask_bit p _ (by omega),
    decide_eq_decide]
  omega

theorem onesThenZeros_iff {x : BitVec 32} {p : ℕ} : OnesThenZeros x p ↔ x = prefixMask p := by
  constructor
  · intro h
    apply BitVec.eq_of_getMsbD_eq
    intro i hi
    rw [h i hi, prefixMask_msb p i hi]
  · rintro rfl i hi
    exact prefixMask_msb p i hi

theorem netmask_accepted (m : InAddr) :
    validateMask m = true ↔ ∃ p ≤ 32, OnesThenZeros (ntohl m) p := by
  rw [validateMask_iff]
  simp only [onesThenZeros_iff]
  rfl

/-- the mask that `get_netlink_addr_info` builds -/
theorem addrScan_mask (s : AddrScan) (a : AddrAttrs) {p : ℕ} (hp : p ≤ 32) :
    (s.take a p).mask = htonl (prefixMask p) := by
  unfold AddrScan.take
  dsimp only
  by_cases h0 : 0 < p
  · rw [if_pos ⟨h0, hp⟩]
  · obtain rfl : p = 0 := by omega
    rw [if_neg (fun hc => h0 hc.1), if_pos rfl]
    decide

theorem maskToPrefix_of_contiguous {m : InAddr} {p : ℕ} (hp : p ≤ 32) (hm : ntohl m = prefixMask p) :
    (maskToPrefix m).toInt = p := by
  have hnat := maskToPrefix_toNat hp hm
  rw [BitVec.toInt_eq_toNat_of_lt (by omega), hnat]

theorem maskToPrefix_of_not {m : InAddr} (h : validateMask m = false) :
    (maskToPrefix m).toInt = einval := by
  unfold maskToPrefix
  rw [h]
  rfl

/-! ## subnets -/

/-- the bits behind the prefix count the addresses of a subnet -/
theorem sameNet_iff {p : ℕ} (hp : p ≤ 32) (a b : InAddr) :
    SameNet p a b ↔ (ntohl a).toNat / 2 ^ (32 - p) = (ntohl b).toNat / 2 ^ (32 - p) := by
  have hshift : (ntohl a).toNat / 2 ^ (32 - p) = (ntohl b).toNat / 2 ^ (32 - p) ↔
      ntohl a >>> (32 - p) = ntohl b >>> (32 - p) := by
    rw [← BitVec.toNat_inj, BitVec.toNat_ushiftRight, BitVec.toNat_ushiftRight,
      Nat.shiftRight_eq_div_pow, Nat.shiftRight_eq_div_pow]
  rw [hshift]
  constructor
  · intro h
    apply BitVec.eq_of_getLsbD_eq
    intro i hi
    rw [BitVec.getLsbD_ushiftRight, BitVec.getLsbD_ushiftRight]
    by_cases hi' : i < p
    · have hbit := h (p - 1 - i) (by omega)
      rw [BitVec.getMsbD_eq_getLsbD, BitVec.getMsbD_eq_getLsbD,
        show 32 - 1 - (p - 1 - i) = 32 - p + i by omega, decide_eq_true (by omega), Bool.true_and,
        Bool.true_and] at hbit
      exact hbit
    · rw [BitVec.getLsbD_of_ge _ _ (by omega), BitVec.getLsbD_of_ge _ _ (by omega)]
  · intro h i hi
    have hbit := congrArg (fun x => x.getLsbD (p - 1 - i)) h
    simp only [BitVec.getLsbD_ushiftRight] at hbit
    rw [show 32 - p + (p - 1 - i) = 32 - 1 - i by omega] at hbit
    rw [BitVec.getMsbD_eq_getLsbD, BitVec.getMsbD_eq_getLsbD, hbit]

/-- the first address of the subnet -/
theorem net_least {m : InAddr} {p : ℕ} (hp : p ≤ 32) (hm : ntohl m = prefixMask p) (a : InAddr) :
    SameNet p a (a &&& m) ∧ ∀ b, SameNet p a b → (ntohl (a &&& m)).toNat ≤ (ntohl b).toNat := by
  have hpos : 0 < 2 ^ (32 - p) := Nat.two_pow_pos _
  have hval : (ntohl (a &&& m)).toNat = (ntohl a).toNat / 2 ^ (32 - p) * 2 ^ (32 - p) := by
    rw [ntohl_and, hm, and_prefixMask]
  refine ⟨?_, fun b hb => ?_⟩
  · rw [sameNet_iff hp, hval, Nat.mul_div_cancel _ hpos]
  · rw [sameNet_iff hp] at hb
    rw [hval, hb]
    exact Nat.div_mul_le_self _ _

/-- and the last one -/
theorem broadcast_greatest {m : InAddr} {p : ℕ} (hp : p ≤ 32) (hm : ntohl m = prefixMask p)
    (a : InAddr) :
    SameNet p a (a ||| ~~~m) ∧ ∀ b, SameNet p a b → (ntohl b).toNat ≤ (ntohl (a ||| ~~~m)).toNat := by
  have hpos : 0 < 2 ^ (32 - p) := Nat.two_pow_pos _
  have hval : (ntohl (a ||| ~~~m)).toNat =
      (ntohl a).toNat / 2 ^ (32 - p) * 2 ^ (32 - p) + (2 ^ (32 - p) - 1) := by
    rw [ntohl_or, ntohl_not, hm, or_not_prefixMask]
  refine ⟨?_, fun b hb => ?_⟩
  · rw [sameNet_iff hp, hval, Nat.mul_comm, Nat.mul_add_div hpos,
      Nat.div_eq_of_lt (Nat.sub_lt hpos Nat.one_pos), Nat.add_zero]
  · rw [sameNet_iff hp] at hb
    have hlt := Nat.lt_mul_div_succ (ntohl b).toNat hpos
    rw [Nat.mul_add, Nat.mul_one, Nat.mul_comm] at hlt
    rw [hval, hb]
    omega

/-- **Netmasks and prefix lengths.**  `validate_mask` accepts the masks of `p` ones followed by zeros;
`mask_to_prefix` finds this `p`, and `get_netlink_addr_info` makes the mask from it again; on every
other mask `mask_to_prefix` fails.  With such a mask `a & m` is the least address with the first `p` bits
of `a`, and `a | ~m` the greatest. -/
theorem netmask_inverse (m : InAddr) :
    (validateMask m = true ↔ ∃ p ≤ 32, OnesThenZeros (ntohl m) p) ∧
    (∀ p ≤ 32, OnesThenZeros (ntohl m) p →
      (maskToPrefix m).toInt = p ∧
      (∀ (s : AddrScan) (a : AddrAttrs), (s.take a p).mask = m) ∧
      ∀ a : InAddr,
        (SameNet p a (a &&& m) ∧ ∀ b, SameNet p a b → (ntohl (a &&& m)).toNat ≤ (ntohl b).toNat) ∧
        (SameNet p a (a ||| ~~~m) ∧
          ∀ b, SameNet p a b → (ntohl b).toNat ≤ (ntohl (a ||| ~~~m)).toNat)) ∧
    (validateMask m = false → (maskToPrefix m).toInt < 0) := by
  refine ⟨netmask_accepted m, fun p hp hones => ?_, fun h => ?_⟩
  · have hm := onesThenZeros_iff.mp hones
    refine ⟨maskToPrefix_of_contiguous hp hm, fun s a => ?_, fun a =>
      ⟨net_least hp hm a, broadcast_greatest hp hm a⟩⟩
    rw [addrScan_mask s a hp, htonl_eq_iff]
    exact hm.symm
  · rw [maskToPrefix_of_not h]
    decide

end QuicVpn
