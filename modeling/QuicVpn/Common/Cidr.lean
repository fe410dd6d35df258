import QuicVpn.Lib.CText
import QuicVpn.Common.Netmask

/-!
# Addresses in CIDR notation

`in_addr_to_cidr` prints an address and the length of its mask into a buffer of the caller.

* `inAddrToCidrInto`, `tunGetIpCidr`, `tunGetNetCidr`   the functions, with the buffer they leave;
* `parseCidr`          the address and the prefix length that a text stands for;
* `CidrExact`          a text that is reported is the one of the address and the mask, and what does not
                       fit is refused;
* `cidr_exact_iff`     so it is unless the text is longer than the buffer: the result of `snprintf` is
                       not looked at, and the text is cut.
-/

set_option linter.unusedSectionVars false

namespace QuicVpn
open Conc

/-! ## the functions -/

/-- `in_addr_to_cidr`; `none` is `NULL`, and the length of a buffer is `cidr_len` -/
def inAddrToCidrInto (addr mask : Option InAddr) (outCidr : Option (List Char)) :
    ℤ × Option (List Char) :=
  match addr, mask, outCidr with
  | some addr, some mask, some buf =>
    if !validateMask mask then (einval, some buf)
    else
      let ntohMask := ntohl mask
      let len := ntohMask.cpop.setWidth 8
      (0, some (CText.snprintf buf (inetNtop addr ++ "/" ++ toString len.toNat).toList))
  | _, _, _ => (einval, outCidr)

/-- `tun_get_ip_cidr` -/
def tunGetIpCidr (tun : Option TunDev) (buf : Option (List Char)) : ℤ × Option (List Char) :=
  match tun with
  | none => (einval, buf)
  | some tun =>
    if (maskToPrefix tun.mask).toInt < 0 then ((maskToPrefix tun.mask).toInt, buf)
    else inAddrToCidrInto (some tun.ip) (some tun.mask) buf

/-- `tun_get_net_cidr` -/
def tunGetNetCidr (tun : Option TunDev) (buf : Option (List Char)) : ℤ × Option (List Char) :=
  match tun with
  | none => (einval, buf)
  | some tun => inAddrToCidrInto (some (tun.ip &&& tun.mask)) (some tun.mask) buf

/-! ## texts -/

/-- four numbers below `256`, in the order of the network -/
def addrOfOctets : List ℕ → Option InAddr
  | [o0, o1, o2, o3] =>
    if o0 < 256 ∧ o1 < 256 ∧ o2 < 256 ∧ o3 < 256 then
      some (BitVec.ofNat 8 o3 ++ BitVec.ofNat 8 o2 ++ BitVec.ofNat 8 o1 ++ BitVec.ofNat 8 o0)
    else none
  | _ => none

/-- dotted decimal -/
def parseAddr (t : List Char) : Option InAddr :=
  ((t.splitOn '.').mapM CText.readDec).bind addrOfOctets

/-- an address, a slash, and a number up to `32` -/
def parseCidr (t : List Char) : Option (InAddr × ℕ) :=
  match t.splitOn '/' with
  | [a, l] =>
    match parseAddr a, CText.readDec l with
    | some addr, some p => if p ≤ 32 then some (addr, p) else none
    | _, _ => none
  | _ => none

/-- the octets of an address, in the order of its text -/
def octets (a : InAddr) : List ℕ :=
  [(a.extractLsb' 0 8).toNat, (a.extractLsb' 8 8).toNat, (a.extractLsb' 16 8).toNat,
    (a.extractLsb' 24 8).toNat]

/-- the text of an address and a prefix length -/
def cidrText (a : InAddr) (p : ℕ) : List Char :=
  ['/'].intercalate [['.'].intercalate ((octets a).map (Nat.toDigits 10)), Nat.toDigits 10 p]

/-- its length: the digits, three dots and a slash -/
def cidrLen (a : InAddr) (p : ℕ) : ℕ := ((octets a).map CText.decLen).sum + CText.decLen p + 4

theorem octets_lt (a : InAddr) {o : ℕ} (h : o ∈ octets a) : o < 256 := by
  simp only [octets, List.mem_cons, List.not_mem_nil, or_false] at h
  rcases h with rfl | rfl | rfl | rfl <;> exact BitVec.isLt _

theorem addrOfOctets_octets (a : InAddr) : addrOfOctets (octets a) = some a := by
  have hlt : ∀ i, (a.extractLsb' i 8).toNat < 256 := fun i => BitVec.isLt _
  rw [octets, addrOfOctets, if_pos ⟨hlt 0, hlt 8, hlt 16, hlt 24⟩]
  simp only [BitVec.ofNat_toNat, BitVec.setWidth_eq, Option.some.injEq]
  apply BitVec.eq_of_getLsbD_eq
  intro i hi
  simp only [BitVec.getLsbD_append, BitVec.getLsbD_extractLsb']
  interval_cases i <;> simp

theorem parseAddr_octets (a : InAddr) :
    parseAddr (['.'].intercalate ((octets a).map (Nat.toDigits 10))) = some a := by
  rw [parseAddr, List.splitOn_intercalate]
  · have hread : ((octets a).map (Nat.toDigits 10)).mapM CText.readDec = some (octets a) := by
      simp [octets, CText.readDec_toDigits]
    rw [hread, Option.bind_some, addrOfOctets_octets]
  · intro l hl
    obtain ⟨o, -, rfl⟩ := List.mem_map.mp hl
    exact CText.not_mem_toDigits rfl o
  · exact List.cons_ne_nil _ _

theorem slash_not_mem_addr (a : InAddr) :
    '/' ∉ ['.'].intercalate ((octets a).map (Nat.toDigits 10)) := by
  have hd := CText.not_mem_toDigits (show ('/').isDigit = false from rfl)
  simp [octets, List.intercalate, hd]

theorem nul_not_mem_cidrText (a : InAddr) (p : ℕ) : CText.nul ∉ cidrText a p := by
  have hd := CText.not_mem_toDigits (show CText.nul.isDigit = false from rfl)
  have h1 : CText.nul ≠ '/' := by decide
  have h2 : CText.nul ≠ '.' := by decide
  simp [cidrText, octets, List.intercalate, hd, h1, h2]

theorem length_cidrText {a : InAddr} {p : ℕ} (hp : p ≤ 32) : (cidrText a p).length = cidrLen a p := by
  have hlen : ∀ o ∈ octets a, (Nat.toDigits 10 o).length = CText.decLen o := fun o ho =>
    CText.length_toDigits (lt_trans (octets_lt a ho) (by decide))
  have hp' : (Nat.toDigits 10 p).length = CText.decLen p := CText.length_toDigits (by omega)
  obtain ⟨o0, o1, o2, o3, ho⟩ : ∃ o0 o1 o2 o3, octets a = [o0, o1, o2, o3] := ⟨_, _, _, _, rfl⟩
  rw [ho] at hlen
  simp only [List.forall_mem_cons] at hlen
  obtain ⟨h0, h1, h2, h3, -⟩ := hlen
  rw [cidrText, cidrLen, ho]
  simp only [List.intercalate, List.map_cons, List.map_nil, List.intersperse_cons_cons,
    List.intersperse_singleton, List.flatten_cons, List.flatten_nil, List.length_append,
    List.length_cons, List.length_nil, List.sum_cons, List.sum_nil, h0, h1, h2, h3, hp']
  omega

theorem cidrLen_le (a : InAddr) {p : ℕ} (hp : p ≤ 32) : cidrLen a p ≤ 18 := by
  have h3 : ∀ n, CText.decLen n ≤ 3 := by
    intro n
    unfold CText.decLen
    split_ifs <;> decide
  have h2 : CText.decLen p ≤ 2 := by
    unfold CText.decLen
    split_ifs <;> omega
  have h0 := h3 (a.extractLsb' 0 8).toNat
  have h8 := h3 (a.extractLsb' 8 8).toNat
  have h16 := h3 (a.extractLsb' 16 8).toNat
  have h24 := h3 (a.extractLsb' 24 8).toNat
  simp only [cidrLen, octets, List.map_cons, List.map_nil, List.sum_cons, List.sum_nil]
  omega

/-- a text is read back as what it was made from -/
theorem parseCidr_cidrText (a : InAddr) {p : ℕ} (hp : p ≤ 32) :
    parseCidr (cidrText a p) = some (a, p) := by
  have hsplit : (cidrText a p).splitOn '/' =
      [['.'].intercalate ((octets a).map (Nat.toDigits 10)), Nat.toDigits 10 p] := by
    refine List.splitOn_intercalate '/' (fun l hl => ?_) (List.cons_ne_nil _ _)
    simp only [List.mem_cons, List.not_mem_nil, or_false] at hl
    rcases hl with rfl | rfl
    · exact slash_not_mem_addr a
    · exact CText.not_mem_toDigits rfl p
  unfold parseCidr
  rw [hsplit]
  dsimp only
  rw [parseAddr_octets, CText.readDec_toDigits]
  dsimp only
  rw [if_pos hp]

/-- what the program prints -/
theorem printed_eq (a : InAddr) (p : ℕ) :
    (inetNtop a ++ "/" ++ toString p).toList = cidrText a p := by
  simp [inetNtop, cidrText, octets, List.intercalate, Nat.toString_eq_repr, Nat.toList_repr]

/-! ## when the text is exact -/

/-- what a call with the address `a`, the mask `m` and a buffer of length `len` promises -/
structure CidrExact (a m : InAddr) (len : ℕ) (r : ℤ × Option (List Char)) : Prop where
  exact : r.1 = 0 → ∃ p ≤ 32, OnesThenZeros (ntohl m) p ∧
    ∃ t, r.2.bind CText.text = some t ∧ parseCidr t = some (a, p)
  tooLong : ∀ p ≤ 32, OnesThenZeros (ntohl m) p → len ≤ (cidrText a p).length → r.1 < 0
  notContiguous : (¬ ∃ p ≤ 32, OnesThenZeros (ntohl m) p) → r.1 < 0

/-- the mask is refused, or there is room for the text and the NUL -/
def CidrFits (a m : InAddr) (len : ℕ) : Prop :=
  ∀ p ≤ 32, OnesThenZeros (ntohl m) p → cidrLen a p < len

theorem onesThenZeros_unique {x : BitVec 32} {p p' : ℕ} (hp : p ≤ 32) (hp' : p' ≤ 32)
    (h : OnesThenZeros x p) (h' : OnesThenZeros x p') : p = p' := by
  have e := cpop_prefixMask hp
  rw [← onesThenZeros_iff.mp h, onesThenZeros_iff.mp h', cpop_prefixMask hp'] at e
  exact e.symm

theorem inAddrToCidrInto_of_not {a m : InAddr} (h : ¬ ∃ p ≤ 32, OnesThenZeros (ntohl m) p)
    (buf : List Char) : inAddrToCidrInto (some a) (some m) (some buf) = (einval, some buf) := by
  have hv : validateMask m = false := by
    rw [Bool.eq_false_iff]
    intro hv
    exact h ((netmask_accepted m).mp hv)
  unfold inAddrToCidrInto
  dsimp only
  rw [hv]
  rfl

theorem inAddrToCidrInto_of_ones {a m : InAddr} {p : ℕ} (hp : p ≤ 32) (h : OnesThenZeros (ntohl m) p)
    (buf : List Char) : inAddrToCidrInto (some a) (some m) (some buf) =
      (0, some (CText.snprintf buf (cidrText a p))) := by
  have hv : validateMask m = true := (netmask_accepted m).mpr ⟨p, hp, h⟩
  have hcpop := cpop_prefixMask hp
  rw [← onesThenZeros_iff.mp h] at hcpop
  unfold inAddrToCidrInto
  dsimp only
  rw [hv, hcpop, printed_eq]
  rfl

theorem inAddrToCidrInto_exact_iff (a m : InAddr) (buf : List Char) :
    CidrExact a m buf.length (inAddrToCidrInto (some a) (some m) (some buf)) ↔
      CidrFits a m buf.length := by
  by_cases hm : ∃ p ≤ 32, OnesThenZeros (ntohl m) p
  swap
  · -- the mask is refused
    have hneg : einval < 0 := by decide
    rw [inAddrToCidrInto_of_not hm]
    refine iff_of_true ⟨fun h => absurd h hneg.ne, fun _ _ _ _ => hneg, fun _ => hneg⟩ ?_
    intro p hp h
    exact absurd ⟨p, hp, h⟩ hm
  obtain ⟨p, hp, h⟩ := hm
  rw [inAddrToCidrInto_of_ones hp h]
  constructor
  · intro hex p' hp' h'
    rw [← length_cidrText hp']
    by_contra hlong
    exact absurd (hex.tooLong p' hp' h' (by omega)) (Int.lt_irrefl 0)
  · intro hfits
    have hlt : (cidrText a p).length < buf.length := by
      rw [length_cidrText hp]
      exact hfits p hp h
    refine ⟨fun _ => ⟨p, hp, h, cidrText a p, ?_, parseCidr_cidrText a hp⟩, ?_, ?_⟩
    · exact CText.text_snprintf_of_lt (nul_not_mem_cidrText a p) hlt
    · intro p' hp' h' hlong
      obtain rfl := onesThenZeros_unique hp hp' h h'
      exact absurd hlong (not_le.mpr hlt)
    · exact fun hno => absurd ⟨p, hp, h⟩ hno

/-- the prefix length that `tun_get_ip_cidr` computes makes no difference -/
theorem tunGetIpCidr_eq (tun : TunDev) (buf : List Char) :
    tunGetIpCidr (some tun) (some buf) = inAddrToCidrInto (some tun.ip) (some tun.mask) (some buf) := by
  unfold tunGetIpCidr
  dsimp only
  by_cases hm : ∃ p ≤ 32, OnesThenZeros (ntohl tun.mask) p
  · obtain ⟨p, hp, h⟩ := hm
    rw [maskToPrefix_of_contiguous hp (onesThenZeros_iff.mp h), if_neg (by omega)]
  · have hv : validateMask tun.mask = false := by
      rw [Bool.eq_false_iff]
      intro hv
      exact hm ((netmask_accepted tun.mask).mp hv)
    rw [maskToPrefix_of_not hv, if_pos (by decide), inAddrToCidrInto_of_not hm]

/-- **CIDR text.**  The three functions report an exact text or an error if and only if the mask is not
contiguous or the text and its NUL fit into the buffer. -/
theorem cidr_exact_iff (a m : InAddr) (tun : TunDev) (buf : List Char) :
    (CidrExact a m buf.length (inAddrToCidrInto (some a) (some m) (some buf)) ↔
      CidrFits a m buf.length) ∧
    (CidrExact tun.ip tun.mask buf.length (tunGetIpCidr (some tun) (some buf)) ↔
      CidrFits tun.ip tun.mask buf.length) ∧
    (CidrExact (tun.ip &&& tun.mask) tun.mask buf.length (tunGetNetCidr (some tun) (some buf)) ↔
      CidrFits (tun.ip &&& tun.mask) tun.mask buf.length) := by
  refine ⟨inAddrToCidrInto_exact_iff a m buf, ?_, inAddrToCidrInto_exact_iff _ _ buf⟩
  rw [tunGetIpCidr_eq]
  exact inAddrToCidrInto_exact_iff _ _ buf

/-- `10.8.0.0/16` in eleven bytes: the call succeeds, and the text is that of another route -/
theorem cut_to_another_route :
    ¬ CidrExact 0x080a 0xffff 11
        (inAddrToCidrInto (some 0x080a) (some 0xffff) (some (List.replicate 11 'x'))) ∧
      ∃ buf t, inAddrToCidrInto (some 0x080a) (some 0xffff) (some (List.replicate 11 'x')) =
          (0, some buf) ∧
        CText.text buf = some t ∧ parseCidr t = some (0x080a, 1) := by
  have hones : OnesThenZeros (ntohl 0xffff) 16 := onesThenZeros_iff.mpr (by decide)
  rw [inAddrToCidrInto_of_ones (by decide) hones]
  refine ⟨fun h => absurd (h.tooLong 16 (by decide) hones ?_) (Int.lt_irrefl 0), _, _, rfl,
    CText.text_snprintf (nul_not_mem_cidrText _ _) (by decide), ?_⟩
  · rw [length_cidrText (by decide)]
    decide
  · decide

end QuicVpn
