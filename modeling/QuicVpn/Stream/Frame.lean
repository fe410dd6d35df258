import QuicVpn.Common.Basic
import QuicVpn.Common.InAddr
import QuicVpn.Lib.Layout
import QuicVpn.Stream.Receive

/-!
# Control frames (`pkt_ctrl.h`, `pkt_ctrl.c`)

A `pkt_ctrl_t` is a packed record of 1024 bytes: header, a union of the message bodies, and the tail
magic in the last four bytes.  The hosts are little-endian, so a number that went through `htons`,
`htonl` or `htonll` stands in the frame with its most significant byte first.

* `Hdr`, `ConfigReq`, `ConfigResp`   the fields of the header and of the two bodies in use;
* `pktCtrlCreateConfigReq`, `pktCtrlCreateConfigResp`   the two encoders;
* `hostHeader`, `invalidFields`      how both sides begin `process_ctrl_pkt`.
-/

set_option linter.unusedSectionVars false

namespace QuicVpn
open Conc

/-! ## byte order -/

def ntohs (x : BitVec 16) : BitVec 16 := x.extractLsb' 0 8 ++ x.extractLsb' 8 8

def htons (x : BitVec 16) : BitVec 16 := ntohs x

/-- `__builtin_bswap64`: the two halves change places, each with its bytes reversed -/
def ntohll (x : BitVec 64) : BitVec 64 := ntohl (x.extractLsb' 0 32) ++ ntohl (x.extractLsb' 32 32)

def htonll (x : BitVec 64) : BitVec 64 := ntohll x

theorem ntohs_htons (x : BitVec 16) : ntohs (htons x) = x := by
  apply BitVec.eq_of_getLsbD_eq
  intro i hi
  unfold htons ntohs
  simp only [BitVec.getLsbD_append, BitVec.getLsbD_extractLsb']
  interval_cases i <;> simp

theorem ntohll_htonll (x : BitVec 64) : ntohll (htonll x) = x := by
  have hlo : (htonll x).extractLsb' 0 32 = ntohl (x.extractLsb' 32 32) := by
    unfold htonll ntohll
    rw [BitVec.extractLsb'_append_eq_right]
  have hhi : (htonll x).extractLsb' 32 32 = ntohl (x.extractLsb' 0 32) := by
    unfold htonll ntohll
    rw [BitVec.extractLsb'_append_eq_left]
  rw [ntohll, hlo, hhi, ntohl_ntohl, ntohl_ntohl]
  apply BitVec.eq_of_getLsbD_eq
  intro i hi
  rw [BitVec.getLsbD_append, BitVec.getLsbD_extractLsb', BitVec.getLsbD_extractLsb']
  by_cases h : i < 32
  · simp [h]
  · have h1 : i - 32 < 32 := by omega
    have h2 : 32 + (i - 32) = i := by omega
    simp [h, h1, h2]

/-! ## the layout -/

/-- `pkt_ctrl_t` -/
abbrev PktCtrl := Record pktCtrlSize

/-- `HEAD_MAGIC` -/
def headMagicValue : BitVec 32 := 0xAABBCCDD

/-- `TAIL_MAGIC` -/
def tailMagicValue : BitVec 32 := 0xDDBBCCAA

/-- `VPN_MSG_TYPE_CONFIG_REQ` -/
def msgConfigReq : BitVec 16 := 1

/-- `VPN_MSG_TYPE_CONFIG_RESP` -/
def msgConfigResp : BitVec 16 := 2

namespace Hdr

def frameLen : Field pktCtrlSize 16 := ⟨0, by decide, by decide⟩
def headMagic : Field pktCtrlSize 32 := ⟨2, by decide, by decide⟩
def type : Field pktCtrlSize 16 := ⟨6, by decide, by decide⟩
def uid : Field pktCtrlSize 64 := ⟨8, by decide, by decide⟩

end Hdr

/-- `HOSTNAMSIZ` -/
def hostnamsiz : ℕ := 64

namespace ConfigReq

def afFamily : Field pktCtrlSize 8 := ⟨16, by decide, by decide⟩
def hostname : Region pktCtrlSize := ⟨17, hostnamsiz, by decide⟩

end ConfigReq

namespace ConfigResp

def uid : Field pktCtrlSize 64 := ⟨16, by decide, by decide⟩
def statusCode : Field pktCtrlSize 32 := ⟨24, by decide, by decide⟩
def ip : Field pktCtrlSize 32 := ⟨28, by decide, by decide⟩
def mask : Field pktCtrlSize 32 := ⟨32, by decide, by decide⟩
def dns1 : Field pktCtrlSize 32 := ⟨36, by decide, by decide⟩
def dns2 : Field pktCtrlSize 32 := ⟨40, by decide, by decide⟩
def mtu : Field pktCtrlSize 16 := ⟨44, by decide, by decide⟩

end ConfigResp

def tailMagic : Field pktCtrlSize 32 := ⟨1020, by decide, by decide⟩

/-! ## the encoders -/

/-- the characters of a C string, without its terminator -/
structure CString where
  chars : List Byte
  noNul : 0 ∉ chars

/-- what `snprintf(buf, size, "%s", s)` leaves at the start of `buf` -/
def snprintf (size : ℕ) (s : CString) : List Byte := s.chars.take (size - 1) ++ [0]

/-- the fields that both encoders set, in a packet from `calloc` -/
def pktCtrlHeader (type : BitVec 16) (uid : BitVec 64) : PktCtrl :=
  let pkt := Record.zero pktCtrlSize
  let pkt := Hdr.frameLen.set pkt (htons (BitVec.ofNat 16 pktCtrlSize))
  let pkt := Hdr.headMagic.set pkt (htonl headMagicValue)
  let pkt := Hdr.type.set pkt (htons type)
  Hdr.uid.set pkt (htonll uid)

/-- the end of `pkt_ctrl_create_config_req`, once `calloc` has returned a block -/
def fillConfigReq (uid : BitVec 64) (afFamily : BitVec 8) (hostname : Option CString) : PktCtrl :=
  let pkt := pktCtrlHeader msgConfigReq uid
  let pkt := ConfigReq.afFamily.set pkt afFamily
  let pkt := match hostname with
    | some s => ConfigReq.hostname.write pkt (snprintf hostnamsiz s)
    | none => pkt
  tailMagic.set pkt (htonl tailMagicValue)

/-- `pkt_ctrl_create_config_req`; `calloc` says whether the allocation succeeds -/
def pktCtrlCreateConfigReq (calloc : Bool) (uid : BitVec 64) (afFamily : BitVec 8)
    (hostname : Option CString) : Option PktCtrl :=
  if calloc then some (fillConfigReq uid afFamily hostname) else none

/-- the end of `pkt_ctrl_create_config_resp`; the 8-bit status is widened before `htonl` -/
def fillConfigResp (uid : BitVec 64) (statusCode : BitVec 8) (mtu : BitVec 16)
    (ip mask dns1 dns2 : InAddr) : PktCtrl :=
  let pkt := pktCtrlHeader msgConfigResp uid
  let pkt := ConfigResp.statusCode.set pkt (htonl (statusCode.setWidth 32))
  let pkt := ConfigResp.mtu.set pkt (htons mtu)
  let pkt := ConfigResp.ip.set pkt ip
  let pkt := ConfigResp.mask.set pkt mask
  let pkt := ConfigResp.dns1.set pkt dns1
  let pkt := ConfigResp.dns2.set pkt dns2
  tailMagic.set pkt (htonl tailMagicValue)

/-- `pkt_ctrl_create_config_resp` -/
def pktCtrlCreateConfigResp (calloc : Bool) (uid : BitVec 64) (statusCode : BitVec 8)
    (mtu : BitVec 16) (ip mask dns1 dns2 : InAddr) : Option PktCtrl :=
  if calloc then some (fillConfigResp uid statusCode mtu ip mask dns1 dns2) else none

/-! ## the check on the other side -/

/-- the header and the tail magic of a received frame, in host byte order, in a zeroed packet -/
def hostHeader (raw : PktCtrl) : PktCtrl :=
  let pkt := Record.zero pktCtrlSize
  let pkt := Hdr.frameLen.set pkt (ntohs (Hdr.frameLen.get raw))
  let pkt := Hdr.headMagic.set pkt (ntohl (Hdr.headMagic.get raw))
  let pkt := Hdr.type.set pkt (ntohs (Hdr.type.get raw))
  let pkt := Hdr.uid.set pkt (ntohll (Hdr.uid.get raw))
  tailMagic.set pkt (ntohl (tailMagic.get raw))

/-- the test on which both sides drop a frame -/
def invalidFields (pkt : PktCtrl) : Bool :=
  Hdr.frameLen.get pkt != BitVec.ofNat 16 pktCtrlSize ||
    Hdr.headMagic.get pkt != headMagicValue || tailMagic.get pkt != tailMagicValue

section
variable (raw : PktCtrl)

theorem hostHeader_frameLen :
    Hdr.frameLen.get (hostHeader raw) = ntohs (Hdr.frameLen.get raw) := by
  unfold hostHeader
  simp (disch := decide) only [Field.get_set_of_apart, Field.get_set]

theorem hostHeader_headMagic :
    Hdr.headMagic.get (hostHeader raw) = ntohl (Hdr.headMagic.get raw) := by
  unfold hostHeader
  simp (disch := decide) only [Field.get_set_of_apart, Field.get_set]

theorem hostHeader_type : Hdr.type.get (hostHeader raw) = ntohs (Hdr.type.get raw) := by
  unfold hostHeader
  simp (disch := decide) only [Field.get_set_of_apart, Field.get_set]

theorem hostHeader_uid : Hdr.uid.get (hostHeader raw) = ntohll (Hdr.uid.get raw) := by
  unfold hostHeader
  simp (disch := decide) only [Field.get_set_of_apart, Field.get_set]

theorem hostHeader_tailMagic : tailMagic.get (hostHeader raw) = ntohl (tailMagic.get raw) := by
  unfold hostHeader
  simp (disch := decide) only [Field.get_set]

/-- the body of the local packet starts out as zeros -/
theorem hostHeader_body {w : ℕ} (f : Field pktCtrlSize w) (h : 16 ≤ f.off)
    (h' : f.off + w / 8 ≤ 1020) : f.get (hostHeader raw) = 0 := by
  have hd : ∀ {v : ℕ} (g : Field pktCtrlSize v), g.off + v / 8 ≤ 16 → g.region.Apart f.region := by
    intro v g hg
    exact Or.inl (le_trans hg h)
  have ht : tailMagic.region.Apart f.region := Or.inr h'
  unfold hostHeader
  rw [Field.get_set_of_apart ht, Field.get_set_of_apart (hd Hdr.uid (by decide)),
    Field.get_set_of_apart (hd Hdr.type (by decide)),
    Field.get_set_of_apart (hd Hdr.headMagic (by decide)),
    Field.get_set_of_apart (hd Hdr.frameLen (by decide)), Field.get_zero]

end

/-- a frame passes the check when its raw fields are those of the encoders -/
theorem valid_iff (raw : PktCtrl) : invalidFields (hostHeader raw) = false ↔
    Hdr.frameLen.get raw = htons (BitVec.ofNat 16 pktCtrlSize) ∧
      Hdr.headMagic.get raw = htonl headMagicValue ∧ tailMagic.get raw = htonl tailMagicValue := by
  have hs : ∀ x y : BitVec 16, ntohs x = y ↔ x = htons y := by
    intro x y
    constructor
    · rintro rfl
      exact (ntohs_htons x).symm
    · rintro rfl
      exact ntohs_htons y
  have hl : ∀ x y : BitVec 32, ntohl x = y ↔ x = htonl y := by
    intro x y
    rw [eq_comm, ← htonl_eq_iff, eq_comm]
  unfold invalidFields
  rw [Bool.or_eq_false_iff, Bool.or_eq_false_iff, bne_eq_false_iff_eq, bne_eq_false_iff_eq,
    bne_eq_false_iff_eq, hostHeader_frameLen, hostHeader_headMagic, hostHeader_tailMagic, hs, hl, hl,
    and_assoc]

/-! ## what the encoders leave in the frame -/

theorem fillConfigReq_header (uid : BitVec 64) (afFamily : BitVec 8) (hostname : Option CString) :
    let pkt := fillConfigReq uid afFamily hostname
    Hdr.frameLen.get pkt = htons (BitVec.ofNat 16 pktCtrlSize) ∧
      Hdr.headMagic.get pkt = htonl headMagicValue ∧ tailMagic.get pkt = htonl tailMagicValue ∧
      Hdr.type.get pkt = htons msgConfigReq ∧ Hdr.uid.get pkt = htonll uid ∧
      ConfigReq.afFamily.get pkt = afFamily := by
  cases hostname with
  | none =>
    simp (disch := decide) only [fillConfigReq, pktCtrlHeader, Field.get_set_of_apart,
      Field.get_set, and_self]
  | some s =>
    simp (disch := decide) only [fillConfigReq, pktCtrlHeader, Field.get_set_of_apart,
      Field.get_set, Field.get_write_of_apart, and_self]

theorem fillConfigResp_header (uid : BitVec 64) (statusCode : BitVec 8) (mtu : BitVec 16)
    (ip mask dns1 dns2 : InAddr) :
    let pkt := fillConfigResp uid statusCode mtu ip mask dns1 dns2
    Hdr.frameLen.get pkt = htons (BitVec.ofNat 16 pktCtrlSize) ∧
      Hdr.headMagic.get pkt = htonl headMagicValue ∧ tailMagic.get pkt = htonl tailMagicValue ∧
      Hdr.type.get pkt = htons msgConfigResp ∧ Hdr.uid.get pkt = htonll uid := by
  simp (disch := decide) only [fillConfigResp, pktCtrlHeader, Field.get_set_of_apart,
    Field.get_set, and_self]

theorem fillConfigResp_body (uid : BitVec 64) (statusCode : BitVec 8) (mtu : BitVec 16)
    (ip mask dns1 dns2 : InAddr) :
    let pkt := fillConfigResp uid statusCode mtu ip mask dns1 dns2
    ConfigResp.statusCode.get pkt = htonl (statusCode.setWidth 32) ∧
      ConfigResp.mtu.get pkt = htons mtu ∧ ConfigResp.ip.get pkt = ip ∧
      ConfigResp.mask.get pkt = mask ∧ ConfigResp.dns1.get pkt = dns1 ∧
      ConfigResp.dns2.get pkt = dns2 := by
  simp (disch := decide) only [fillConfigResp, pktCtrlHeader, Field.get_set_of_apart,
    Field.get_set, and_self]

end QuicVpn
