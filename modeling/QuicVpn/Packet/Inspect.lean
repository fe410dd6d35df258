import QuicVpn.Lib.Reads
import QuicVpn.Packet.Tunnel
import QuicVpn.Stream.Frame

/-!
# Looking into packets

The threads of both sides look into every packet before they pass it on.  The packet is any bytes; how
many of them there are is said by a length beside it.

* `pktDataIphdrAt`     `pkt_data_iphdr` on a memory; on a block it is `pktDataIphdr`;
* `pktDataPrint`       `pkt_data_print`: the code, and what it logs;
* `inspection_safe`    no byte beyond the length is read, the code tells whether there is an IP header,
                       and the ports of a report are those of the packet.
-/

set_option linter.unusedSectionVars false

namespace QuicVpn
open Conc Conc.Reads

/-- `-EAFNOSUPPORT` -/
def eafnosupport : ℤ := -97

/-! ## the headers -/

/-- the first byte of the packet: the version above, the header length below -/
def ipVersion (mem : ℕ → UInt8) : ℕ := (mem 0).toNat / 16

/-- the header length, in words of four bytes -/
def ipIhl (mem : ℕ → UInt8) : ℕ := (mem 0).toNat % 16

theorem whole8 : 8 * (8 / 8) = 8 := rfl
theorem whole32 : 8 * (32 / 8) = 32 := rfl

/-- `struct iphdr iph`, a copy on the stack -/
def Iph.versionIhl : Field sizeofIphdr 8 := ⟨0, whole8, by decide⟩
def Iph.protocol : Field sizeofIphdr 8 := ⟨9, whole8, by decide⟩
def Iph.saddr : Field sizeofIphdr 32 := ⟨12, whole32, by decide⟩
def Iph.daddr : Field sizeofIphdr 32 := ⟨16, whole32, by decide⟩

/-- the bit field `iph.ihl` -/
def Iph.ihl (iph : Record sizeofIphdr) : ℕ := (Iph.versionIhl.get iph).toNat % 16

/-- `sizeof(struct tcphdr)` -/
def sizeofTcphdr : ℕ := 20
def Tcph.source : Field sizeofTcphdr 16 := ⟨0, rfl, by decide⟩
def Tcph.dest : Field sizeofTcphdr 16 := ⟨2, rfl, by decide⟩

/-- `sizeof(struct udphdr)` -/
def sizeofUdphdr : ℕ := 8
def Udph.source : Field sizeofUdphdr 16 := ⟨0, rfl, by decide⟩
def Udph.dest : Field sizeofUdphdr 16 := ⟨2, rfl, by decide⟩

def ipprotoIcmp : BitVec 8 := 1
def ipprotoTcp : BitVec 8 := 6
def ipprotoUdp : BitVec 8 := 17

/-! ## the functions -/

/-- `pkt_data_iphdr`; the flags say which pointers are not `NULL` -/
def pktDataIphdrAt (src dest pkt : Bool) (len : ℤ) : Reads (Except ℤ (InAddr × InAddr)) :=
  if !src || !dest then pure (.error einval)
  else if !pkt then pure (.error einval)
  else if len < sizeofIphdr then pure (.error einval)
  else do
    let first ← u8 0
    if first / 16 ≠ 4 then pure (.error enospc)
    else do
      let saddr ← u32 12
      let daddr ← u32 16
      pure (.ok (BitVec.ofNat 32 saddr, BitVec.ofNat 32 daddr))

/-- what is told about a packet -/
inductive PktReport
  | malformed
  | icmp (srcIp dstIp : String)
  | tcpTruncated (srcIp dstIp : String)
  | tcp (srcIp dstIp : String) (source dest : BitVec 16)
  | udpTruncated (srcIp dstIp : String)
  | udp (srcIp dstIp : String) (source dest : BitVec 16)
  | other (srcIp dstIp : String) (protocol : BitVec 8)
  | nonIpv4 (version : ℕ)

/-- a line of the log -/
structure PktLog where
  dir : String
  connId : BitVec 64
  len : ℕ
  report : PktReport

/-- the `switch` over the protocol -/
def reportProtocol (srcIp dstIp : String) (protocol : BitVec 8) (len ipHeaderLen : ℕ) :
    Reads PktReport :=
  if protocol = ipprotoIcmp then pure (.icmp srcIp dstIp)
  else if protocol = ipprotoTcp then
    if len < ipHeaderLen + sizeofTcphdr then pure (.tcpTruncated srcIp dstIp)
    else do
      let tcph ← copy ipHeaderLen sizeofTcphdr
      pure (.tcp srcIp dstIp (ntohs (Tcph.source.get tcph)) (ntohs (Tcph.dest.get tcph)))
  else if protocol = ipprotoUdp then
    if len < ipHeaderLen + sizeofUdphdr then pure (.udpTruncated srcIp dstIp)
    else do
      let udph ← copy ipHeaderLen sizeofUdphdr
      pure (.udp srcIp dstIp (ntohs (Udph.source.get udph)) (ntohs (Udph.dest.get udph)))
  else pure (.other srcIp dstIp protocol)

/-- `pkt_data_print`; `buf` says that the pointer is not `NULL`, `ntop` is `inet_ntop` with its buffer -/
def pktDataPrint (ntop : InAddr → Option String) (connId : BitVec 64) (inbound buf : Bool) (len : ℕ) :
    Reads (ℤ × Option PktLog) :=
  if !buf || len < sizeofIphdr then pure (einval, none)
  else do
    let dir := if inbound then "<---" else "--->"
    let first ← u8 0
    let version := first / 16 % 16
    if version = 4 then do
      let iph ← copy 0 sizeofIphdr
      let ipHeaderLen := Iph.ihl iph * 4
      if Iph.ihl iph < 5 ∨ len < ipHeaderLen then
        pure (eafnosupport, some ⟨dir, connId, len, .malformed⟩)
      else
        match ntop (Iph.saddr.get iph), ntop (Iph.daddr.get iph) with
        | some srcIp, some dstIp => do
          let report ← reportProtocol srcIp dstIp (Iph.protocol.get iph) len ipHeaderLen
          pure (0, some ⟨dir, connId, len, report⟩)
        | _, _ => pure (eafnosupport, none)
    else pure (0, some ⟨dir, connId, len, .nonIpv4 version⟩)

/-! ## ports -/

/-- the integer of two bytes, most significant byte first -/
def be16 (mem : ℕ → UInt8) (i : ℕ) : ℕ := 256 * (mem i).toNat + (mem (i + 1)).toNat

theorem ntohs_le16 (mem : ℕ → UInt8) (i : ℕ) :
    (ntohs (BitVec.ofNat 16 (le16 mem i))).toNat = be16 mem i := by
  have h0 := (mem i).toNat_lt
  have h1 := (mem (i + 1)).toNat_lt
  have hlt := le16_lt mem i
  have hlow : ((BitVec.ofNat 16 (le16 mem i)).extractLsb' 0 8).toNat = (mem i).toNat := by
    rw [BitVec.extractLsb'_toNat, BitVec.toNat_ofNat, Nat.shiftRight_zero]
    unfold le16
    omega
  have hhigh : ((BitVec.ofNat 16 (le16 mem i)).extractLsb' 8 8).toNat = (mem (i + 1)).toNat := by
    rw [BitVec.extractLsb'_toNat, BitVec.toNat_ofNat, Nat.shiftRight_eq_div_pow]
    unfold le16
    omega
  rw [ntohs, BitVec.toNat_append, hlow, hhigh, ← Nat.shiftLeft_add_eq_or_of_lt h1, Nat.shiftLeft_eq]
  unfold be16
  omega

theorem port_ofMem {n : ℕ} (mem : ℕ → UInt8) (i : ℕ) (f : Field n 16) :
    (ntohs (f.get (.ofMem mem i n))).toNat = be16 mem (i + f.off) := by
  rw [Field.get_ofMem16, ntohs_le16]

theorem ihl_ofMem (mem : ℕ → UInt8) : Iph.ihl (.ofMem mem 0 sizeofIphdr) = ipIhl mem := by
  have h0 := (mem 0).toNat_lt
  rw [Iph.ihl, Field.get_ofMem8, BitVec.toNat_ofNat]
  show (mem 0).toNat % 2 ^ 8 % 16 = (mem 0).toNat % 16
  rw [Nat.mod_eq_of_lt h0]

/-! ## safety -/

section
variable (mem : ℕ → UInt8) (len : ℕ)

/-- the ports of a report are those of the packet, and the whole transport header is there -/
def PktReport.Right : PktReport → Prop
  | .tcp _ _ source dest => source.toNat = be16 mem (ipIhl mem * 4) ∧
      dest.toNat = be16 mem (ipIhl mem * 4 + 2) ∧ ipIhl mem * 4 + 20 ≤ len
  | .udp _ _ source dest => source.toNat = be16 mem (ipIhl mem * 4) ∧
      dest.toNat = be16 mem (ipIhl mem * 4 + 2) ∧ ipIhl mem * 4 + 8 ≤ len
  | _ => True

/-- no IP header, or an IPv4 header that is too short or not all there -/
def IpMalformed : Prop :=
  len < 20 ∨ ipVersion mem = 4 ∧ (ipIhl mem < 5 ∨ len < ipIhl mem * 4)

structure SafePrint (m : Reads (ℤ × Option PktLog)) : Prop where
  within : Within len m mem
  error : (m.val mem).1 ≠ 0 ↔ IpMalformed mem len
  right : ∀ l, (m.val mem).2 = some l → l.report.Right mem len

variable {mem len}

theorem SafePrint.bind {α : Type} {m : Reads α} {f : α → Reads (ℤ × Option PktLog)}
    (hm : Within len m mem) (hf : SafePrint mem len (f (m.val mem))) : SafePrint mem len (m >>= f) :=
  ⟨(within_bind mem len m f).mpr ⟨hm, hf.within⟩, hf.error, hf.right⟩

theorem SafePrint.failed {rc : ℤ} {l : Option PktLog} (hrc : rc ≠ 0) (h : IpMalformed mem len)
    (hl : ∀ x, l = some x → x.report.Right mem len) : SafePrint mem len (pure (rc, l)) :=
  ⟨within_pure mem len _, iff_of_true hrc h, hl⟩

theorem SafePrint.done {l : PktLog} (h : ¬ IpMalformed mem len) (hl : l.report.Right mem len) :
    SafePrint mem len (pure (0, some l)) :=
  ⟨within_pure mem len _, iff_of_false (fun hc => hc rfl) h, fun _ hx => Option.some.inj hx ▸ hl⟩

theorem reportProtocol_within (srcIp dstIp : String) (protocol : BitVec 8) (ipHeaderLen : ℕ) :
    Within len (reportProtocol srcIp dstIp protocol len ipHeaderLen) mem := by
  unfold reportProtocol
  split_ifs with hicmp htcp hshort hudp hshort
  · exact within_pure _ _ _
  · exact within_pure _ _ _
  · rw [within_bind]
    exact ⟨within_copy mem (by omega), within_pure _ _ _⟩
  · exact within_pure _ _ _
  · rw [within_bind]
    exact ⟨within_copy mem (by omega), within_pure _ _ _⟩
  · exact within_pure _ _ _

theorem reportProtocol_right (srcIp dstIp : String) (protocol : BitVec 8) :
    ((reportProtocol srcIp dstIp protocol len (ipIhl mem * 4)).val mem).Right mem len := by
  unfold reportProtocol
  split_ifs with hicmp htcp hshort hudp hshort
  · trivial
  · trivial
  · rw [val_bind, val_copy, val_pure]
    exact ⟨port_ofMem .., port_ofMem .., Nat.le_of_not_lt hshort⟩
  · trivial
  · rw [val_bind, val_copy, val_pure]
    exact ⟨port_ofMem .., port_ofMem .., Nat.le_of_not_lt hshort⟩
  · trivial

theorem pktDataPrint_safe {ntop : InAddr → Option String} (hntop : ∀ a, (ntop a).isSome)
    (connId : BitVec 64) (inbound : Bool) :
    SafePrint mem len (pktDataPrint ntop connId inbound true len) := by
  have hsize : sizeofIphdr = 20 := rfl
  have hfirst : (mem 0).toNat / 16 % 16 = ipVersion mem := by
    have h0 := (mem 0).toNat_lt
    unfold ipVersion
    omega
  unfold pktDataPrint
  by_cases hlen : len < sizeofIphdr
  · rw [if_pos (by simp [hlen])]
    exact .failed (by decide) (.inl hlen) nofun
  rw [if_neg (by simp [hlen])]
  refine .bind ((within_u8 mem len 0).mpr (by omega)) ?_
  dsimp only
  rw [val_u8, hfirst]
  by_cases hv : ipVersion mem = 4
  · rw [if_pos hv]
    refine .bind (within_copy mem (by omega)) ?_
    rw [val_copy, ihl_ofMem]
    by_cases hihl : ipIhl mem < 5 ∨ len < ipIhl mem * 4
    · rw [if_pos hihl]
      exact .failed (by decide) (.inr ⟨hv, hihl⟩) fun x hx => by cases hx; trivial
    · rw [if_neg hihl]
      obtain ⟨srcIp, hsrc⟩ :=
        Option.isSome_iff_exists.mp (hntop (Iph.saddr.get (.ofMem mem 0 sizeofIphdr)))
      obtain ⟨dstIp, hdst⟩ :=
        Option.isSome_iff_exists.mp (hntop (Iph.daddr.get (.ofMem mem 0 sizeofIphdr)))
      rw [hsrc, hdst]
      refine .bind (reportProtocol_within _ _ _ _) (.done ?_ (reportProtocol_right ..))
      rintro (hs | ⟨-, hi⟩)
      · exact hlen hs
      · exact hihl hi
  · rw [if_neg hv]
    refine .done ?_ trivial
    rintro (hs | ⟨h4, -⟩)
    · exact hlen hs
    · exact hv h4

theorem pktDataIphdrAt_within (src dest pkt : Bool) (l : ℤ) :
    Within l.toNat (pktDataIphdrAt src dest pkt l) mem := by
  have hsize : sizeofIphdr = 20 := rfl
  unfold pktDataIphdrAt
  split_ifs with h1 h2 h3
  · exact within_pure _ _ _
  · exact within_pure _ _ _
  · exact within_pure _ _ _
  · rw [within_bind, within_u8]
    refine ⟨by omega, ?_⟩
    split_ifs
    · exact within_pure _ _ _
    · rw [within_bind, within_bind, within_u32, within_u32]
      exact ⟨by omega, by omega, within_pure _ _ _⟩

/-- on a block the function is the check of the receive thread -/
theorem pktDataIphdrAt_refines (pkt : Record datapktbuf) (l : ℤ) :
    (pktDataIphdrAt true true true l).val (fun i => pkt.1.getD i 0) = pktDataIphdr pkt l := by
  have hversion : (pkt.1.getD 0 0).toNat / 16 ≠ 4 ↔ Iphdr.version pkt ≠ 4 := by
    rw [Ne, Ne, ← BitVec.toNat_inj, Iphdr.version_toNat, List.headD_eq_head?_getD,
      List.head?_eq_getElem?, List.getD_eq_getElem?_getD]
    rfl
  have hs : Iphdr.saddr.get pkt = BitVec.ofNat 32 (le32 (fun i => pkt.1.getD i 0) 12) := by
    conv_lhs => rw [← Record.ofMem_getD pkt]
    exact Field.get_ofMem32 ..
  have hd : Iphdr.daddr.get pkt = BitVec.ofNat 32 (le32 (fun i => pkt.1.getD i 0) 16) := by
    conv_lhs => rw [← Record.ofMem_getD pkt]
    exact Field.get_ofMem32 ..
  unfold pktDataIphdrAt pktDataIphdr
  rw [if_neg (by decide), if_neg (by decide)]
  by_cases hl : l < sizeofIphdr
  · rw [if_pos hl, if_pos hl, val_pure]
  · rw [if_neg hl, if_neg hl, val_bind, val_u8]
    by_cases hv : Iphdr.version pkt ≠ 4
    · rw [if_pos hv, if_pos (hversion.mpr hv), val_pure]
    · rw [if_neg hv, if_neg (fun h => hv (hversion.mp h)), hs, hd]
      rfl

end

/-- **Looking into packets is safe.**  For all bytes and lengths, with `inet_ntop` succeeding: neither
function reads at or beyond the length; `pkt_data_print` fails exactly on a packet without a whole IP
header, and the ports it tells are the big-endian numbers after the IP header, with the whole transport
header inside. -/
theorem inspection_safe (ntop : InAddr → Option String) (hntop : ∀ a, (ntop a).isSome)
    (mem : ℕ → UInt8) (connId : BitVec 64) (inbound : Bool) (len : ℕ) (src dest pkt : Bool) (l : ℤ) :
    SafePrint mem len (pktDataPrint ntop connId inbound true len) ∧
      Within l.toNat (pktDataIphdrAt src dest pkt l) mem :=
  ⟨pktDataPrint_safe hntop connId inbound, pktDataIphdrAt_within src dest pkt l⟩

/-- a UDP datagram from 10.8.0.2 to 10.8.0.1 -/
def udpPacket : List UInt8 :=
  [0x45, 0, 0, 28, 0, 0, 0, 0, 64, 17, 0, 0, 10, 8, 0, 2, 10, 8, 0, 1, 0x13, 0x88, 0, 53, 0, 8, 0, 0]

theorem inspection_safe_udp :
    SafePrint (fun i => udpPacket.getD i 0) 28
        (pktDataPrint (fun a => some (inetNtop a)) 7 true true 28) ∧
      Within 28 (pktDataIphdrAt true true true 28) (fun i => udpPacket.getD i 0) :=
  inspection_safe (fun a => some (inetNtop a)) (fun _ => rfl) _ 7 true 28 true true true 28

end QuicVpn
