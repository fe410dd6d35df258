import QuicVpn.Common.Cidr
import QuicVpn.Common.Tun
import QuicVpn.Stream.Frame

/-!
# Control frames at the client (`process_ctrl_pkt` of the client)

The client acts on one kind of frame: a CONFIG_RESP makes it create and configure a TUN device.

* `clientPkt raw`          the local packet, with the fields the client decodes from the frame;
* `configCalls`            the calls that configure the device, in the order of the source;
* `clientProcessCtrlPkt`   the whole function; its result has the calls made with their codes.

The answers of the host are a parameter, so every combination of successes and failures is one value
of it.  `Configures` says when all tested calls succeed.
-/

set_option linter.unusedSectionVars false

namespace QuicVpn
open Conc

/-- `tun_state_t` -/
inductive TunState where
  | closed
  | ready
  | fail
  deriving DecidableEq, Repr

/-- the fields of the client's `session_t` that `process_ctrl_pkt` uses; `mem` are the handles -/
structure ClientSession where
  tun : Option ℕ
  tunState : TunState
  mem : ℕ → TunDev
  wanIfname : String
  serverIpStr : String
  serverPort : BitVec 16

/-! ## what is read from the frame -/

/-- the local packet of `process_ctrl_pkt` for a CONFIG_RESP; `status_code` and the `uid` of the body
are not copied -/
def clientPkt (raw : PktCtrl) : PktCtrl :=
  let pkt := hostHeader raw
  let pkt := ConfigResp.ip.set pkt (ConfigResp.ip.get raw)
  let pkt := ConfigResp.mask.set pkt (ConfigResp.mask.get raw)
  let pkt := ConfigResp.dns1.set pkt (ConfigResp.dns1.get raw)
  let pkt := ConfigResp.dns2.set pkt (ConfigResp.dns2.get raw)
  ConfigResp.mtu.set pkt (ntohs (ConfigResp.mtu.get raw))

/-- `__builtin_popcount` -/
def popcount (x : BitVec 32) : ℕ := (List.range 32).countP fun i => x.getLsbD i

/-- `in_addr_to_cidr`; `none` is its `-EINVAL` -/
def inAddrToCidr (addr mask : InAddr) : Option String :=
  if validateMask mask then some (inetNtop addr ++ "/" ++ toString (popcount (ntohl mask))) else none

theorem popcount_prefixMask {p : ℕ} (hp : p ≤ 32) : popcount (prefixMask p) = p := by
  interval_cases p <;> decide

/-- the buffer of the client, of `INET_CIDRSTRLEN` bytes, has room for every text -/
theorem inAddrToCidrInto_refines (a m : InAddr) {buf : List Char} (h : buf.length = 20) :
    (∀ t, inAddrToCidr a m = some t →
      ∃ b, inAddrToCidrInto (some a) (some m) (some buf) = (0, some b) ∧
        CText.text b = some t.toList) ∧
    (inAddrToCidr a m = none →
      inAddrToCidrInto (some a) (some m) (some buf) = (einval, some buf)) := by
  unfold inAddrToCidr
  by_cases hm : ∃ p ≤ 32, OnesThenZeros (ntohl m) p
  · obtain ⟨p, hp, hones⟩ := id hm
    have hlen := cidrLen_le a hp
    rw [if_pos ((netmask_accepted m).mpr hm)]
    refine ⟨fun t ht => ?_, fun hn => absurd hn (Option.some_ne_none _)⟩
    refine ⟨_, inAddrToCidrInto_of_ones hp hones buf, ?_⟩
    rw [← Option.some.inj ht, onesThenZeros_iff.mp hones, popcount_prefixMask hp, printed_eq]
    exact CText.text_snprintf_of_lt (nul_not_mem_cidrText a p) (by rw [length_cidrText hp]; omega)
  · rw [if_neg (fun hv => hm ((netmask_accepted m).mp hv))]
    exact ⟨fun t ht => absurd ht.symm (Option.some_ne_none t),
      fun _ => inAddrToCidrInto_of_not hm buf⟩

/-- `net_cidr`, which stays empty when `in_addr_to_cidr` fails -/
def netCidr (ip mask : InAddr) : String := (inAddrToCidr (ip &&& mask) mask).getD ""

/-! ## the calls -/

inductive TunCall where
  | openDev
  | setAddr (ip mask : InAddr)
  | setMtu (mtu : BitVec 16)
  | setUp
  | rulesClear
  | setDns (dns1 dns2 : InAddr)
  | addRoute (cidr : String)
  | clientRulesAdd (wanIf serverIp : String) (serverPort : BitVec 16)
  | start
  deriving DecidableEq

def TunCall.run (h : Host) : TunCall → TunDev → ℤ × TunDev
  | .openDev => tunOpen h
  | .setAddr ip mask => tunSetAddr h ip mask
  | .setMtu mtu => tunSetMtu h mtu
  | .setUp => tunSetUp h
  | .rulesClear => tunRulesClear h
  | .setDns dns1 dns2 => tunSetDns h dns1 dns2
  | .addRoute cidr => tunAddRoute h cidr
  | .clientRulesAdd wanIf serverIp serverPort => tunClientRulesAdd h wanIf serverIp serverPort
  | .start => tunStart

/-- the calls whose code decides whether to `goto cleanup` -/
def TunCall.tested : TunCall → Bool
  | .rulesClear => false
  | .clientRulesAdd .. => false
  | _ => true

def killSwitch (s : ClientSession) : TunCall :=
  .clientRulesAdd s.wanIfname s.serverIpStr s.serverPort

/-- from `tun_open` to `tun_start` -/
def configCalls (s : ClientSession) (raw : PktCtrl) : List TunCall :=
  let ip := ConfigResp.ip.get raw
  let mask := ConfigResp.mask.get raw
  [ .openDev,
    .setAddr ip mask,
    .setMtu (ntohs (ConfigResp.mtu.get raw)),
    .setUp,
    .rulesClear,
    .setDns (ConfigResp.dns1.get raw) (ConfigResp.dns2.get raw),
    .addRoute "0.0.0.0/1",
    .addRoute "128.0.0.0/1",
    .addRoute (netCidr ip mask),
    killSwitch s,
    .start ]

/-- the calls behind the label `cleanup`, on a device -/
def undoConfig (h : Host) (d : TunDev) : TunDev :=
  (tunDestroy h (tunSetDown h (tunRulesClear h (tunClearDns h (tunFlushRoutes h d).2).2).2).2).2

/-! ## the function -/

/-- what one call of `process_ctrl_pkt` returned and did -/
structure CtrlRun where
  ret : ℤ
  session : ClientSession
  /-- the local packet -/
  pkt : PktCtrl
  /-- `tun_create` was called -/
  begun : Bool
  /-- the handle it returned -/
  tun : Option ℕ
  trace : List (TunCall × ℤ)

def ClientSession.setDev (s : ClientSession) (p : ℕ) (d : TunDev) : ClientSession :=
  { s with mem := Function.update s.mem p d }

/-- the calls on the device that `tun_create` made -/
def configDev (h : Host) (s : ClientSession) (raw : PktCtrl) : Tried TunCall TunDev :=
  attempt (TunCall.run h) TunCall.tested (configCalls s raw) tunCreate

/-- the case `VPN_MSG_TYPE_CONFIG_RESP` -/
def processConfigResp (h : Host) (s : ClientSession) (raw : PktCtrl) : CtrlRun :=
  match h.calloc with
  | none =>
    -- the calls behind `cleanup` refuse a handle that is NULL
    ⟨enodev, { s with tunState := .fail }, clientPkt raw, true, none, []⟩
  | some p =>
    let t := configDev h s raw
    if t.ok then
      ⟨0, { s.setDev p t.state with tun := some p, tunState := .ready }, clientPkt raw, true, some p,
        t.trace⟩
    else
      ⟨enodev, { s.setDev p (undoConfig h t.state) with tunState := .fail }, clientPkt raw, true,
        some p, t.trace⟩

/-- `process_ctrl_pkt` -/
def clientProcessCtrlPkt (h : Host) (s : ClientSession) (raw : PktCtrl) : CtrlRun :=
  let pkt := hostHeader raw
  if invalidFields pkt then ⟨0, s, pkt, false, none, []⟩
  else if Hdr.type.get pkt = msgConfigResp then processConfigResp h s raw
  else ⟨0, s, pkt, false, none, []⟩

/-- a frame that gets as far as `tun_create` -/
def IsConfigResp (raw : PktCtrl) : Prop :=
  invalidFields (hostHeader raw) = false ∧ Hdr.type.get (hostHeader raw) = msgConfigResp

theorem clientProcessCtrlPkt_of_configResp {raw : PktCtrl} (hr : IsConfigResp raw) (h : Host)
    (s : ClientSession) : clientProcessCtrlPkt h s raw = processConfigResp h s raw := by
  simp only [clientProcessCtrlPkt, hr.1, hr.2, Bool.false_eq_true, if_false, if_true]

/-- every other frame leaves the session as it is -/
theorem clientProcessCtrlPkt_of_not {raw : PktCtrl} (hr : ¬ IsConfigResp raw) (h : Host)
    (s : ClientSession) :
    clientProcessCtrlPkt h s raw = ⟨0, s, hostHeader raw, false, none, []⟩ := by
  by_cases hv : invalidFields (hostHeader raw) = true
  · simp only [clientProcessCtrlPkt, hv, if_true]
  · have ht : Hdr.type.get (hostHeader raw) ≠ msgConfigResp :=
      fun ht => hr ⟨Bool.eq_false_iff.mpr hv, ht⟩
    simp only [clientProcessCtrlPkt, hv, ht, Bool.false_eq_true, if_false]

theorem fillConfigResp_isConfigResp (uid : BitVec 64) (statusCode : BitVec 8) (mtu : BitVec 16)
    (ip mask dns1 dns2 : InAddr) :
    IsConfigResp (fillConfigResp uid statusCode mtu ip mask dns1 dns2) := by
  obtain ⟨h1, h2, h3, h4, -⟩ := fillConfigResp_header uid statusCode mtu ip mask dns1 dns2
  refine ⟨(valid_iff _).mpr ⟨h1, h2, h3⟩, ?_⟩
  rw [hostHeader_type, h4, ntohs_htons]

/-! ## what the client decodes -/

section
variable (raw : PktCtrl)

theorem clientPkt_uid : Hdr.uid.get (clientPkt raw) = ntohll (Hdr.uid.get raw) := by
  rw [← hostHeader_uid raw]
  simp (disch := decide) only [clientPkt, Field.get_set_of_apart]

theorem clientPkt_copied : ConfigResp.ip.get (clientPkt raw) = ConfigResp.ip.get raw ∧
    ConfigResp.mask.get (clientPkt raw) = ConfigResp.mask.get raw ∧
    ConfigResp.dns1.get (clientPkt raw) = ConfigResp.dns1.get raw ∧
    ConfigResp.dns2.get (clientPkt raw) = ConfigResp.dns2.get raw ∧
    ConfigResp.mtu.get (clientPkt raw) = ntohs (ConfigResp.mtu.get raw) := by
  simp (disch := decide) only [clientPkt, Field.get_set_of_apart, Field.get_set, and_self]

/-- the status of the frame is not copied: the client's packet has `0` there -/
theorem clientPkt_statusCode : ConfigResp.statusCode.get (clientPkt raw) = 0 := by
  have h : ConfigResp.statusCode.get (clientPkt raw) =
      ConfigResp.statusCode.get (hostHeader raw) := by
    simp (disch := decide) only [clientPkt, Field.get_set_of_apart]
  rw [h]
  exact hostHeader_body raw ConfigResp.statusCode (by decide) (by decide)

end

theorem processConfigResp_pkt (h : Host) (s : ClientSession) (raw : PktCtrl) :
    (processConfigResp h s raw).pkt = clientPkt raw ∧ (processConfigResp h s raw).begun = true := by
  unfold processConfigResp
  split
  · exact ⟨rfl, rfl⟩
  · dsimp only
    split <;> exact ⟨rfl, rfl⟩

/-- a response comes through: it passes the check, every field is decoded as it was encoded, and a
device is created just when the status says success -/
structure RespRoundTrip (h : Host) (s : ClientSession) (raw : PktCtrl) (uid : BitVec 64)
    (statusCode : BitVec 8) (mtu : BitVec 16) (ip mask dns1 dns2 : InAddr) : Prop where
  valid : invalidFields (hostHeader raw) = false
  uid : Hdr.uid.get (clientProcessCtrlPkt h s raw).pkt = uid
  status : ConfigResp.statusCode.get (clientProcessCtrlPkt h s raw).pkt = statusCode.setWidth 32
  mtu : ConfigResp.mtu.get (clientProcessCtrlPkt h s raw).pkt = mtu
  ip : ConfigResp.ip.get (clientProcessCtrlPkt h s raw).pkt = ip
  mask : ConfigResp.mask.get (clientProcessCtrlPkt h s raw).pkt = mask
  dns1 : ConfigResp.dns1.get (clientProcessCtrlPkt h s raw).pkt = dns1
  dns2 : ConfigResp.dns2.get (clientProcessCtrlPkt h s raw).pkt = dns2
  begun : (clientProcessCtrlPkt h s raw).begun = true ↔ statusCode = 0

/-- **CONFIG_RESP.**  The client neither decodes nor looks at the status, so a response comes
through exactly when its status is `0`. -/
theorem config_resp_comes_through_iff (h : Host) (s : ClientSession) (uid : BitVec 64)
    (statusCode : BitVec 8) (mtu : BitVec 16) (ip mask dns1 dns2 : InAddr) :
    ∃ raw, pktCtrlCreateConfigResp true uid statusCode mtu ip mask dns1 dns2 = some raw ∧
      (RespRoundTrip h s raw uid statusCode mtu ip mask dns1 dns2 ↔ statusCode = 0) := by
  refine ⟨fillConfigResp uid statusCode mtu ip mask dns1 dns2, rfl, ?_⟩
  have hr := fillConfigResp_isConfigResp uid statusCode mtu ip mask dns1 dns2
  have hrun := clientProcessCtrlPkt_of_configResp hr h s
  obtain ⟨hpkt, hbegun⟩ :=
    processConfigResp_pkt h s (fillConfigResp uid statusCode mtu ip mask dns1 dns2)
  constructor
  · intro hrt
    have hb := hrt.begun
    rw [hrun, hbegun] at hb
    exact hb.mp rfl
  · rintro rfl
    obtain ⟨-, -, -, -, huid⟩ := fillConfigResp_header uid 0 mtu ip mask dns1 dns2
    obtain ⟨-, hmtu, hip, hmask, hd1, hd2⟩ := fillConfigResp_body uid 0 mtu ip mask dns1 dns2
    obtain ⟨cip, cmask, cd1, cd2, cmtu⟩ :=
      clientPkt_copied (fillConfigResp uid 0 mtu ip mask dns1 dns2)
    refine ⟨hr.1, ?_, ?_, ?_, ?_, ?_, ?_, ?_, ?_⟩
    · rw [hrun, hpkt, clientPkt_uid, huid, ntohll_htonll]
    · rw [hrun, hpkt, clientPkt_statusCode]
      rfl
    · rw [hrun, hpkt, cmtu, hmtu, ntohs_htons]
    · rw [hrun, hpkt, cip, hip]
    · rw [hrun, hpkt, cmask, hmask]
    · rw [hrun, hpkt, cd1, hd1]
    · rw [hrun, hpkt, cd2, hd2]
    · rw [hrun, hbegun]
      exact ⟨fun _ => rfl, fun _ => rfl⟩

/-- a session before its first response -/
def newSession : ClientSession :=
  ⟨none, .closed, fun _ => tunCreate, "eth0", "10.10.10.11", 443⟩

/-- a response with status `1` (for `10.8.0.2/24`, MTU 1300) still makes the client create a
device -/
theorem config_resp_error_configures : ∃ raw,
    pktCtrlCreateConfigResp true 7 1 1300 0x0200080a 0x00ffffff 0x08080808 0x01010101 = some raw ∧
      (clientProcessCtrlPkt willingHost newSession raw).begun = true ∧
      ¬ RespRoundTrip willingHost newSession raw 7 1 1300 0x0200080a 0x00ffffff 0x08080808
        0x01010101 := by
  refine ⟨_, rfl, ?_, ?_⟩
  · rw [clientProcessCtrlPkt_of_configResp (fillConfigResp_isConfigResp ..)]
    exact (processConfigResp_pkt ..).2
  · intro hrt
    have hb := hrt.begun
    rw [clientProcessCtrlPkt_of_configResp (fillConfigResp_isConfigResp ..),
      (processConfigResp_pkt ..).2] at hb
    exact absurd (hb.mp rfl) (by decide)

end QuicVpn
