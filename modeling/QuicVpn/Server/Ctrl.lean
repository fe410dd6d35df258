import QuicVpn.Common.Tun
import QuicVpn.Server.Client
import QuicVpn.Stream.Frame

/-!
# Control frames at the server (`process_ctrl_pkt` of the server)

The server acts on one kind of frame: a CONFIG_REQ on the stream of a client makes it look the client
up by its uid and answer with the address of that client.

* `serverPkt raw`               the local packet, with the fields the server decodes;
* `listFindClientByUid`         the search in the client list;
* `serverProcessCtrlPktAcross`  the function, with what other handlers do between its search and its
                                read of `client->ip_entry`;
* `serverProcessCtrlPkt`        the function, when they do nothing there.

`config_req_round_trip`: what the client encodes is what the server decodes.
-/

set_option linter.unusedSectionVars false

namespace QuicVpn
open Conc

/-! ## what is read from the frame -/

/-- what `strncpy(dest, src, n)` leaves in `dest`: the string, and zeros up to `n` bytes -/
def strncpy (n : ℕ) (src : List Byte) : List Byte :=
  let s := (src.take n).takeWhile (· != 0)
  s ++ List.replicate (n - s.length) 0

/-- the local packet of `process_ctrl_pkt` for a CONFIG_REQ -/
def serverPkt (raw : PktCtrl) : PktCtrl :=
  let pkt := hostHeader raw
  let pkt := ConfigReq.afFamily.set pkt (ConfigReq.afFamily.get raw)
  ConfigReq.hostname.write pkt (strncpy hostnamsiz (ConfigReq.hostname.get raw))

/-! ## the function -/

section
variable {K : Type}

/-- `list_find_client_by_uid` -/
def listFindClientByUid (s : Session K) (uid : BitVec 64) : Option Blk :=
  if uid = 0 then none
  else (List.range s.ipPool.maxClients).findSome? fun i =>
    match s.clientList i with
    | some b => if (s.mem b).uid = uid then some b else none
    | none => none

/-- how `process_ctrl_pkt` ends; `req` is its local packet and `client` what the search found -/
inductive ReqOutcome where
  /-- a wrong length or magic: `-1` -/
  | dropped
  /-- another type of frame: `0` -/
  | unsupported
  /-- no client with that uid: `-1` -/
  | unknown (req : PktCtrl)
  /-- the client has no address: `client->ip_entry->ip` reads through NULL -/
  | noEntry (req : PktCtrl) (client : Blk)
  /-- `resp` is passed to `stream_send`: `0` -/
  | responded (req : PktCtrl) (client : Blk) (resp : Option PktCtrl)

/-- the packet that was decoded for a CONFIG_REQ -/
def ReqOutcome.request : ReqOutcome → Option PktCtrl
  | .dropped => none
  | .unsupported => none
  | .unknown req => some req
  | .noEntry req _ => some req
  | .responded req _ _ => some req

/-- `tun_get_mtu` and its siblings leave the zero of the caller when there is no device -/
def tunGet {α : Type} (zero : α) (field : TunDev → α) (tun : Option TunDev) : α :=
  (tun.map field).getD zero

/-- `process_ctrl_pkt` on a stream of the client in the block `b`: the session is `s` at the search and
`t` when `client->ip_entry` is read; `calloc` says whether the response can be allocated -/
def serverProcessCtrlPktAcross (calloc : Bool) (tun : Option TunDev) (s t : Session K) (b : Blk)
    (raw : PktCtrl) : ReqOutcome :=
  let pkt := hostHeader raw
  if invalidFields pkt then .dropped
  else if Hdr.type.get pkt = msgConfigReq then
    let assignedUid := (s.mem b).uid
    match listFindClientByUid s assignedUid with
    | none => .unknown (serverPkt raw)
    | some client =>
      match (t.mem client).ipEntry with
      | none => .noEntry (serverPkt raw) client
      | some i =>
        .responded (serverPkt raw) client
          (pktCtrlCreateConfigResp calloc assignedUid 0 (tunGet 0 TunDev.mtu tun)
            (t.ipPool.ipEntry i).ip (tunGet 0 TunDev.mask tun) (tunGet 0 TunDev.dns1 tun)
            (tunGet 0 TunDev.dns2 tun))
  else .unsupported

/-- `process_ctrl_pkt`, when the session stays as it is -/
def serverProcessCtrlPkt (calloc : Bool) (tun : Option TunDev) (s : Session K) (b : Blk)
    (raw : PktCtrl) : ReqOutcome :=
  serverProcessCtrlPktAcross calloc tun s s b raw

/-- a frame that is dispatched as a CONFIG_REQ -/
def IsConfigReq (raw : PktCtrl) : Prop :=
  invalidFields (hostHeader raw) = false ∧ Hdr.type.get (hostHeader raw) = msgConfigReq

section
variable {calloc : Bool} {tun : Option TunDev} {s : Session K} {b : Blk} {raw : PktCtrl}

/-- nobody is found -/
theorem serverProcessCtrlPktAcross_unknown {t : Session K} (hr : IsConfigReq raw)
    (hfind : listFindClientByUid s (s.mem b).uid = none) :
    serverProcessCtrlPktAcross calloc tun s t b raw = .unknown (serverPkt raw) := by
  simp only [serverProcessCtrlPktAcross, hr.1, hr.2, Bool.false_eq_true, if_false, if_true, hfind]

/-- a client is found, and has an address when it is asked for it -/
theorem serverProcessCtrlPktAcross_found {t : Session K} (hr : IsConfigReq raw) {c : Blk} {i : ℕ}
    (hfind : listFindClientByUid s (s.mem b).uid = some c) (hi : (t.mem c).ipEntry = some i) :
    serverProcessCtrlPktAcross calloc tun s t b raw = .responded (serverPkt raw) c
      (pktCtrlCreateConfigResp calloc (s.mem b).uid 0 (tunGet 0 TunDev.mtu tun)
        (t.ipPool.ipEntry i).ip (tunGet 0 TunDev.mask tun) (tunGet 0 TunDev.dns1 tun)
        (tunGet 0 TunDev.dns2 tun)) := by
  simp only [serverProcessCtrlPktAcross, hr.1, hr.2, Bool.false_eq_true, if_false, if_true, hfind, hi]

theorem serverProcessCtrlPkt_request (hr : IsConfigReq raw) :
    (serverProcessCtrlPkt calloc tun s b raw).request = some (serverPkt raw) := by
  simp only [serverProcessCtrlPkt, serverProcessCtrlPktAcross, hr.1, hr.2, Bool.false_eq_true,
    if_false, if_true]
  split
  · rfl
  · split <;> rfl

/-- the server drops everything that does not look like a frame -/
theorem serverProcessCtrlPkt_valid (ha : serverProcessCtrlPkt calloc tun s b raw ≠ .dropped) :
    invalidFields (hostHeader raw) = false := by
  by_contra hv
  rw [Bool.not_eq_false] at hv
  simp only [serverProcessCtrlPkt, serverProcessCtrlPktAcross, hv, if_true, ne_eq,
    not_true_eq_false] at ha

end

end

/-! ## the host name -/

/-- the characters that were given for the host name, none for NULL -/
def hostChars : Option CString → List Byte
  | some s => s.chars
  | none => []

theorem fillConfigReq_hostname (uid : BitVec 64) (afFamily : BitVec 8) (hostname : Option CString) :
    ConfigReq.hostname.get (fillConfigReq uid afFamily hostname) =
      (hostChars hostname).take 63 ++
        List.replicate (64 - ((hostChars hostname).take 63).length) 0 := by
  have hz : ConfigReq.hostname.get (ConfigReq.afFamily.set (pktCtrlHeader msgConfigReq uid) afFamily)
      = List.replicate 64 0 := by
    simp (disch := decide) only [pktCtrlHeader, Region.get_set_of_apart, Region.get_zero]
    rfl
  cases hostname with
  | none =>
    simp (disch := decide) only [fillConfigReq, Region.get_set_of_apart, hz]
    rfl
  | some s =>
    have hlen : (snprintf hostnamsiz s).length = (s.chars.take 63).length + 1 := by
      rw [snprintf, List.length_append]
      rfl
    have hle : (s.chars.take 63).length ≤ 63 := List.length_take_le 63 s.chars
    have hfit : (snprintf hostnamsiz s).length ≤ ConfigReq.hostname.len := by
      rw [hlen]
      exact Nat.succ_le_succ hle
    simp (disch := decide) only [fillConfigReq, Region.get_set_of_apart]
    rw [Region.get_write _ _ hfit, hz, hlen, List.drop_replicate]
    show s.chars.take 63 ++ [0] ++ _ = s.chars.take 63 ++ _
    have hzeros : 64 - (s.chars.take 63).length = 64 - ((s.chars.take 63).length + 1) + 1 := by
      omega
    rw [List.append_assoc, show hostChars (some s) = s.chars by rfl, hzeros, List.replicate_succ]
    rfl

/-- `strncpy` copies a string that was terminated inside the field as it is -/
theorem strncpy_terminated {n : ℕ} {text : List Byte} (h0 : 0 ∉ text) (hn : text.length ≤ n) :
    strncpy n (text ++ List.replicate (n - text.length) 0) =
      text ++ List.replicate (n - text.length) 0 := by
  have htake : (text ++ List.replicate (n - text.length) 0).take n =
      text ++ List.replicate (n - text.length) 0 := by
    refine List.take_of_length_le ?_
    rw [List.length_append, List.length_replicate]
    omega
  have hne : ∀ a ∈ text, (a != 0) = true := fun a ha => bne_iff_ne.mpr fun e => h0 (e ▸ ha)
  have hwhile : (text ++ List.replicate (n - text.length) 0).takeWhile (· != 0) = text := by
    rw [List.takeWhile_append_of_pos hne, List.takeWhile_replicate]
    exact List.append_nil text
  simp only [strncpy, htake, hwhile]

theorem hostChars_noNul (hostname : Option CString) : 0 ∉ (hostChars hostname).take 63 := by
  cases hostname with
  | none => exact List.not_mem_nil
  | some s => exact fun h => s.noNul (List.mem_of_mem_take h)

theorem serverPkt_hostname (uid : BitVec 64) (afFamily : BitVec 8) (hostname : Option CString) :
    ConfigReq.hostname.get (serverPkt (fillConfigReq uid afFamily hostname)) =
      (hostChars hostname).take 63 ++
        List.replicate (64 - ((hostChars hostname).take 63).length) 0 := by
  have hle : ((hostChars hostname).take 63).length ≤ 64 :=
    le_trans (List.length_take_le 63 _) (by decide)
  have hcopy : strncpy hostnamsiz (ConfigReq.hostname.get (fillConfigReq uid afFamily hostname)) =
      (hostChars hostname).take 63 ++
        List.replicate (64 - ((hostChars hostname).take 63).length) 0 := by
    rw [fillConfigReq_hostname]
    exact strncpy_terminated (hostChars_noNul hostname) hle
  unfold serverPkt
  rw [hcopy]
  refine Region.get_write_all _ _ ?_
  rw [List.length_append, List.length_replicate]
  show _ = 64
  omega

theorem serverPkt_uid (raw : PktCtrl) : Hdr.uid.get (serverPkt raw) = ntohll (Hdr.uid.get raw) := by
  rw [← hostHeader_uid raw]
  simp (disch := decide) only [serverPkt, Field.get_set_of_apart, Field.get_write_of_apart]

theorem serverPkt_afFamily (raw : PktCtrl) :
    ConfigReq.afFamily.get (serverPkt raw) = ConfigReq.afFamily.get raw := by
  simp (disch := decide) only [serverPkt, Field.get_set, Field.get_write_of_apart]

theorem fillConfigReq_isConfigReq (uid : BitVec 64) (afFamily : BitVec 8)
    (hostname : Option CString) : IsConfigReq (fillConfigReq uid afFamily hostname) := by
  obtain ⟨h1, h2, h3, h4, -, -⟩ := fillConfigReq_header uid afFamily hostname
  refine ⟨(valid_iff _).mpr ⟨h1, h2, h3⟩, ?_⟩
  rw [hostHeader_type, h4, ntohs_htons]

/-- **CONFIG_REQ.**  For every uid, family and host name the server accepts the frame of
`pkt_ctrl_create_config_req`, handles it as a CONFIG_REQ, and decodes the uid, the family and the
first 63 bytes of the name with at least one zero after them.  Any block on which it does not stop at
the check has the length and magics of such a frame. -/
theorem config_req_round_trip {K : Type} (calloc : Bool) (tun : Option TunDev) (s : Session K)
    (b : Blk) (uid : BitVec 64) (afFamily : BitVec 8) (hostname : Option CString) :
    (∃ raw req, pktCtrlCreateConfigReq true uid afFamily hostname = some raw ∧
      invalidFields (hostHeader raw) = false ∧ Hdr.type.get (hostHeader raw) = msgConfigReq ∧
      (serverProcessCtrlPkt calloc tun s b raw).request = some req ∧
      Hdr.uid.get req = uid ∧ ConfigReq.afFamily.get req = afFamily ∧
      ∃ n, ConfigReq.hostname.get req =
        (hostChars hostname).take (min 63 (hostChars hostname).length) ++
          List.replicate (n + 1) 0) ∧
    ∀ raw, serverProcessCtrlPkt calloc tun s b raw ≠ .dropped →
      Hdr.frameLen.get raw = htons (BitVec.ofNat 16 pktCtrlSize) ∧
        Hdr.headMagic.get raw = htonl headMagicValue ∧
        tailMagic.get raw = htonl tailMagicValue := by
  obtain ⟨hv, ht⟩ := fillConfigReq_isConfigReq uid afFamily hostname
  obtain ⟨-, -, -, -, huid, haf⟩ := fillConfigReq_header uid afFamily hostname
  constructor
  · refine ⟨fillConfigReq uid afFamily hostname, serverPkt (fillConfigReq uid afFamily hostname),
      rfl, hv, ht, serverProcessCtrlPkt_request ⟨hv, ht⟩, ?_, ?_,
      63 - ((hostChars hostname).take 63).length, ?_⟩
    · rw [serverPkt_uid, huid, ntohll_htonll]
    · rw [serverPkt_afFamily, haf]
    · have hle : ((hostChars hostname).take 63).length ≤ 63 := List.length_take_le 63 _
      have hsucc : 64 - ((hostChars hostname).take 63).length =
          63 - ((hostChars hostname).take 63).length + 1 := by
        omega
      rw [serverPkt_hostname, hsucc, ← List.take_eq_take_min]
  · intro raw ha
    exact (valid_iff raw).mp (serverProcessCtrlPkt_valid ha)

end QuicVpn
