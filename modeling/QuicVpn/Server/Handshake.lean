import QuicVpn.Client.Config
import QuicVpn.Server.Answers
import QuicVpn.Server.Disconnect
import QuicVpn.Server.Routing

/-!
# From the CONFIG_REQ to the first packet

The two ends of a tunnel together: the server leases an address and answers with it, the client
configures its device from the answer, and the server sends what comes for that address.

* `configuredDev`   the device that the client publishes, field by field;
* `Tunnelled`       its address is the client's own, in the subnet of the server, and packets to it
                    are sent on the connection of that client for as long as it is up, as long as no
                    disconnect takes the handle out of its record;
* `handshake`       it is so when the client is answered from its own record.
-/

set_option linter.unusedSectionVars false

namespace QuicVpn
open Conc

/-! ## the device of the client -/

/-- the device after `configCalls`, when every tested call has returned `0` -/
def configuredDev (h : Host) (s : ClientSession) (raw : PktCtrl) : TunDev where
  tunFd := h.fd
  stsFlags := tunStateReady
  ifname := some h.unit
  ip := ConfigResp.ip.get raw
  mask := ConfigResp.mask.get raw
  dns1 := ConfigResp.dns1.get raw
  dns2 := ConfigResp.dns2.get raw
  mtu := ntohs (ConfigResp.mtu.get raw)
  privData := true
  link :=
    { fdOpen := true
      up := true
      dns := some (ConfigResp.dns1.get raw, ConfigResp.dns2.get raw)
      domain := true
      routes := [netCidr (ConfigResp.ip.get raw) (ConfigResp.mask.get raw), "128.0.0.0/1",
        "0.0.0.0/1"]
      rules := if s.serverPort ≠ 0 ∧ h.nftAdd = 0 then
          some (killSwitchRules ("tun" ++ toString h.unit) s.wanIfname s.serverIpStr s.serverPort)
        else none }

section
variable {h : Host} {d : TunDev}

theorem run_openDev (hw : TunCall.openDev.Works h) : (TunCall.run h .openDev d).2 =
    { d with
      tunFd := h.fd, link := { d.link with fdOpen := true }, ifname := some h.unit,
      privData := true, stsFlags := d.stsFlags ||| tunStateOpen } := by
  obtain ⟨h1, h2, h3, h4⟩ := hw
  simp [TunCall.run, tunOpen, setFlagsOn, sysTunOpen, h1, h2, h3, h4]

theorem run_setAddr (hd : d.Opened) {ip mask : InAddr} (hw : (TunCall.setAddr ip mask).Works h) :
    (TunCall.run h (.setAddr ip mask) d).2 =
      { d with ip := ip, mask := mask, stsFlags := d.stsFlags ||| tunStateAddrSet } := by
  have hn : d.ifname ≠ none := Option.isSome_iff_ne_none.mp hd.1
  obtain ⟨h1, h2, h3⟩ := hw
  simp [TunCall.run, tunSetAddr, setFlagsOn, sysTunSetAddress, h1, h2, h3, hn]

theorem run_setMtu (hd : d.Opened) {mtu : BitVec 16} (hw : (TunCall.setMtu mtu).Works h) :
    (TunCall.run h (.setMtu mtu) d).2 =
      { d with mtu := mtu, stsFlags := d.stsFlags ||| tunStateMtuSet } := by
  have hn : d.ifname ≠ none := Option.isSome_iff_ne_none.mp hd.1
  obtain ⟨h1, h2, h3, h4⟩ := hw
  simp [TunCall.run, tunSetMtu, setFlagsOn, sysTunSetMtu, h3, h4, hn, Nat.not_lt.mpr h1,
    Nat.not_lt.mpr h2]

theorem run_setUp (hd : d.Opened) (hw : TunCall.setUp.Works h) : (TunCall.run h .setUp d).2 =
    { d with link := { d.link with up := true }, stsFlags := d.stsFlags ||| tunStateUp } := by
  have hn : d.ifname ≠ none := Option.isSome_iff_ne_none.mp hd.1
  obtain ⟨h1, h2, h3⟩ := hw
  simp [TunCall.run, tunSetUp, setFlagsOn, sysTunSetUp, TunDev.onLink, h1, h2, h3, hn]

/-- its code is not tested, and there were no rules yet -/
theorem run_rulesClear (hr : d.link.rules = none) : (TunCall.run h .rulesClear d).2 = d := by
  have hlink : { d.link with rules := none } = d.link := by rw [← hr]
  show (tunRulesClear h d).2 = d
  unfold tunRulesClear
  split_ifs
  · rfl
  · rfl
  · rfl
  · show { d with link := { d.link with rules := none } } = d
    rw [hlink]

theorem run_setDns (hd : d.Opened) {dns1 dns2 : InAddr} (hw : (TunCall.setDns dns1 dns2).Works h) :
    (TunCall.run h (.setDns dns1 dns2) d).2 =
      { d with
        dns1 := dns1, dns2 := dns2, stsFlags := d.stsFlags ||| tunStateDnsSet,
        link := { d.link with dns := some (dns1, dns2), domain := true } } := by
  have hn : d.ifname ≠ none := Option.isSome_iff_ne_none.mp hd.1
  obtain ⟨h1, h2⟩ := hw
  simp [TunCall.run, tunSetDns, setFlagsOn, sysTunSetDns, TunDev.onLink, h1, h2, hn, hd.2]

theorem run_addRoute (hd : d.Opened) {cidr : String} (hw : (TunCall.addRoute cidr).Works h) :
    (TunCall.run h (.addRoute cidr) d).2 =
      { d with link := { d.link with routes := cidr :: d.link.routes } } := by
  have hn : d.ifname ≠ none := Option.isSome_iff_ne_none.mp hd.1
  obtain ⟨h1, h2⟩ := hw
  simp [TunCall.run, tunAddRoute, sysTunAddRoute, TunDev.onLink, h1, h2, hn, hd.2]

/-- nor is that of the kill switch, which is there when it could be set up -/
theorem run_killSwitch (hd : d.Opened) (hr : d.link.rules = none) {s : ClientSession} :
    (TunCall.run h (killSwitch s) d).2 = { d with
      link := { d.link with
        rules := if s.serverPort ≠ 0 ∧ h.nftAdd = 0 then
            some (killSwitchRules (ifnameText d) s.wanIfname s.serverIpStr s.serverPort)
          else none } } := by
  have hlink : { d.link with rules := none } = d.link := by rw [← hr]
  have hp : ¬ d.privData = false := Bool.not_eq_false _ ▸ hd.2
  show (sytClientRulesAddNft h s.wanIfname s.serverIpStr s.serverPort d).2 = _
  unfold sytClientRulesAddNft
  rw [if_neg hp]
  by_cases hport : s.serverPort = 0
  · rw [if_pos hport, if_neg fun hc => hc.1 hport, hlink]
  · by_cases hnft : h.nftAdd = 0
    · rw [if_neg hport, if_neg fun hc => hc hnft, if_pos ⟨hport, hnft⟩]
      rfl
    · rw [if_neg hport, if_pos hnft, if_neg fun hc => hnft hc.2, hlink]

end

/-- **The device.**  A configuration that comes to its end has set every field from the response. -/
theorem configDev_state {h : Host} {s : ClientSession} {raw : PktCtrl}
    (hok : (configDev h s raw).ok = true) :
    (configDev h s raw).state = configuredDev h s raw := by
  have hw : ∀ c ∈ configCalls s raw, c.tested = true → c.Works h := configDev_ok_iff.mp hok
  simp only [configCalls, List.forall_mem_cons] at hw
  obtain ⟨hopen, haddr, hmtu, hup, -, hdns, hroute1, hroute2, hroute3, -⟩ := hw
  have hstart : ∀ d : TunDev, (TunCall.run h .start d).2 = d := tunStart_dev
  have hflags : tunCreate.stsFlags ||| tunStateOpen ||| tunStateAddrSet ||| tunStateMtuSet |||
      tunStateUp ||| tunStateDnsSet = tunStateReady := by decide
  rw [configDev, attempt_state hok]
  simp only [configCalls, List.foldl_cons, List.foldl_nil]
  rw [run_openDev (hopen rfl), run_setAddr ⟨rfl, rfl⟩ (haddr rfl), run_setMtu ⟨rfl, rfl⟩ (hmtu rfl),
    run_setUp ⟨rfl, rfl⟩ (hup rfl), run_rulesClear rfl, run_setDns ⟨rfl, rfl⟩ (hdns rfl),
    run_addRoute ⟨rfl, rfl⟩ (hroute1 rfl), run_addRoute ⟨rfl, rfl⟩ (hroute2 rfl),
    run_addRoute ⟨rfl, rfl⟩ (hroute3 rfl), run_killSwitch ⟨rfl, rfl⟩ rfl, hstart]
  dsimp only
  rw [hflags]
  rfl

/-- what the client publishes: the device that the response describes -/
theorem clientProcessCtrlPkt_configured {h : Host} {cs : ClientSession} {resp : PktCtrl}
    (hr : IsConfigResp resp) (hc : Configures h cs resp) :
    ∃ p, (clientProcessCtrlPkt h cs resp).session.tun = some p ∧
      (clientProcessCtrlPkt h cs resp).session.tunState = .ready ∧
      (clientProcessCtrlPkt h cs resp).session.mem p = configuredDev h cs resp := by
  obtain ⟨p, hp⟩ := Option.isSome_iff_exists.mp hc.1
  have hok : (configDev h cs resp).ok = true := configDev_ok_iff.mpr hc.2
  have hrun : clientProcessCtrlPkt h cs resp =
      ⟨0, { cs.setDev p (configDev h cs resp).state with tun := some p, tunState := .ready },
        clientPkt resp, true, some p, (configDev h cs resp).trace⟩ :=
    (clientProcessCtrlPkt_of_configResp hr h cs).trans (processConfigResp_ok hp hok)
  refine ⟨p, by rw [hrun], by rw [hrun], ?_⟩
  rw [hrun, ← configDev_state hok]
  exact Function.update_self ..

/-! ## the subnet -/

/-- the addresses of the table are in the subnet of the server -/
theorem IpPool.Subnet.same_net {p : IpPool} {tun : TunIface} {n : ℕ} (h : p.Subnet tun n) {i : ℕ}
    (hi : i < p.maxClients) : (p.ipEntry i).ip &&& tun.mask = tunGetNet tun := by
  rw [h.maxClients] at hi
  have hnet := ntohl_tunGetNet h.mask
  have hpos : 0 < 2 ^ (32 - n) := Nat.two_pow_pos _
  have e : ntohl ((p.ipEntry i).ip &&& tun.mask) = ntohl (tunGetNet tun) := by
    refine BitVec.eq_of_toNat_eq ?_
    rw [h.ip, ntohl_and, ntohl_htonl, h.mask, and_prefixMask, netHost_add h.mask i hi, hnet,
      Nat.add_comm, Nat.add_mul_div_right _ _ hpos, Nat.div_eq_of_lt hi, Nat.zero_add]
  rw [← ntohl_ntohl (_ &&& _), e, ntohl_ntohl]

/-! ## both ends -/

section
variable {K : Type} [Fintype K] [DecidableEq K]

/-- the client of the connection `k` has the device `e`: it is configured as the device `dev` of the
server and the entry `i` say, and `thread_pkt_data_send` sends packets for it on the connection `k` as
long as `k` is up and every `SHUTDOWN_COMPLETE` writes to a record that no other client has -/
structure Tunnelled (tun : TunIface) (s : Server K) (k : K) (i : ℕ) (dev e : TunDev) : Prop where
  ip : e.ip = (s.session.ipPool.ipEntry i).ip
  mask : e.mask = tun.mask
  mtu : e.mtu = dev.mtu
  subnet : e.ip &&& e.mask = tunGetNet tun
  free : ¬ tun.Reserved e.ip
  routes : e.link.routes = [netCidr tun.ip tun.mask, "128.0.0.0/1", "0.0.0.0/1"]
  delivered : ∀ l t, exec Server.step s l = some t → Along Server.step Server.RecordOk s l →
    ∀ b c, t.ph k = .live b c →
    ∀ ok pkt x, x.length ≤ datapktbuf → isIpv4 x = true → ipv4Dest x = e.ip →
      threadPktDataSend t.session true true ok pkt (some x) =
        .datagramSend (some k) x :: if ok then [] else [.poolPut]

section
variable {tun : TunIface} {n : ℕ} {s : Server K} {k : K} {b : Blk} {i : ℕ} {c : Bool}

/-- in every later state in which the client is up, the search for its address finds its record -/
theorem Server.Inv.search_later (hi : s.Inv tun n) (hk : s.ph k = .live b c)
    (he : (s.session.mem b).ipEntry = some i) {l : List (ConnAct K)} {t : Server K}
    (ht : exec Server.step s l = some t) {d : Blk} {c' : Bool} (hkt : t.ph k = .live d c') :
    ipClientSearch t.session.ipPool (s.session.ipPool.ipEntry i).ip = some d := by
  obtain ⟨hti, hheld⟩ := Server.Held.run hi (hi.held hk he) ht
  obtain ⟨rfl, hentry⟩ := hheld.live hkt
  have hclient := hti.live_entry hkt hentry
  have hlt := hti.ok.bound i (by rw [hclient]; exact Option.some_ne_none d)
  rw [hi.subnet.ip, ← hti.subnet.ip, ipClientSearch_entry hti.subnet hti.ok hlt]
  exact hclient

/-- **The handshake.**  When the server answers the CONFIG_REQ of a client that has an address from
the record of that client, and the host of the client lets every tested call succeed, the client
publishes a device with the address that the server has leased to it: in the subnet of the server, and
the one that the server sends its packets to for as long as it is connected. -/
theorem handshake {session : Session K} (h0 : session.Fresh tun n) {l : List (ConnAct K)}
    (hs : exec Server.step (Server.init session) l = some s)
    (hrec : Along Server.step Server.RecordOk (Server.init session) l) (hk : s.ph k = .live b c)
    (he : (s.session.mem b).ipEntry = some i) {l' : List (ConnAct K)} {t : Server K}
    (ht : exec Server.step s l' = some t) (hkt : t.ph k = .live b c) {dev : TunDev}
    (hdev : dev.mask = tun.mask) {calloc : Bool} {raw req resp : PktCtrl}
    (ha : serverProcessCtrlPktAcross calloc (some dev) s.session t.session b raw =
      .responded req b (some resp))
    {h : Host} {cs : ClientSession} (hc : Configures h cs resp) :
    ∃ p, (clientProcessCtrlPkt h cs resp).session.tun = some p ∧
      (clientProcessCtrlPkt h cs resp).session.tunState = .ready ∧
      Tunnelled tun s k i dev ((clientProcessCtrlPkt h cs resp).session.mem p) := by
  obtain ⟨hi, hh⟩ := Server.reach_handles h0 hs hrec
  have hip := hi.answered_own hk he ht hkt ha rfl
  obtain ⟨-, j, -, hresp⟩ := serverProcessCtrlPktAcross_responded ha
  rw [pktCtrlCreateConfigResp, eq_comm, Option.ite_none_right_eq_some] at hresp
  obtain ⟨-, hresp⟩ := hresp
  have hfill : fillConfigResp (s.session.mem b).uid 0 dev.mtu (t.session.ipPool.ipEntry j).ip
      dev.mask dev.dns1 dev.dns2 = resp := Option.some.inj hresp
  have hclient := hi.live_entry hk he
  have hlt := hi.ok.bound i (by rw [hclient]; exact Option.some_ne_none b)
  -- the client takes the frame for a response, and comes to the end of the configuration
  have hr : IsConfigResp resp := hfill ▸ fillConfigResp_isConfigResp ..
  obtain ⟨p, htun, hready, hmem⟩ := clientProcessCtrlPkt_configured hr hc
  -- what the server has put into the frame
  obtain ⟨-, hmtu, -, hmask, -, -⟩ := fillConfigResp_body (s.session.mem b).uid 0 dev.mtu
    (t.session.ipPool.ipEntry j).ip dev.mask dev.dns1 dev.dns2
  rw [hfill] at hmtu hmask
  have hnet : (s.session.ipPool.ipEntry i).ip &&& tun.mask = tunGetNet tun :=
    hi.subnet.same_net hlt
  refine ⟨p, htun, hready, ?_⟩
  rw [hmem]
  refine ⟨hip, hmask.trans hdev, ?_, ?_, ?_, ?_, ?_⟩
  · show ntohs (ConfigResp.mtu.get resp) = dev.mtu
    rw [hmtu, ntohs_htons]
  · show ConfigResp.ip.get resp &&& ConfigResp.mask.get resp = tunGetNet tun
    rw [hip, hmask, hdev, hnet]
  · show ¬ tun.Reserved (ConfigResp.ip.get resp)
    rw [hip]
    exact hi.ok.not_reserved hclient
  · show [netCidr (ConfigResp.ip.get resp) (ConfigResp.mask.get resp), _, _] = _
    rw [hip, hmask, hdev, netCidr, hnet]
    rfl
  · intro l'' v hv hvrec d' c' hkv ok pkt x hx h4 hdest
    -- the record that the search finds has the handle of its client
    have hhandle : (v.session.mem d').connectionHandle = some k := by
      refine (Server.handles_run hi hh hv hvrec).2 k d' ?_
      rw [hkv]
      rfl
    rw [← hhandle]
    refine threadPktDataSend_some hx h4 ?_
    rw [hdest]
    show ipClientSearch v.session.ipPool (ConfigResp.ip.get resp) = some d'
    rw [hip]
    exact hi.search_later hk he hv hkv

end

end

/-- a host that does everything it is asked for configures a device from any usual response -/
theorem willingHost_configures {cs : ClientSession} {raw : PktCtrl}
    (hv : validateMask (ConfigResp.mask.get raw) = true)
    (hlow : 256 ≤ (ntohs (ConfigResp.mtu.get raw)).toNat)
    (hhigh : (ntohs (ConfigResp.mtu.get raw)).toNat ≤ 1380) : Configures willingHost cs raw := by
  refine ⟨rfl, fun c hc ht => ?_⟩
  simp only [configCalls, List.mem_cons, List.not_mem_nil, or_false] at hc
  rcases hc with rfl | rfl | rfl | rfl | rfl | rfl | rfl | rfl | rfl | rfl | rfl
  · exact ⟨rfl, rfl, rfl, rfl⟩
  · exact ⟨hv, rfl, rfl⟩
  · exact ⟨hlow, hhigh, rfl, rfl⟩
  · exact ⟨rfl, rfl, rfl⟩
  · rfl
  · exact ⟨rfl, rfl⟩
  · exact ⟨by decide, rfl⟩
  · exact ⟨by decide, rfl⟩
  · exact ⟨netCidr_ne_empty _ hv, rfl⟩
  · exact absurd ht Bool.false_ne_true
  · trivial

/-- the device of the server on `10.8.0.1/30` -/
def serverDev : TunDev :=
  { tunCreate with ip := 0x0100080a, mask := 0xfcffffff, dns1 := 0x08080808, mtu := 1300 }

/-- the client that came after another gets its device -/
theorem handshake_second : ∃ s p resp,
    exec Server.step (Server.init (fourSlots (Option Bool))) oneAfterAnother = some s ∧
      (clientProcessCtrlPkt willingHost newSession resp).session.tun = some p ∧
      Tunnelled tunThirty s (some true) 2 serverDev
        ((clientProcessCtrlPkt willingHost newSession resp).session.mem p) := by
  obtain ⟨s, t, hs, ht, hk, he, hfind, hkt, het⟩ := oneAfterAnother_ends
  obtain ⟨resp, ha, hresp⟩ : ∃ resp,
      serverProcessCtrlPktAcross true (some serverDev) s.session t.session 100
          (fillConfigReq 0 0 none) =
        .responded (serverPkt (fillConfigReq 0 0 none)) 100 (some resp) ∧
      resp = fillConfigResp (s.session.mem 100).uid 0 serverDev.mtu
        (t.session.ipPool.ipEntry 2).ip serverDev.mask serverDev.dns1 serverDev.dns2 :=
    ⟨_, serverProcessCtrlPktAcross_found (fillConfigReq_isConfigReq 0 0 none) hfind het, rfl⟩
  obtain ⟨-, hmtu, -, hmask, -, -⟩ := fillConfigResp_body (s.session.mem 100).uid 0 serverDev.mtu
    (t.session.ipPool.ipEntry 2).ip serverDev.mask serverDev.dns1 serverDev.dns2
  rw [← hresp] at hmtu hmask
  have hc : Configures willingHost newSession resp := by
    apply willingHost_configures
    · rw [hmask]
      decide
    · rw [hmtu, ntohs_htons]
      decide
    · rw [hmtu, ntohs_htons]
      decide
  have hmask' : serverDev.mask = tunThirty.mask := rfl
  obtain ⟨p, hp, -, ht⟩ := handshake fourSlots_fresh hs (by decide) hk he ht hkt hmask' ha hc
  exact ⟨s, p, resp, hs, hp, ht⟩

end QuicVpn
