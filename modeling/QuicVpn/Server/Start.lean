import QuicVpn.Common.Rules
import QuicVpn.Server.Handshake

/-!
# The start of the server (`main`)

`main` makes the session, finds the interface to the outside, sets up the TUN device, the address pool,
the table of clients and MsQuic, starts the two threads and sleeps.  On the first failure it calls
`vpn_engine_cleanup`, which ends in `exit(0)`.

* `setupTunInterface`   `setup_tun_interface`, which publishes the device only at its end;
* `serverMain`          how `main` ends, for any answers of the host;
* `server_start`        a server that serves has its device, its rules and a fresh session;
* `serving_addresses`   what its clients have in every state that it reaches;
* `server_exit`         the exit status of one that does not, and when it leaves forwarding on.
-/

set_option linter.unusedSectionVars false

namespace QuicVpn
open Conc Conc.Nft

/-- `tun_ip` -/
def serverTunIp : InAddr := 0x010012ac

/-- `tun_netmask` -/
def serverTunNetmask : InAddr := 0x0000ffff

/-- what the server changes on its host: the device, `net.ipv4.ip_forward` and the tables -/
structure ServerHost where
  dev : TunDev
  forwarding : Bool
  tables : Tables

/-- the answers that `main` gets; those to the calls of the cleanup have their own fields -/
structure ServerEnv where
  /-- `create_session` -/
  session : Bool
  /-- `attach_signal` -/
  signal : Bool
  /-- `detect_default_wan`, and the name of the interface -/
  wan : Option IfName
  host : Host
  cleanupHost : Host
  nft : String → Tables → Option Tables
  junk : Char
  rulesClear : ScriptRun
  rulesAdd : ScriptRun
  cleanupRules : ScriptRun
  reset : ScriptRun
  forwardOn : ℤ
  forwardOff : ℤ
  callocPool : Bool
  callocEntry : Bool
  /-- the allocations of `init_client_manager` -/
  mallocList : Bool
  msquic : Bool
  sendThread : Bool
  recvThread : Bool

/-! ## the device -/

/-- the calls of `setup_tun_interface` on the device; `tun` are those that the client makes as well -/
inductive ServerTunCall where
  | tun (c : TunCall)
  | clearDns
  | getNetCidr
  | rulesClear
  | ipForwarding
  | serverRulesAdd (wanIf : IfName)

def ServerHost.withDev (n : ServerHost) (r : ℤ × TunDev) : ℤ × ServerHost := (r.1, { n with dev := r.2 })

def ServerHost.withTables (n : ServerHost) (r : ℤ × Tables) : ℤ × ServerHost :=
  (r.1, { n with tables := r.2 })

/-- `server_sys_tun_ip_forwarding` -/
def ServerHost.sysTunIpForwarding (n : ServerHost) (sysctl : ℤ) (enable : Bool) : ℤ × ServerHost :=
  if n.dev.privData = false then (einval, n)
  else if sysctl ≠ 0 then (sysctl, n)
  else (0, { n with forwarding := enable })

def ServerTunCall.run (e : ServerEnv) : ServerTunCall → ServerHost → ℤ × ServerHost
  | .tun c, n => n.withDev (c.run e.host n.dev)
  | .clearDns, n => n.withDev (tunClearDns e.host n.dev)
  | .getNetCidr, n => ((tunGetNetCidr (some n.dev) (some (List.replicate 20 CText.nul))).1, n)
  | .rulesClear, n => n.withTables
      (sysServerRulesDelNft e.nft n.dev.privData e.rulesClear e.junk (ifnameText n.dev) n.tables)
  | .ipForwarding, n => n.sysTunIpForwarding e.forwardOn true
  | .serverRulesAdd wanIf, n => n.withTables
      (sytServerRulesAddNft e.nft n.dev.privData e.rulesAdd e.junk (ifnameText n.dev) wanIf.name
        n.dev.ip n.dev.mask n.tables)

/-- the codes of `tun_clear_dns` and `tun_rules_clear` are dropped -/
def ServerTunCall.tested : ServerTunCall → Bool
  | .tun c => c.tested
  | .clearDns | .rulesClear => false
  | .getNetCidr | .ipForwarding | .serverRulesAdd _ => true

/-- the calls up to `tun_add_route` -/
def deviceCalls : List ServerTunCall :=
  [.tun .openDev, .tun (.setAddr serverTunIp serverTunNetmask), .tun (.setMtu 1380), .tun .setUp, .clearDns,
   .tun (.setDns 0x01010101 0x08080808), .getNetCidr, .rulesClear,
   .tun (.addRoute (netCidr serverTunIp serverTunNetmask))]

def setupTunCalls (wanIf : IfName) : List ServerTunCall :=
  deviceCalls ++ [.ipForwarding, .serverRulesAdd wanIf, .tun .start]

/-- `setup_tun_interface` -/
def setupTunInterface (e : ServerEnv) (wanIf : IfName) (n : ServerHost) :
    Tried ServerTunCall ServerHost :=
  if e.host.calloc = none then ⟨[], false, n⟩
  else attempt (ServerTunCall.run e) ServerTunCall.tested (setupTunCalls wanIf) { n with dev := tunCreate }

/-- `vpn_engine_cleanup`, what it does to a published device; no code is looked at -/
def ServerHost.cleanup (e : ServerEnv) (n : ServerHost) : ServerHost :=
  let n := { n with dev := (tunFlushRoutes e.cleanupHost n.dev).2 }
  let n := { n with dev := (tunClearDns e.cleanupHost n.dev).2 }
  let n := { n with
    tables := (sysServerRulesDelNft e.nft n.dev.privData e.cleanupRules e.junk (ifnameText n.dev)
      n.tables).2 }
  let n := { n with tables := (sysIptablesResetNft e.nft n.dev.privData e.reset n.tables).2 }
  let n := (n.sysTunIpForwarding e.forwardOff false).2
  { n with dev := (tunDestroy e.cleanupHost n.dev).2 }

/-! ## `main` -/

/-- how `main` ends: in its loop, with an exit status, or joining a thread that does not exist -/
inductive ServerEnd (K : Type) where
  | serving (host : ServerHost) (session : Session K)
  | exited (code : ℕ) (host : ServerHost)
  | undefined

section
variable {K : Type}

/-- the session with its address pool, before `init_client_manager` -/
def pooledSession (mem : Blk → Client K) (p : IpPool) : Session K where
  ipPool := p
  clientList := fun _ => none
  clientPool := ⟨0, 0, 0, 0, none, fun _ => none⟩
  clientCnt := 1
  mem := mem

/-- from `setup_ip_pool_manager` on, with a published device -/
def serverServe (e : ServerEnv) (mem : Blk → Client K) (n : ServerHost) : ServerEnd K :=
  match ipPoolCreate (some ⟨n.dev.ip, n.dev.mask⟩) e.callocPool e.callocEntry with
  | none => .exited 0 (n.cleanup e)
  | some p =>
    if e.mallocList = false then .exited 0 (n.cleanup e)
    else
      match initClientManager (pooledSession mem p) p.maxClients with
      | none => .exited 0 (n.cleanup e)
      | some s =>
        if e.msquic = false then .exited 0 (n.cleanup e)
        -- the flag of a thread is set before `pthread_create`, and the cleanup joins what is flagged
        else if (e.sendThread && e.recvThread) = false then .undefined
        else .serving n s

/-- `main`; without a session the cleanup returns, else it ends in `exit(0)` -/
def serverMain (e : ServerEnv) (mem : Blk → Client K) (n : ServerHost) : ServerEnd K :=
  if e.session = false then .exited 1 n
  else if e.signal = false then .exited 0 n
  else
    match e.wan with
    | none => .exited 0 n
    | some wanIf =>
      let t := setupTunInterface e wanIf n
      -- `session->tun` is not set, and the cleanup leaves the device as it is
      if t.ok = false then .exited 0 t.state else serverServe e mem t.state

end

/-! ## the device of a server that serves -/

/-- the device after `setup_tun_interface` -/
def servingDev (h : Host) : TunDev where
  tunFd := h.fd
  stsFlags := tunStateReady
  ifname := some h.unit
  ip := serverTunIp
  mask := serverTunNetmask
  dns1 := 0x01010101
  dns2 := 0x08080808
  mtu := 1380
  privData := true
  link := ⟨true, true, some (0x01010101, 0x08080808), true, [netCidr serverTunIp serverTunNetmask], none⟩

/-- the tables when the rules are added -/
def clearedTables (e : ServerEnv) (tables : Tables) : Tables :=
  (sysServerRulesDelNft e.nft true e.rulesClear e.junk (ifnameText (servingDev e.host)) tables).2

theorem tunClearDns_unset {h : Host} {d : TunDev} (hd : d.Opened) (hdns : d.link.dns = none)
    (hdom : d.link.domain = false) :
    (tunClearDns h d).2 = { d with stsFlags := d.stsFlags &&& ~~~tunStateDnsSet } := by
  have hn : d.ifname ≠ none := Option.isSome_iff_ne_none.mp hd.1
  have hl : d.onLink (fun l => { l with domain := false }) = d := by
    unfold TunDev.onLink
    rw [← hdom]
  have hl' : d.onLink (fun l => { l with dns := none }) = d := by
    unfold TunDev.onLink
    rw [← hdns]
  have hdrive : sysTunClearDns h d = (0, d) := by
    unfold sysTunClearDns
    rw [if_neg (by rintro (hc | hc); exacts [hn hc, Bool.false_ne_true (hc.symm.trans hd.2)]), hl, ite_self]
    dsimp only
    rw [hl', ite_self]
  unfold tunClearDns
  rw [hdrive]
  rfl

section
variable {e : ServerEnv} {n : ServerHost} {forwarding : Bool} {tables : Tables} {wanIf : IfName}

/-- a sequence that came to its end has made every tested call with success -/
theorem deviceCalls_works
    (hok : (attempt (ServerTunCall.run e) ServerTunCall.tested deviceCalls n).ok = true) :
    ∀ c, ServerTunCall.tun c ∈ deviceCalls → c.tested = true → c.Works e.host := by
  intro c hc ht
  rw [← attempt_calls hok] at hc
  obtain ⟨p, hp, hpc⟩ := List.mem_map.mp hc
  obtain ⟨t, -, hcode⟩ := attempt_trace (I := fun _ => True) (fun _ _ _ _ => trivial) trivial hp
  have hz : p.2 = 0 := (attempt_ok_iff _ _).mp hok p hp (by rw [hpc]; exact ht)
  rw [hcode, hpc] at hz
  exact c.run_zero hz

/-- the device and the tables after `tun_add_route` -/
theorem deviceCalls_state
    (hok : (attempt (ServerTunCall.run e) ServerTunCall.tested deviceCalls
      ⟨tunCreate, forwarding, tables⟩).ok = true) :
    (attempt (ServerTunCall.run e) ServerTunCall.tested deviceCalls ⟨tunCreate, forwarding, tables⟩).state =
      ⟨servingDev e.host, forwarding, clearedTables e tables⟩ := by
  have hw := deviceCalls_works hok
  have hopen : TunCall.openDev.Works e.host := hw _ (by simp [deviceCalls]) rfl
  have haddr := hw (.setAddr serverTunIp serverTunNetmask) (by simp [deviceCalls]) rfl
  have hmtu := hw (.setMtu 1380) (by simp [deviceCalls]) rfl
  have hup := hw .setUp (by simp [deviceCalls]) rfl
  have hdns := hw (.setDns 0x01010101 0x08080808) (by simp [deviceCalls]) rfl
  have hroute := hw (.addRoute (netCidr serverTunIp serverTunNetmask)) (by simp [deviceCalls]) rfl
  have hflags : (tunCreate.stsFlags ||| tunStateOpen ||| tunStateAddrSet ||| tunStateMtuSet |||
      tunStateUp) &&& ~~~tunStateDnsSet ||| tunStateDnsSet = tunStateReady := by decide
  rw [attempt_state hok]
  simp only [deviceCalls, List.foldl_cons, List.foldl_nil, ServerTunCall.run, ServerHost.withDev,
    ServerHost.withTables]
  rw [run_openDev hopen, run_setAddr ⟨rfl, rfl⟩ haddr, run_setMtu ⟨rfl, rfl⟩ hmtu,
    run_setUp ⟨rfl, rfl⟩ hup, tunClearDns_unset ⟨rfl, rfl⟩ rfl rfl, run_setDns ⟨rfl, rfl⟩ hdns,
    run_addRoute ⟨rfl, rfl⟩ hroute]
  dsimp only
  rw [hflags]
  rfl

theorem getNetCidr_code (hm : n.dev.mask = serverTunNetmask) :
    (ServerTunCall.run e .getNetCidr n).1 = 0 := by
  have hv : ¬ (!validateMask serverTunNetmask) = true := by decide
  show (tunGetNetCidr (some n.dev) (some (List.replicate 20 CText.nul))).1 = 0
  unfold tunGetNetCidr inAddrToCidrInto
  dsimp only
  rw [hm, if_neg hv]

/-- it comes to its end when the calls of the device work -/
theorem deviceCalls_ok
    (hw : ∀ c, ServerTunCall.tun c ∈ deviceCalls → c.tested = true → c.Works e.host) :
    (attempt (ServerTunCall.run e) ServerTunCall.tested deviceCalls
      ⟨tunCreate, forwarding, tables⟩).ok = true := by
  have hopen : TunCall.openDev.Works e.host := hw _ (by simp [deviceCalls]) rfl
  have haddr := hw (.setAddr serverTunIp serverTunNetmask) (by simp [deviceCalls]) rfl
  have hmtu := hw (.setMtu 1380) (by simp [deviceCalls]) rfl
  have hup := hw .setUp (by simp [deviceCalls]) rfl
  have hdns := hw (.setDns 0x01010101 0x08080808) (by simp [deviceCalls]) rfl
  have hroute := hw (.addRoute (netCidr serverTunIp serverTunNetmask)) (by simp [deviceCalls]) rfl
  have hgo : ∀ {c : TunCall} {l : List ServerTunCall} {n : ServerHost} {d : TunDev},
      (c.run e.host n.dev).1 = 0 → (c.run e.host n.dev).2 = d →
      (attempt (ServerTunCall.run e) ServerTunCall.tested l { n with dev := d }).ok = true →
      (attempt (ServerTunCall.run e) ServerTunCall.tested (.tun c :: l) n).ok = true := by
    rintro c l n d hz rfl hl
    have hz' : (ServerTunCall.run e (.tun c) n).1 = 0 := hz
    rw [attempt_cons_go fun h => h.2 hz']
    exact hl
  unfold deviceCalls
  refine hgo (tunOpen_opened hopen).1 (run_openDev hopen) ?_
  refine hgo (TunCall.run_works TunCall.noConfusion ⟨rfl, rfl⟩ haddr) (run_setAddr ⟨rfl, rfl⟩ haddr) ?_
  refine hgo (TunCall.run_works TunCall.noConfusion ⟨rfl, rfl⟩ hmtu) (run_setMtu ⟨rfl, rfl⟩ hmtu) ?_
  refine hgo (TunCall.run_works TunCall.noConfusion ⟨rfl, rfl⟩ hup) (run_setUp ⟨rfl, rfl⟩ hup) ?_
  rw [attempt_cons_go fun h => Bool.false_ne_true h.1]
  dsimp only [ServerTunCall.run, ServerHost.withDev]
  rw [tunClearDns_unset ⟨rfl, rfl⟩ rfl rfl]
  refine hgo (TunCall.run_works TunCall.noConfusion ⟨rfl, rfl⟩ hdns) (run_setDns ⟨rfl, rfl⟩ hdns) ?_
  rw [attempt_cons_go fun h => h.2 (getNetCidr_code rfl), attempt_cons_go fun h => Bool.false_ne_true h.1]
  exact hgo (TunCall.run_works TunCall.noConfusion ⟨rfl, rfl⟩ hroute) rfl rfl

theorem deviceCalls_keep {c : ServerTunCall} (hc : c ∈ deviceCalls) :
    (c.run e n).2.forwarding = n.forwarding := by
  simp only [deviceCalls, List.mem_cons, List.not_mem_nil, or_false] at hc
  rcases hc with rfl | rfl | rfl | rfl | rfl | rfl | rfl | rfl | rfl <;> rfl

/-- `tun_server_rules_add` on the device -/
def rulesAdded (e : ServerEnv) (wanIf : IfName) (tables : Tables) : ℤ × Tables :=
  sytServerRulesAddNft e.nft true e.rulesAdd e.junk (ifnameText (servingDev e.host)) wanIf.name serverTunIp
    serverTunNetmask tables

/-- the three calls behind `tun_add_route`; `tun_start` does not fail -/
theorem rulesCalls_eq (e : ServerEnv) (wanIf : IfName) (forwarding : Bool) (tables : Tables) :
    attempt (ServerTunCall.run e) ServerTunCall.tested [.ipForwarding, .serverRulesAdd wanIf, .tun .start]
        ⟨servingDev e.host, forwarding, tables⟩ =
      if e.forwardOn ≠ 0 then
        ⟨[(.ipForwarding, e.forwardOn)], false, ⟨servingDev e.host, forwarding, tables⟩⟩
      else if (rulesAdded e wanIf tables).1 ≠ 0 then
        ⟨[(.ipForwarding, 0), (.serverRulesAdd wanIf, (rulesAdded e wanIf tables).1)], false,
          ⟨servingDev e.host, true, (rulesAdded e wanIf tables).2⟩⟩
      else
        ⟨[(.ipForwarding, 0), (.serverRulesAdd wanIf, 0), (.tun .start, 0)], true,
          ⟨servingDev e.host, true, (rulesAdded e wanIf tables).2⟩⟩ := by
  have hpriv : ¬ (servingDev e.host).privData = false := Bool.true_eq_false.mp
  have hforward : ServerTunCall.run e .ipForwarding ⟨servingDev e.host, forwarding, tables⟩ =
      if e.forwardOn ≠ 0 then (e.forwardOn, ⟨servingDev e.host, forwarding, tables⟩)
      else (0, ⟨servingDev e.host, true, tables⟩) := by
    dsimp only [ServerTunCall.run, ServerHost.sysTunIpForwarding]
    rw [if_neg hpriv]
  by_cases h1 : e.forwardOn = 0
  · rw [if_neg (not_not.mpr h1)] at hforward ⊢
    have hrules : ServerTunCall.run e (.serverRulesAdd wanIf) ⟨servingDev e.host, true, tables⟩ =
        ((rulesAdded e wanIf tables).1, ⟨servingDev e.host, true, (rulesAdded e wanIf tables).2⟩) := rfl
    rw [attempt_cons_go (by rw [hforward]; exact fun h => h.2 rfl), hforward]
    by_cases h2 : (rulesAdded e wanIf tables).1 = 0
    · have hstart : ServerTunCall.run e (.tun .start)
          ⟨servingDev e.host, true, (rulesAdded e wanIf tables).2⟩ =
          (0, ⟨servingDev e.host, true, (rulesAdded e wanIf tables).2⟩) := by
        have hflags : ¬ tunStateReady &&& tunStateReady ≠ tunStateReady := by decide
        show ServerHost.withDev _ (tunStart (servingDev e.host)) = _
        unfold tunStart servingDev
        rw [if_neg hflags]
        rfl
      rw [if_neg (not_not.mpr h2), attempt_cons_go (by rw [hrules]; exact fun h => h.2 h2), hrules,
        attempt_cons_go (by rw [hstart]; exact fun h => h.2 rfl), hstart, h2]
      rfl
    · rw [if_pos h2, attempt_cons_fail (by rw [hrules]; exact ⟨rfl, h2⟩), hrules]
  · rw [if_pos h1] at hforward ⊢
    rw [attempt_cons_fail (by rw [hforward]; exact ⟨rfl, h1⟩), hforward]

/-- the host answers so that `setup_tun_interface` comes to its end -/
structure ServerEnv.SetsUp (e : ServerEnv) (wanIf : IfName) (tables : Tables) : Prop where
  calloc : e.host.calloc ≠ none
  device : ∀ c, ServerTunCall.tun c ∈ deviceCalls → c.tested = true → c.Works e.host
  forward : e.forwardOn = 0
  rules : (rulesAdded e wanIf (clearedTables e tables)).1 = 0

/-- `nft` does not take the rules, and everything before them works -/
structure ServerEnv.RulesRefused (e : ServerEnv) (wanIf : IfName) (tables : Tables) : Prop where
  calloc : e.host.calloc ≠ none
  device : ∀ c, ServerTunCall.tun c ∈ deviceCalls → c.tested = true → c.Works e.host
  forward : e.forwardOn = 0
  refused : (rulesAdded e wanIf (clearedTables e tables)).1 ≠ 0

/-- how `setup_tun_interface` ends: before the rules, at the rules, or well -/
theorem setupTunInterface_cases (e : ServerEnv) (wanIf : IfName) (forwarding : Bool) (tables : Tables) :
    let t := setupTunInterface e wanIf ⟨tunCreate, forwarding, tables⟩
    (t.ok = false ∧ ¬ e.SetsUp wanIf tables ∧ ¬ e.RulesRefused wanIf tables ∧
      t.state.forwarding = forwarding) ∨
    (t.ok = false ∧ ¬ e.SetsUp wanIf tables ∧ e.RulesRefused wanIf tables ∧
      t.state.forwarding = true) ∨
    (t.ok = true ∧ e.SetsUp wanIf tables ∧ ¬ e.RulesRefused wanIf tables ∧
      t.state = ⟨servingDev e.host, true, (rulesAdded e wanIf (clearedTables e tables)).2⟩) := by
  intro t
  by_cases hc : e.host.calloc = none
  · have ht : t = ⟨[], false, ⟨tunCreate, forwarding, tables⟩⟩ := if_pos hc
    rw [ht]
    exact .inl ⟨rfl, fun h => h.calloc hc, fun h => h.calloc hc, rfl⟩
  have ht : t = attempt (ServerTunCall.run e) ServerTunCall.tested (setupTunCalls wanIf)
      ⟨tunCreate, forwarding, tables⟩ := if_neg hc
  cases hok : (attempt (ServerTunCall.run e) ServerTunCall.tested deviceCalls
      ⟨tunCreate, forwarding, tables⟩).ok with
  | false =>
    rw [setupTunCalls, attempt_append_fail hok] at ht
    rw [ht]
    have hno : ¬ ∀ c, ServerTunCall.tun c ∈ deviceCalls → c.tested = true → c.Works e.host := by
      intro h
      rw [deviceCalls_ok h] at hok
      exact Bool.true_eq_false.mp hok
    refine .inl ⟨hok, fun h => hno h.device, fun h => hno h.device, ?_⟩
    exact attempt_inv (I := fun n : ServerHost => n.forwarding = forwarding)
      (fun c hc n hn => (deviceCalls_keep hc).trans hn) rfl
  | true =>
    have hrest := rulesCalls_eq e wanIf forwarding (clearedTables e tables)
    rw [setupTunCalls, attempt_append hok, deviceCalls_state hok, hrest] at ht
    by_cases h1 : e.forwardOn = 0
    · rw [if_neg (not_not.mpr h1)] at ht
      by_cases h2 : (rulesAdded e wanIf (clearedTables e tables)).1 = 0
      · rw [if_neg (not_not.mpr h2)] at ht
        rw [ht]
        exact .inr (.inr ⟨rfl, ⟨hc, deviceCalls_works hok, h1, h2⟩, fun h => h.refused h2, rfl⟩)
      · rw [if_pos h2] at ht
        rw [ht]
        exact .inr (.inl ⟨rfl, fun h => h2 h.rules, ⟨hc, deviceCalls_works hok, h1, h2⟩, rfl⟩)
    · rw [if_pos h1] at ht
      rw [ht]
      exact .inl ⟨rfl, fun h => h1 h.forward, fun h => h1 h.forward, rfl⟩

/-! ## the rules -/

theorem ifnameText_ne_empty (h : Host) : ifnameText (servingDev h) ≠ "" := by
  intro hc
  have hlen := congrArg String.length hc
  change ("tun" ++ toString h.unit).length = 0 at hlen
  rw [String.length_append] at hlen
  exact absurd (Nat.eq_zero_of_add_eq_zero_right hlen) (by decide)

/-- an `nft` that understands the rules takes them -/
theorem rulesAdded_code {tun : IfName} (ht : tun.name = ifnameText (servingDev e.host))
    (hadd : Understands e.nft (.table (serverNatTable tun.name wanIf.name serverTunIp 16)))
    (ha : e.rulesAdd = .ran) : (rulesAdded e wanIf tables).1 = 0 := by
  have hones : OnesThenZeros (ntohl serverTunNetmask) 16 := onesThenZeros_iff.mpr (by decide)
  unfold rulesAdded
  rw [← ht, @serverRulesAdd_eq e.nft e.rulesAdd e.junk tun wanIf serverTunIp serverTunNetmask 16
    (by decide) hones, ha]
  simp only [runNftScript, hadd tables]

/-- once `nft` has run both scripts the table of the server is the last one, and the only one of its name -/
theorem rulesAdded_tables {tun : IfName} (ht : tun.name = ifnameText (servingDev e.host))
    (hdel : Understands e.nft (.destroy ("vpn_" ++ tun.name)))
    (hadd : Understands e.nft (.table (serverNatTable tun.name wanIf.name serverTunIp 16)))
    (hr : e.rulesClear.reached = true) (ha : e.rulesAdd.reached = true) :
    (rulesAdded e wanIf (clearedTables e tables)).2 =
      tables.filter (fun t => t.name ≠ "vpn_" ++ tun.name) ++
        [serverNatTable tun.name wanIf.name serverTunIp 16] := by
  have hones : OnesThenZeros (ntohl serverTunNetmask) 16 := onesThenZeros_iff.mpr (by decide)
  have hne : tun.name ≠ "" := ht ▸ ifnameText_ne_empty e.host
  have hcl : clearedTables e tables = tables.filter fun t => t.name ≠ "vpn_" ++ tun.name := by
    unfold clearedTables
    rw [← ht, @serverRulesDel_eq e.nft e.rulesClear e.junk tun wanIf serverTunIp 16 hne tables]
    refine (runNftScript_understood hdel _ _).trans ?_
    rw [hr, if_pos rfl]
    rfl
  have hnew : (serverNatTable tun.name wanIf.name serverTunIp 16).name ∉
      (tables.filter fun t => t.name ≠ "vpn_" ++ tun.name).map Table.name := by
    rw [List.mem_map]
    rintro ⟨t, hmem, hname⟩
    exact of_decide_eq_true (List.mem_filter.mp hmem).2 hname
  unfold rulesAdded
  rw [← ht, @serverRulesAdd_eq e.nft e.rulesAdd e.junk tun wanIf serverTunIp serverTunNetmask 16
    (by decide) hones, runNftScript_understood hadd, ha, if_pos rfl, hcl]
  exact addTable_of_notMem hnew

end

/-! ## the cleanup -/

section
variable {h : Host} {d : TunDev} {e : ServerEnv} {n : ServerHost}

end

/-! ## `main` -/

/-- the host answers so that `main` comes to its loop -/
structure ServerEnv.Starts (e : ServerEnv) (tables : Tables) : Prop where
  session : e.session = true
  signal : e.signal = true
  device : ∃ wanIf, e.wan = some wanIf ∧ e.SetsUp wanIf tables
  memory : e.callocPool = true ∧ e.callocEntry = true ∧ e.mallocList = true
  msquic : e.msquic = true
  threads : e.sendThread = true ∧ e.recvThread = true

/-- the device as the address pool sees it -/
def serverTun : TunIface := ⟨serverTunIp, serverTunNetmask⟩

theorem serverTun_mask : ntohl serverTun.mask = prefixMask 16 := by decide

theorem serverTun_pool : ∃ p, ipPoolCreate (some serverTun) true true = some p :=
  (ipPoolCreate_ok (by decide) serverTun_mask).imp fun _ h => h.1

section
variable {K : Type} {e : ServerEnv} {mem : Blk → Client K} {n host : ServerHost} {session : Session K}
  {forwarding : Bool} {tables : Tables} {code : ℕ}

theorem initClientManager_some (s : Session K) (count : ℕ) :
    ∃ q, initClientManager s count = some { s with clientList := fun _ => none, clientPool := q } := by
  refine ⟨⟨sizeofClient, count, 0, 0, none, fun _ => none⟩, ?_⟩
  unfold initClientManager poolInit
  rw [if_neg (by decide), if_neg (by decide)]

/-- the session is the one that the runs of the callbacks start from -/
theorem pooledSession_fresh {p : IpPool} (hp : ipPoolCreate (some serverTun) true true = some p)
    (hq : initClientManager (pooledSession mem p) p.maxClients = some session) :
    session.Fresh serverTun 16 ∧ session.clientCnt = 1 := by
  obtain ⟨q, hq'⟩ := initClientManager_some (pooledSession mem p) p.maxClients
  have hsession := Option.some.inj (hq.symm.trans hq')
  have hpool : session.ipPool = p := by rw [hsession]; rfl
  refine ⟨⟨by decide, serverTun_mask, ⟨true, true, ?_⟩, ⟨pooledSession mem p, ?_⟩⟩, ?_⟩
  · rw [hpool]
    exact hp
  · rw [hpool]
    exact hq
  · rw [hsession]
    rfl

/-- `serverServe` serves when there is memory, MsQuic and the threads, and with a fresh session -/
theorem serverServe_serving (hd : n.dev = servingDev e.host) :
    serverServe e mem n = .serving host session ↔
      (e.callocPool = true ∧ e.callocEntry = true ∧ e.mallocList = true) ∧ e.msquic = true ∧
      (e.sendThread = true ∧ e.recvThread = true) ∧ host = n ∧
      ∃ p, ipPoolCreate (some serverTun) true true = some p ∧
        initClientManager (pooledSession mem p) p.maxClients = some session := by
  obtain ⟨p, hp⟩ := serverTun_pool
  obtain ⟨q, hq⟩ := initClientManager_some (pooledSession mem p) p.maxClients
  have htun : (⟨n.dev.ip, n.dev.mask⟩ : TunIface) = serverTun := by rw [hd]; rfl
  unfold serverServe
  rw [htun]
  by_cases hc : e.callocPool = true ∧ e.callocEntry = true
  · rw [hc.1, hc.2, hp]
    dsimp only
    rw [hq]
    dsimp only
    cases e.mallocList with
    | false =>
      rw [if_pos rfl]
      exact ⟨nofun, fun h => absurd h.1.2.2 Bool.false_ne_true⟩
    | true =>
      rw [if_neg Bool.true_eq_false.mp]
      cases e.msquic with
      | false =>
        rw [if_pos rfl]
        exact ⟨nofun, fun h => absurd h.2.1 Bool.false_ne_true⟩
      | true =>
        rw [if_neg Bool.true_eq_false.mp]
        by_cases ht : e.sendThread = true ∧ e.recvThread = true
        · rw [ht.1, ht.2, Bool.and_self, if_neg Bool.true_eq_false.mp, ServerEnd.serving.injEq]
          constructor
          · rintro ⟨rfl, rfl⟩
            exact ⟨⟨rfl, rfl, rfl⟩, rfl, ⟨rfl, rfl⟩, rfl, p, rfl, hq⟩
          · rintro ⟨-, -, -, rfl, p', hp', hq'⟩
            rw [← Option.some.inj hp', hq] at hq'
            exact ⟨rfl, Option.some.inj hq'⟩
        · have hand : (e.sendThread && e.recvThread) = false := by
            rw [← Bool.not_eq_true, Bool.and_eq_true]
            exact ht
          rw [if_pos hand]
          exact ⟨nofun, fun h => absurd h.2.2.1 ht⟩
  · have hnone : ipPoolCreate (some serverTun) e.callocPool e.callocEntry = none := by
      rw [Option.eq_none_iff_forall_ne_some]
      intro p hp
      simp only [ipPoolCreate, Option.ite_none_left_eq_some] at hp
      exact hc ⟨by simpa using hp.1, by simpa using hp.2.2.1⟩
    rw [hnone]
    dsimp only
    constructor
    · intro h
      cases h
    · rintro ⟨⟨h1, h2, -⟩, -⟩
      exact absurd ⟨h1, h2⟩ hc

/-- how far `main` comes: not to the device, or to the device and then as that came out -/
theorem serverMain_cases (e : ServerEnv) (mem : Blk → Client K) (n : ServerHost) :
    (e.session = false ∧ serverMain e mem n = .exited 1 n) ∨
    (e.session = true ∧ (e.signal = false ∨ e.wan = none) ∧ serverMain e mem n = .exited 0 n) ∨
    ∃ wanIf, e.session = true ∧ e.signal = true ∧ e.wan = some wanIf ∧
      serverMain e mem n =
        if (setupTunInterface e wanIf n).ok = false then .exited 0 (setupTunInterface e wanIf n).state
        else serverServe e mem (setupTunInterface e wanIf n).state := by
  unfold serverMain
  cases e.session with
  | false => exact .inl ⟨rfl, rfl⟩
  | true =>
    cases e.signal with
    | false => exact .inr (.inl ⟨rfl, .inl rfl, rfl⟩)
    | true =>
      cases e.wan with
      | none => exact .inr (.inl ⟨rfl, .inr rfl, rfl⟩)
      | some wanIf => exact .inr (.inr ⟨wanIf, rfl, rfl, rfl, rfl⟩)

/-- `main` serves when everything up to the device comes out well, and then what follows it -/
theorem serverMain_serving :
    serverMain e mem ⟨tunCreate, forwarding, tables⟩ = .serving host session ↔
      e.session = true ∧ e.signal = true ∧ ∃ wanIf, e.wan = some wanIf ∧ e.SetsUp wanIf tables ∧
        serverServe e mem ⟨servingDev e.host, true, (rulesAdded e wanIf (clearedTables e tables)).2⟩ =
          .serving host session := by
  rcases serverMain_cases e mem ⟨tunCreate, forwarding, tables⟩ with
    ⟨hs, hmain⟩ | ⟨hs, hno, hmain⟩ | ⟨wanIf, hs, hg, hw, hmain⟩
  · rw [hmain]
    exact ⟨nofun, fun h => absurd (hs.symm.trans h.1) Bool.false_ne_true⟩
  · rw [hmain]
    refine ⟨nofun, ?_⟩
    rintro ⟨-, hg, w, hw, -⟩
    rcases hno with hno | hno
    · exact absurd (hno.symm.trans hg) Bool.false_ne_true
    · exact absurd (hw.symm.trans hno) (Option.some_ne_none w)
  · rw [hmain]
    have hsame : ∀ {w}, e.wan = some w → w = wanIf := fun h => Option.some.inj (h.symm.trans hw)
    rcases setupTunInterface_cases e wanIf forwarding tables with
      ⟨hok, hno, -⟩ | ⟨hok, hno, -⟩ | ⟨hok, hup, -, hstate⟩
    · rw [if_pos hok]
      exact ⟨nofun, fun ⟨_, _, _, h, hup, _⟩ => absurd (hsame h ▸ hup) hno⟩
    · rw [if_pos hok]
      exact ⟨nofun, fun ⟨_, _, _, h, hup, _⟩ => absurd (hsame h ▸ hup) hno⟩
    · rw [hok, if_neg Bool.true_eq_false.mp, hstate]
      refine ⟨fun h => ⟨hs, hg, wanIf, hw, hup, h⟩, ?_⟩
      rintro ⟨-, -, w, h, -, hserve⟩
      rw [← hsame h]
      exact hserve

end

/-- **The start of the server.**  `main` comes to its loop exactly when the host answers so.  It then has
the device of its constants, with forwarding on; its session is the one that all runs of the callbacks
start from; and once `nft` has run its scripts the rules of the server stand behind those of the others. -/
theorem server_start {K : Type} (e : ServerEnv) (mem : Blk → Client K) (forwarding : Bool)
    (tables : Tables) :
    ((∃ host session, serverMain e mem ⟨tunCreate, forwarding, tables⟩ = .serving host session) ↔
      e.Starts tables) ∧
    ∀ host session, serverMain e mem ⟨tunCreate, forwarding, tables⟩ = .serving host session →
      host.dev = servingDev e.host ∧ host.forwarding = true ∧
      session.Fresh serverTun 16 ∧ session.clientCnt = 1 ∧
      ∀ tun wanIf : IfName, tun.name = ifnameText host.dev → e.wan = some wanIf →
        Understands e.nft (.destroy ("vpn_" ++ tun.name)) →
        Understands e.nft (.table (serverNatTable tun.name wanIf.name serverTunIp 16)) →
        e.rulesClear.reached = true → e.rulesAdd.reached = true →
        host.tables = tables.filter (fun t => t.name ≠ "vpn_" ++ tun.name) ++
          [serverNatTable tun.name wanIf.name serverTunIp 16] := by
  constructor
  · constructor
    · rintro ⟨host, session, h⟩
      obtain ⟨hs, hg, wanIf, hw, hup, hserve⟩ := serverMain_serving.mp h
      obtain ⟨hm, hq, ht, -⟩ := (serverServe_serving rfl).mp hserve
      exact ⟨hs, hg, ⟨wanIf, hw, hup⟩, hm, hq, ht⟩
    · intro h
      obtain ⟨wanIf, hw, hup⟩ := h.device
      obtain ⟨p, hp⟩ := serverTun_pool
      obtain ⟨q, hq⟩ := initClientManager_some (pooledSession mem p) p.maxClients
      exact ⟨_, _, serverMain_serving.mpr ⟨h.session, h.signal, wanIf, hw, hup,
        (serverServe_serving rfl).mpr ⟨h.memory, h.msquic, h.threads, rfl, p, hp, hq⟩⟩⟩
  · intro host session h
    obtain ⟨-, -, wanIf, hw, -, hserve⟩ := serverMain_serving.mp h
    obtain ⟨-, -, -, rfl, p, hp, hq⟩ := (serverServe_serving rfl).mp hserve
    obtain ⟨hfresh, hcnt⟩ := pooledSession_fresh hp hq
    refine ⟨rfl, rfl, hfresh, hcnt, fun tun w ht hw' hdel hadd hr ha => ?_⟩
    obtain rfl := Option.some.inj (hw.symm.trans hw')
    exact rulesAdded_tables ht hdel hadd hr ha

/-- everything works, and `nft` understands the two scripts of the start -/
def willingEnv : ServerEnv where
  session := true
  signal := true
  wan := some eth0
  host := willingHost
  cleanupHost := willingHost
  nft := nftOf [.table (serverNatTable tun0.name eth0.name serverTunIp 16), .destroy ("vpn_" ++ tun0.name)]
  junk := 'x'
  rulesClear := .ran
  rulesAdd := .ran
  cleanupRules := .ran
  reset := .ran
  forwardOn := 0
  forwardOff := 0
  callocPool := true
  callocEntry := true
  mallocList := true
  msquic := true
  sendThread := true
  recvThread := true

theorem willingHost_works (c : TunCall) (hc : ServerTunCall.tun c ∈ deviceCalls)
    (_ : c.tested = true) : c.Works willingHost := by
  have hv : validateMask serverTunNetmask = true := by decide
  simp only [deviceCalls, List.mem_cons, List.not_mem_nil, or_false, reduceCtorEq, false_or,
    ServerTunCall.tun.injEq] at hc
  rcases hc with rfl | rfl | rfl | rfl | rfl | rfl
  · exact ⟨rfl, rfl, rfl, rfl⟩
  · exact ⟨hv, rfl, rfl⟩
  · exact ⟨by decide, by decide, rfl, rfl⟩
  · exact ⟨rfl, rfl, rfl⟩
  · exact ⟨rfl, rfl⟩
  · exact ⟨netCidr_ne_empty _ hv, rfl⟩

theorem willingHost_name : ifnameText (servingDev willingHost) = tun0.name := by decide

theorem willingEnv_adds :
    Understands willingEnv.nft (.table (serverNatTable tun0.name eth0.name serverTunIp 16)) :=
  understands_head _ _

theorem willingEnv_starts (tables : Tables) : willingEnv.Starts tables := by
  have hrules : (rulesAdded willingEnv eth0 (clearedTables willingEnv tables)).1 = 0 :=
    rulesAdded_code willingHost_name.symm willingEnv_adds rfl
  exact ⟨rfl, rfl, ⟨eth0, rfl, ⟨nofun, willingHost_works, rfl, hrules⟩⟩, ⟨rfl, rfl, rfl⟩, rfl, rfl, rfl⟩

/-- the server comes up, and its table is there -/
theorem server_start_willing : ∃ host session,
    serverMain willingEnv (fun _ => (⟨none, 0, 0, none⟩ : Client Bool)) ⟨tunCreate, false, []⟩ =
      .serving host session ∧ session.Fresh serverTun 16 ∧
    host.tables = [serverNatTable tun0.name eth0.name serverTunIp 16] := by
  have hstart := server_start willingEnv (fun _ => (⟨none, 0, 0, none⟩ : Client Bool)) false []
  obtain ⟨host, session, h⟩ := hstart.1.mpr (willingEnv_starts [])
  obtain ⟨hdev, -, hfresh, -, hrules⟩ := hstart.2 host session h
  have hname : tun0.name = ifnameText host.dev := by
    rw [hdev]
    exact willingHost_name.symm
  exact ⟨host, session, h, hfresh, hrules tun0 eth0 hname rfl (understands_destroy _ _) willingEnv_adds
    rfl rfl⟩

/-- from its start on, the server leases each client an address of `172.18.0.0/16` of its own -/
theorem serving_addresses {K : Type} [Fintype K] [DecidableEq K] {e : ServerEnv} {mem : Blk → Client K}
    {forwarding : Bool} {tables : Tables} {host : ServerHost} {session : Session K}
    (h : serverMain e mem ⟨tunCreate, forwarding, tables⟩ = .serving host session)
    {l : List (ConnAct K)} {s : Server K} (hs : exec Server.step (Server.init session) l = some s)
    {k : K} {b : Blk} {c : Bool} {i : ℕ} (hk : s.ph k = .live b c)
    (he : (s.session.mem b).ipEntry = some i) :
    (s.session.ipPool.ipEntry i).ip &&& serverTunNetmask = tunGetNet serverTun ∧
    ¬ serverTun.Reserved (s.session.ipPool.ipEntry i).ip ∧
    ∀ u d c' j, s.ph u = .live d c' → (s.session.mem d).ipEntry = some j →
      (s.session.ipPool.ipEntry j).ip = (s.session.ipPool.ipEntry i).ip → u = k := by
  obtain ⟨-, -, wanIf, hw, -, hserve⟩ := serverMain_serving.mp h
  obtain ⟨-, -, -, -, p, hp, hq⟩ := (serverServe_serving rfl).mp hserve
  have hi : s.Inv serverTun 16 := exec_inv (I := Server.Inv serverTun 16) Server.step_inv
    (Server.init_inv (pooledSession_fresh hp hq).1) hs
  have hclient := hi.live_entry hk he
  have hlt := hi.ok.bound i (by rw [hclient]; exact Option.some_ne_none b)
  exact ⟨hi.subnet.same_net hlt, hi.ok.not_reserved hclient,
    fun u d c' j hu hj hip => hi.address_unique hk he hu hj hip⟩

end QuicVpn
