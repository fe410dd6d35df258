import Mathlib.Data.List.Count
import QuicVpn.Common.Basic
import QuicVpn.Common.InAddr
import QuicVpn.Lib.Attempt

/-!
# TUN devices (`tun.c`, `tun_driver.c`)

A device is its handle (`tun_iface_t`) together with what the host keeps for it (`Link`).  What the
host answers to the system calls and commands of the driver is a parameter (`Host`): an `errno` for a
system call, an exit code for a command, and `0` for success in both cases.  The calls of `tun.c` go
through the table `api_table_netlink_client`, which has all of them.

* `tunOpen` .. `tunStart`                   the calls that configure a device;
* `tunFlushRoutes`, `tunClearDns`, `tunRulesClear`, `tunSetDown`, `tunDestroy`   those that undo it;
* `TunDev.Ok`                               what all of them keep: a device without private data has
                                            no routes, no DNS and no rules;
* `Host.Undoes`                             the host carries out the undo commands.

The address arguments of the source are texts made by `inet_ntop`, which `inet_pton` reads back; the
model passes the addresses.
-/

set_option linter.unusedSectionVars false

namespace QuicVpn
open Conc

/-- `-ENOENT` -/
def enoent : ℤ := -2

/-- `-ENOMEM` -/
def enomem : ℤ := -12

/-- `-ENODEV` -/
def enodev : ℤ := -19

/-! ## the host -/

/-- what the host keeps for a device -/
structure Link where
  fdOpen : Bool
  up : Bool
  dns : Option (InAddr × InAddr)
  domain : Bool
  routes : List String
  rules : Option String

/-- the answers of the host while one device is configured and torn down -/
structure Host where
  /-- the block of `tun_create` -/
  calloc : Option ℕ
  openTun : ℕ
  fd : ℕ
  tunSetIff : ℕ
  /-- the number the kernel puts for `%d` in the interface name -/
  unit : ℕ
  mallocPriv : Bool
  /-- `find_binary` finds the six programs -/
  binaries : Bool
  addrSocket : ℕ
  setIfAddr : ℕ
  setIfNetmask : ℕ
  mtuSocket : ℕ
  setIfMtu : ℕ
  upSocket : ℕ
  upGetFlags : ℕ
  upSetFlags : ℕ
  dnsCmd : ℤ
  domainCmd : ℤ
  routeCmd : String → ℤ
  nftAdd : ℤ
  flushCmd : ℤ
  clearDomainCmd : ℤ
  clearDnsCmd : ℤ
  nftDestroy : ℤ
  downSocket : ℕ
  downGetFlags : ℕ
  downSetFlags : ℕ
  cleanupSocket : ℕ
  cleanupGetFlags : ℕ
  cleanupSetFlags : ℕ
  close : ℕ

/-- the commands that undo a configuration do so -/
structure Host.Undoes (h : Host) : Prop where
  flush : h.flushCmd = 0
  domain : h.clearDomainCmd = 0
  dns : h.clearDnsCmd = 0
  rules : h.nftDestroy = 0
  socket : h.cleanupSocket = 0
  getFlags : h.cleanupGetFlags = 0
  setFlags : h.cleanupSetFlags = 0

/-! ## the handle -/

/-- `tun_iface_t`; the name is `tun%d`, `none` while it is empty -/
structure TunDev where
  tunFd : ℤ
  stsFlags : BitVec 64
  ifname : Option ℕ
  ip : InAddr
  mask : InAddr
  dns1 : InAddr
  dns2 : InAddr
  mtu : BitVec 16
  /-- `priv_data` is set -/
  privData : Bool
  link : Link

/-- `TUN_STATE_OPEN` -/
def tunStateOpen : BitVec 64 := 0x1

/-- `TUN_STATE_IP_SET | TUN_STATE_MASK_SET` -/
def tunStateAddrSet : BitVec 64 := 0x6

/-- `TUN_STATE_MTU_SET` -/
def tunStateMtuSet : BitVec 64 := 0x8

/-- `TUN_STATE_UP` -/
def tunStateUp : BitVec 64 := 0x10

/-- `TUN_STATE_DNS_SET` -/
def tunStateDnsSet : BitVec 64 := 0x20

/-- `TUN_STATE_READY` -/
def tunStateReady : BitVec 64 := 0x3f

/-- the handle that `tun_create` returns -/
def tunCreate : TunDev where
  tunFd := -1
  stsFlags := 0
  ifname := none
  ip := 0
  mask := 0
  dns1 := 0
  dns2 := 0
  mtu := 0
  privData := false
  link := ⟨false, false, none, false, [], none⟩

def TunDev.onLink (d : TunDev) (f : Link → Link) : TunDev := { d with link := f d.link }

/-- the wrappers of `tun.c` set flags when the driver succeeds -/
def setFlagsOn (flags : BitVec 64) (r : ℤ × TunDev) : ℤ × TunDev :=
  (r.1, if r.1 = 0 then { r.2 with stsFlags := r.2.stsFlags ||| flags } else r.2)

def clearFlagsOn (flags : BitVec 64) (r : ℤ × TunDev) : ℤ × TunDev :=
  (r.1, if r.1 = 0 then { r.2 with stsFlags := r.2.stsFlags &&& ~~~flags } else r.2)

/-! ## configuring a device -/

section
variable (h : Host)

/-- `sys_tun_open`; a descriptor that `TUNSETIFF` refused is closed but stays in the handle -/
def sysTunOpen (d : TunDev) : ℤ × TunDev :=
  if h.openTun ≠ 0 then (-(h.openTun : ℤ), { d with tunFd := -1 })
  else
    let d := { d with tunFd := h.fd, link := { d.link with fdOpen := true } }
    if h.tunSetIff ≠ 0 then (-(h.tunSetIff : ℤ), d.onLink fun l => { l with fdOpen := false })
    else
      let d := { d with ifname := some h.unit }
      if !h.mallocPriv then (enomem, d)
      else if !h.binaries then (enoent, d)
      else (0, { d with privData := true })

/-- `sys_tun_set_address`; the branch for `SIOCSIFNETMASK` returns an `err` that was never set -/
def sysTunSetAddress (ip mask : InAddr) (d : TunDev) : ℤ × TunDev :=
  let d := { d with ip := ip, mask := mask }
  if !validateMask mask then (einval, d)
  else if h.addrSocket ≠ 0 then (-(h.addrSocket : ℤ), d)
  else if d.ifname = none then (einval, d)
  else if h.setIfAddr ≠ 0 then (-(h.setIfAddr : ℤ), d)
  else if h.setIfNetmask ≠ 0 then (0, d)
  else (0, d)

/-- `sys_tun_set_mtu` -/
def sysTunSetMtu (mtu : BitVec 16) (d : TunDev) : ℤ × TunDev :=
  if d.ifname = none ∨ mtu.toNat < 256 ∨ mtu.toNat > 1380 then (einval, d)
  else if h.mtuSocket ≠ 0 then (-(h.mtuSocket : ℤ), d)
  else
    let d := { d with mtu := mtu }
    if h.setIfMtu ≠ 0 then (-(h.setIfMtu : ℤ), d) else (0, d)

/-- `sys_tun_set_up` -/
def sysTunSetUp (d : TunDev) : ℤ × TunDev :=
  if d.ifname = none then (einval, d)
  else if h.upSocket ≠ 0 then (-(h.upSocket : ℤ), d)
  else if h.upGetFlags ≠ 0 then (-(h.upGetFlags : ℤ), d)
  else if h.upSetFlags ≠ 0 then (-(h.upSetFlags : ℤ), d)
  else (0, d.onLink fun l => { l with up := true })

/-- `sys_tun_set_dns`: servers first, then the routing domain -/
def sysTunSetDns (dns1 dns2 : InAddr) (d : TunDev) : ℤ × TunDev :=
  if d.ifname = none ∨ d.privData = false then (einval, d)
  else
    let d := { d with dns1 := dns1, dns2 := dns2 }
    if h.dnsCmd ≠ 0 then (h.dnsCmd, d)
    else
      let d := d.onLink fun l => { l with dns := some (dns1, dns2) }
      if h.domainCmd ≠ 0 then (h.domainCmd, d)
      else (0, d.onLink fun l => { l with domain := true })

/-- `sys_tun_add_route` -/
def sysTunAddRoute (cidr : String) (d : TunDev) : ℤ × TunDev :=
  if d.ifname = none ∨ cidr = "" then (einval, d)
  else if d.privData = false then (einval, d)
  else if h.routeCmd cidr ≠ 0 then (h.routeCmd cidr, d)
  else (0, d.onLink fun l => { l with routes := cidr :: l.routes })

/-- the text of the interface name -/
def ifnameText (d : TunDev) : String :=
  match d.ifname with
  | some n => "tun" ++ toString n
  | none => ""

/-- the table with the kill switch, as `syt_client_rules_add_nft` writes it -/
def killSwitchRules (ifname wanIf serverIp : String) (serverPort : BitVec 16) : String :=
  "table inet vpn_ks_" ++ ifname ++ " \x7b\n" ++
  "    chain output \x7b\n" ++
  "        type filter hook output priority filter; policy drop;\n" ++
  "        oifname \"lo\" accept\n" ++
  "        oifname \"" ++ ifname ++ "\" accept\n" ++
  "        oifname \"" ++ wanIf ++ "\" ip daddr " ++ serverIp ++ " udp dport " ++
    toString serverPort.toNat ++ " accept\n" ++
  "    \x7d\n" ++
  "    chain input \x7b\n" ++
  "        type filter hook input priority filter; policy drop;\n" ++
  "        iifname \"lo\" accept\n" ++
  "        iifname \"" ++ ifname ++ "\" accept\n" ++
  "        ct state established,related accept\n" ++
  "    \x7d\n" ++
  "\x7d\n"

/-- `syt_client_rules_add_nft` -/
def sytClientRulesAddNft (wanIf serverIp : String) (serverPort : BitVec 16) (d : TunDev) :
    ℤ × TunDev :=
  if serverPort = 0 then (einval, d)
  else if d.privData = false then (ecanceled, d)
  else if h.nftAdd ≠ 0 then (h.nftAdd, d)
  else
    let ruleset := killSwitchRules (ifnameText d) wanIf serverIp serverPort
    (0, d.onLink fun l => { l with rules := some ruleset })

def tunOpen (d : TunDev) : ℤ × TunDev := setFlagsOn tunStateOpen (sysTunOpen h d)

def tunSetAddr (ip mask : InAddr) (d : TunDev) : ℤ × TunDev :=
  setFlagsOn tunStateAddrSet (sysTunSetAddress h ip mask d)

def tunSetMtu (mtu : BitVec 16) (d : TunDev) : ℤ × TunDev :=
  setFlagsOn tunStateMtuSet (sysTunSetMtu h mtu d)

def tunSetUp (d : TunDev) : ℤ × TunDev := setFlagsOn tunStateUp (sysTunSetUp h d)

def tunSetDns (dns1 dns2 : InAddr) (d : TunDev) : ℤ × TunDev :=
  setFlagsOn tunStateDnsSet (sysTunSetDns h dns1 dns2 d)

def tunAddRoute (cidr : String) (d : TunDev) : ℤ × TunDev := sysTunAddRoute h cidr d

def tunClientRulesAdd (wanIf serverIp : String) (serverPort : BitVec 16) (d : TunDev) :
    ℤ × TunDev :=
  sytClientRulesAddNft h wanIf serverIp serverPort d

/-- `tun_start` only looks at the flags -/
def tunStart (d : TunDev) : ℤ × TunDev :=
  if d.stsFlags &&& tunStateReady ≠ tunStateReady then (enodev, d) else (0, d)

/-! ## undoing it -/

/-- `sys_tun_flush_routes` -/
def tunFlushRoutes (d : TunDev) : ℤ × TunDev :=
  if d.ifname = none ∨ d.privData = false then (einval, d)
  else if h.flushCmd ≠ 0 then (0, d)
  else (0, d.onLink fun l => { l with routes := [] })

/-- `sys_tun_clear_dns`: the domain first, then the servers -/
def sysTunClearDns (d : TunDev) : ℤ × TunDev :=
  if d.ifname = none ∨ d.privData = false then (einval, d)
  else
    let d := if h.clearDomainCmd ≠ 0 then d else d.onLink fun l => { l with domain := false }
    let d := if h.clearDnsCmd ≠ 0 then d else d.onLink fun l => { l with dns := none }
    (0, d)

def tunClearDns (d : TunDev) : ℤ × TunDev := clearFlagsOn tunStateDnsSet (sysTunClearDns h d)

/-- `syt_client_rules_del_nft` -/
def tunRulesClear (d : TunDev) : ℤ × TunDev :=
  if d.ifname = none then (einval, d)
  else if d.privData = false then (ecanceled, d)
  else if h.nftDestroy ≠ 0 then (h.nftDestroy, d)
  else (0, d.onLink fun l => { l with rules := none })

/-- `sys_tun_set_down` -/
def sysTunSetDown (d : TunDev) : ℤ × TunDev :=
  if d.ifname = none then (einval, d)
  else if h.downSocket ≠ 0 then (-(h.downSocket : ℤ), d)
  else if h.downGetFlags ≠ 0 then (-(h.downGetFlags : ℤ), d)
  else if h.downSetFlags ≠ 0 then (-(h.downSetFlags : ℤ), d)
  else (0, d.onLink fun l => { l with up := false })

def tunSetDown (d : TunDev) : ℤ × TunDev := clearFlagsOn tunStateUp (sysTunSetDown h d)

/-- the part of `sys_tun_cleanup` that brings the interface down; the code is `ret` so far -/
def cleanupDown (d : TunDev) : ℤ × TunDev :=
  if d.ifname = none then (0, d)
  else if h.cleanupSocket ≠ 0 then (-(h.cleanupSocket : ℤ), d)
  else if h.cleanupGetFlags ≠ 0 then (-(h.cleanupGetFlags : ℤ), d)
  else if h.cleanupSetFlags ≠ 0 then (-(h.cleanupSetFlags : ℤ), d)
  else (0, d.onLink fun l => { l with up := false })

/-- `sys_tun_cleanup`; Linux gives the descriptor back also when `close` reports an error -/
def sysTunCleanup (d : TunDev) : ℤ × TunDev :=
  let (ret, d) := cleanupDown h d
  let (ret, d) :=
    if d.tunFd ≥ 0 then
      (if h.close ≠ 0 then -(h.close : ℤ) else ret,
        { d with tunFd := -1, link := { d.link with fdOpen := false } })
    else (ret, d)
  (ret, { d with privData := false })

/-- `tun_destroy` drops the code of `tun_cleanup`, and does not free the handle -/
def tunDestroy (d : TunDev) : ℤ × TunDev := (0, (sysTunCleanup h d).2)

end

/-! ## codes, and what the driver keeps -/

theorem neg_natCast_ne_zero {n : ℕ} (hn : n ≠ 0) : -(n : ℤ) ≠ 0 := by omega
theorem einval_ne_zero : einval ≠ 0 := by decide
theorem enoent_ne_zero : enoent ≠ 0 := by decide
theorem enomem_ne_zero : enomem ≠ 0 := by decide
theorem ecanceled_ne_zero : ecanceled ≠ 0 := by decide
theorem enodev_ne_zero : enodev ≠ 0 := by decide

/-- name, private data, flags and descriptor are the same -/
structure TunDev.Kept (d e : TunDev) : Prop where
  ifname : e.ifname = d.ifname
  privData : e.privData = d.privData
  stsFlags : e.stsFlags = d.stsFlags
  fdOpen : e.link.fdOpen = d.link.fdOpen

section
variable {h : Host} {d : TunDev}

theorem sysTunOpen_flags : (sysTunOpen h d).2.stsFlags = d.stsFlags := by
  unfold sysTunOpen
  split_ifs <;> rfl

/-- whatever the host answers, the address and mask go into the handle -/
theorem sysTunSetAddress_dev (ip mask : InAddr) :
    (sysTunSetAddress h ip mask d).2 = { d with ip := ip, mask := mask } := by
  simp only [sysTunSetAddress]
  split_ifs <;> rfl

theorem sysTunSetAddress_kept (ip mask : InAddr) : d.Kept (sysTunSetAddress h ip mask d).2 := by
  rw [sysTunSetAddress_dev]
  exact ⟨rfl, rfl, rfl, rfl⟩

theorem sysTunSetMtu_kept (mtu : BitVec 16) : d.Kept (sysTunSetMtu h mtu d).2 := by
  unfold sysTunSetMtu
  split_ifs <;> exact ⟨rfl, rfl, rfl, rfl⟩

theorem sysTunSetUp_kept : d.Kept (sysTunSetUp h d).2 := by
  unfold sysTunSetUp
  split_ifs <;> exact ⟨rfl, rfl, rfl, rfl⟩

theorem sysTunSetDown_kept : d.Kept (sysTunSetDown h d).2 := by
  unfold sysTunSetDown
  split_ifs <;> exact ⟨rfl, rfl, rfl, rfl⟩

theorem sysTunSetDns_kept (dns1 dns2 : InAddr) : d.Kept (sysTunSetDns h dns1 dns2 d).2 := by
  unfold sysTunSetDns
  split_ifs <;> exact ⟨rfl, rfl, rfl, rfl⟩

theorem sysTunClearDns_kept : d.Kept (sysTunClearDns h d).2 := by
  simp only [sysTunClearDns]
  split_ifs <;> exact ⟨rfl, rfl, rfl, rfl⟩

end

/-! ## what a device has for the host to undo -/

/-- the host keeps nothing for the device -/
def Link.clear : Link := ⟨false, false, none, false, [], none⟩

/-- routes, DNS and rules need the private data, and an open descriptor is in the handle -/
structure TunDev.Ok (d : TunDev) : Prop where
  priv : d.privData = false →
    d.link.routes = [] ∧ d.link.dns = none ∧ d.link.domain = false ∧ d.link.rules = none
  named : d.ifname = none → d.privData = false ∧ d.link.up = false
  fd : d.link.fdOpen = true → d.tunFd ≥ 0

section
variable {h : Host} {d : TunDev}

theorem tunCreate_ok : tunCreate.Ok :=
  ⟨fun _ => ⟨rfl, rfl, rfl, rfl⟩, fun _ => ⟨rfl, rfl⟩, fun hf => absurd hf Bool.false_ne_true⟩

/-- the flags and the other fields of the handle are no matter -/
theorem TunDev.Ok.congr {e : TunDev} (hd : d.Ok) (hp : e.privData = d.privData)
    (hn : e.ifname = d.ifname) (hf : e.tunFd = d.tunFd) (hl : e.link = d.link) : e.Ok := by
  refine ⟨fun he => ?_, fun he => ?_, fun he => ?_⟩
  · rw [hl]
    exact hd.priv (hp ▸ he)
  · rw [hl, hp]
    exact hd.named (hn ▸ he)
  · rw [hf]
    exact hd.fd (hl ▸ he)

/-- a device that has private data may get routes, DNS or rules -/
theorem TunDev.Ok.of_priv {e : TunDev} (hd : d.Ok) (hn : ¬ d.ifname = none)
    (hp : ¬ d.privData = false) (en : e.ifname = d.ifname) (ep : e.privData = d.privData)
    (ef : e.tunFd = d.tunFd) (el : e.link.fdOpen = d.link.fdOpen) : e.Ok := by
  refine ⟨fun he => absurd (ep ▸ he) hp, fun he => absurd (en ▸ he) hn, fun he => ?_⟩
  rw [ef]
  exact hd.fd (el ▸ he)

theorem setFlagsOn_ok {flags : BitVec 64} {r : ℤ × TunDev} (hr : r.2.Ok) :
    (setFlagsOn flags r).2.Ok := by
  unfold setFlagsOn
  split
  · exact hr.congr rfl rfl rfl rfl
  · exact hr

/-- `tun_open` on a new handle -/
theorem tunOpen_ok : (tunOpen h tunCreate).2.Ok := by
  refine setFlagsOn_ok ?_
  have hz : ∀ e : TunDev, e.link.routes = [] → e.link.dns = none → e.link.domain = false →
      e.link.rules = none → e.link.up = false → (e.ifname = none → e.privData = false) →
      (e.link.fdOpen = true → e.tunFd ≥ 0) → e.Ok :=
    fun e h1 h2 h3 h4 h5 h6 h7 => ⟨fun _ => ⟨h1, h2, h3, h4⟩, fun hn => ⟨h6 hn, h5⟩, h7⟩
  have hfd : (h.fd : ℤ) ≥ 0 := Int.natCast_nonneg h.fd
  unfold sysTunOpen
  split_ifs
  · exact tunCreate_ok
  · exact hz _ rfl rfl rfl rfl rfl (fun _ => rfl) (fun hf => absurd hf Bool.false_ne_true)
  · exact hz _ rfl rfl rfl rfl rfl (fun _ => rfl) (fun _ => hfd)
  · exact hz _ rfl rfl rfl rfl rfl (fun _ => rfl) (fun _ => hfd)
  · exact hz _ rfl rfl rfl rfl rfl (fun hn => absurd hn (Option.some_ne_none _)) (fun _ => hfd)

theorem tunSetAddr_ok (hd : d.Ok) (ip mask : InAddr) : (tunSetAddr h ip mask d).2.Ok := by
  refine setFlagsOn_ok ?_
  rw [sysTunSetAddress_dev]
  exact hd.congr rfl rfl rfl rfl

theorem tunSetMtu_ok (hd : d.Ok) (mtu : BitVec 16) : (tunSetMtu h mtu d).2.Ok := by
  refine setFlagsOn_ok ?_
  unfold sysTunSetMtu
  split_ifs
  · exact hd
  · exact hd
  · exact hd.congr rfl rfl rfl rfl
  · exact hd.congr rfl rfl rfl rfl

theorem tunSetUp_ok (hd : d.Ok) : (tunSetUp h d).2.Ok := by
  refine setFlagsOn_ok ?_
  unfold sysTunSetUp
  split_ifs with hn
  · exact hd
  · exact hd
  · exact hd
  · exact hd
  · exact ⟨hd.priv, fun h' => absurd h' hn, hd.fd⟩

theorem tunSetDns_ok (hd : d.Ok) (dns1 dns2 : InAddr) : (tunSetDns h dns1 dns2 d).2.Ok := by
  refine setFlagsOn_ok ?_
  unfold sysTunSetDns
  split_ifs with hn hc hm
  · exact hd
  · exact hd.congr rfl rfl rfl rfl
  · exact hd.of_priv (fun h' => hn (.inl h')) (fun h' => hn (.inr h')) rfl rfl rfl rfl
  · exact hd.of_priv (fun h' => hn (.inl h')) (fun h' => hn (.inr h')) rfl rfl rfl rfl

theorem tunAddRoute_ok (hd : d.Ok) (cidr : String) : (tunAddRoute h cidr d).2.Ok := by
  unfold tunAddRoute sysTunAddRoute
  split_ifs with hn hp hc
  · exact hd
  · exact hd
  · exact hd
  · exact hd.of_priv (fun h' => hn (.inl h')) hp rfl rfl rfl rfl

theorem tunClientRulesAdd_ok (hd : d.Ok) (wanIf serverIp : String) (serverPort : BitVec 16) :
    (tunClientRulesAdd h wanIf serverIp serverPort d).2.Ok := by
  unfold tunClientRulesAdd sytClientRulesAddNft
  split_ifs with h0 hp hc
  · exact hd
  · exact hd
  · exact hd
  · exact hd.of_priv (fun h' => hp (hd.named h').1) hp rfl rfl rfl rfl

theorem tunStart_dev (d : TunDev) : (tunStart d).2 = d := by
  unfold tunStart
  split_ifs <;> rfl

theorem tunRulesClear_ok (hd : d.Ok) : (tunRulesClear h d).2.Ok := by
  unfold tunRulesClear
  split_ifs with hn hp hc
  · exact hd
  · exact hd
  · exact hd
  · exact hd.of_priv hn hp rfl rfl rfl rfl

end

/-! ## the undo calls -/

section
variable {h : Host} {d : TunDev}

theorem tunFlushRoutes_dev (hu : h.Undoes) (hd : d.Ok) :
    (tunFlushRoutes h d).2 = d.onLink fun l => { l with routes := [] } := by
  unfold tunFlushRoutes
  split_ifs with hn hc
  · have hp : d.privData = false := hn.elim (fun hn => (hd.named hn).1) id
    unfold TunDev.onLink
    rw [← (hd.priv hp).1]
  · exact absurd hu.flush hc
  · rfl

theorem tunClearDns_dev (hu : h.Undoes) (hd : d.Ok) : ∃ flags, (tunClearDns h d).2 =
    { d.onLink fun l => { l with dns := none, domain := false } with stsFlags := flags } := by
  unfold tunClearDns clearFlagsOn sysTunClearDns
  by_cases hn : d.ifname = none ∨ d.privData = false
  · have hp : d.privData = false := hn.elim (fun hn => (hd.named hn).1) id
    obtain ⟨-, h1, h2, -⟩ := hd.priv hp
    refine ⟨d.stsFlags, ?_⟩
    rw [if_pos hn, if_neg (show einval ≠ 0 by decide)]
    unfold TunDev.onLink
    rw [← h1, ← h2]
  · refine ⟨d.stsFlags &&& ~~~tunStateDnsSet, ?_⟩
    rw [if_neg hn]
    simp only [hu.domain, hu.dns, ne_eq, not_true_eq_false, if_false, if_true]
    rfl

theorem tunRulesClear_dev (hu : h.Undoes) (hd : d.Ok) :
    (tunRulesClear h d).2 = d.onLink fun l => { l with rules := none } := by
  have hsame : d.privData = false → d = d.onLink fun l => { l with rules := none } := by
    intro hp
    unfold TunDev.onLink
    rw [← (hd.priv hp).2.2.2]
  unfold tunRulesClear
  split_ifs with hn hp hc
  · exact hsame (hd.named hn).1
  · exact hsame hp
  · exact absurd hu.rules hc
  · rfl

theorem sysTunSetDown_cases (h : Host) (d : TunDev) : (∃ r, sysTunSetDown h d = (r, d)) ∨
    sysTunSetDown h d = (0, d.onLink fun l => { l with up := false }) := by
  unfold sysTunSetDown
  split_ifs
  · exact Or.inl ⟨_, rfl⟩
  · exact Or.inl ⟨_, rfl⟩
  · exact Or.inl ⟨_, rfl⟩
  · exact Or.inl ⟨_, rfl⟩
  · exact Or.inr rfl

/-- `tun_set_down` may change the link state and the flags, and nothing else -/
theorem tunSetDown_dev (h : Host) (d : TunDev) : ∃ flags up, (tunSetDown h d).2 =
    { d.onLink fun l => { l with up := up } with stsFlags := flags } ∧
      (d.link.up = false → up = false) := by
  unfold tunSetDown clearFlagsOn
  rcases sysTunSetDown_cases h d with ⟨r, e⟩ | e
  · rw [e]
    refine ⟨if r = 0 then d.stsFlags &&& ~~~tunStateUp else d.stsFlags, d.link.up, ?_, id⟩
    show (if r = 0 then _ else _) = _
    split_ifs <;> rfl
  · rw [e]
    exact ⟨d.stsFlags &&& ~~~tunStateUp, false, rfl, fun _ => rfl⟩

/-- the device after `tun_destroy`, when nothing but its link and descriptor were left -/
theorem tunDestroy_link (hu : h.Undoes) (hd : d.Ok) : (tunDestroy h d).2.link =
    { d.link with up := false, fdOpen := false } := by
  have hdown : (cleanupDown h d).2 = d.onLink fun l => { l with up := false } := by
    unfold cleanupDown
    split_ifs with hn h1 h2 h3
    · unfold TunDev.onLink
      rw [← (hd.named hn).2]
    · exact absurd hu.socket h1
    · exact absurd hu.getFlags h2
    · exact absurd hu.setFlags h3
    · rfl
  have hlink : (tunDestroy h d).2.link = if (cleanupDown h d).2.tunFd ≥ 0 then
      { (cleanupDown h d).2.link with fdOpen := false } else (cleanupDown h d).2.link := by
    unfold tunDestroy sysTunCleanup
    simp only
    split_ifs <;> rfl
  rw [hlink, hdown]
  split_ifs with hf
  · rfl
  · have : d.link.fdOpen = false := by
      by_contra hne
      exact hf (hd.fd (Bool.not_eq_false _ ▸ hne))
    unfold TunDev.onLink
    rw [← this]

/-- the three undo calls before the interface goes down, on any device -/
theorem undoCalls_dev (hu : h.Undoes) (hd : d.Ok) : ∃ flags,
    (tunRulesClear h (tunClearDns h (tunFlushRoutes h d).2).2).2 =
      { d.onLink fun l => { l with routes := [], dns := none, domain := false, rules := none }
        with stsFlags := flags } := by
  have h1 : (d.onLink fun l => { l with routes := [] }).Ok :=
    ⟨fun hp => ⟨rfl, (hd.priv hp).2⟩, hd.named, hd.fd⟩
  have h2 : ∀ flags, ({ d.onLink fun l => { l with routes := [], dns := none, domain := false }
      with stsFlags := flags } : TunDev).Ok :=
    fun _ => ⟨fun hp => ⟨rfl, rfl, rfl, (hd.priv hp).2.2.2⟩, hd.named, hd.fd⟩
  obtain ⟨flags, e⟩ := tunClearDns_dev hu h1
  refine ⟨flags, ?_⟩
  rw [tunFlushRoutes_dev hu hd, e]
  exact tunRulesClear_dev hu (h2 flags)

/-- **Teardown.**  The undo calls and `tun_destroy` leave nothing of a device, whether or not the
interface was set down before. -/
theorem teardown_link (hu : h.Undoes) (hd : d.Ok) :
    (tunDestroy h (tunRulesClear h (tunClearDns h (tunFlushRoutes h d).2).2).2).2.link
      = Link.clear := by
  obtain ⟨flags, e⟩ := undoCalls_dev hu hd
  rw [e, tunDestroy_link hu]
  · rfl
  · exact ⟨fun _ => ⟨rfl, rfl, rfl, rfl⟩, hd.named, hd.fd⟩

theorem teardown_down_link (hu : h.Undoes) (hd : d.Ok) :
    (tunDestroy h (tunSetDown h
      (tunRulesClear h (tunClearDns h (tunFlushRoutes h d).2).2).2).2).2.link = Link.clear := by
  obtain ⟨flags, e⟩ := undoCalls_dev hu hd
  rw [e]
  obtain ⟨flags', up, e', hup⟩ := tunSetDown_dev h
    { d.onLink fun l => { l with routes := [], dns := none, domain := false, rules := none }
      with stsFlags := flags }
  rw [e', tunDestroy_link hu]
  · rfl
  · refine ⟨fun _ => ⟨rfl, rfl, rfl, rfl⟩, fun hn => ?_, hd.fd⟩
    obtain ⟨hp, hl⟩ := hd.named hn
    exact ⟨hp, hup hl⟩

end

/-- a host on which every call succeeds -/
def willingHost : Host where
  calloc := some 0
  openTun := 0
  fd := 3
  tunSetIff := 0
  unit := 0
  mallocPriv := true
  binaries := true
  addrSocket := 0
  setIfAddr := 0
  setIfNetmask := 0
  mtuSocket := 0
  setIfMtu := 0
  upSocket := 0
  upGetFlags := 0
  upSetFlags := 0
  dnsCmd := 0
  domainCmd := 0
  routeCmd := fun _ => 0
  nftAdd := 0
  flushCmd := 0
  clearDomainCmd := 0
  clearDnsCmd := 0
  nftDestroy := 0
  downSocket := 0
  downGetFlags := 0
  downSetFlags := 0
  cleanupSocket := 0
  cleanupGetFlags := 0
  cleanupSetFlags := 0
  close := 0

end QuicVpn
