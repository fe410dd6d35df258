import QuicVpn.Client.Ctrl

/-!
# All or nothing on a CONFIG_RESP

* `TunCall.Works h c`   what the host must answer for the call `c` to return `0`;
* `Configures`          the handle is created and every tested call works;
* `AllOrNothing`        the device is published when every step succeeded, and undone otherwise.

`config_resp_all_or_nothing_iff`: the one step whose code is not tested is the kill switch, and the
handler is all or nothing unless that step is the one that fails.
-/

set_option linter.unusedSectionVars false

namespace QuicVpn
open Conc

/-- what the host must answer for a call to return `0` -/
def TunCall.Works (h : Host) : TunCall → Prop
  | .openDev => h.openTun = 0 ∧ h.tunSetIff = 0 ∧ h.mallocPriv = true ∧ h.binaries = true
  | .setAddr _ mask => validateMask mask = true ∧ h.addrSocket = 0 ∧ h.setIfAddr = 0
  | .setMtu mtu => 256 ≤ mtu.toNat ∧ mtu.toNat ≤ 1380 ∧ h.mtuSocket = 0 ∧ h.setIfMtu = 0
  | .setUp => h.upSocket = 0 ∧ h.upGetFlags = 0 ∧ h.upSetFlags = 0
  | .rulesClear => h.nftDestroy = 0
  | .setDns _ _ => h.dnsCmd = 0 ∧ h.domainCmd = 0
  | .addRoute cidr => cidr ≠ "" ∧ h.routeCmd cidr = 0
  | .clientRulesAdd _ _ serverPort => serverPort ≠ 0 ∧ h.nftAdd = 0
  | .start => True

instance (h : Host) (c : TunCall) : Decidable (c.Works h) := by
  cases c <;> unfold TunCall.Works <;> infer_instance

/-- `tun_create` and every call whose code is tested succeed -/
def Configures (h : Host) (s : ClientSession) (raw : PktCtrl) : Prop :=
  h.calloc.isSome = true ∧ ∀ c ∈ configCalls s raw, c.tested = true → c.Works h

/-! ## one call -/

/-- the device has its name and private data -/
def TunDev.Opened (d : TunDev) : Prop := d.ifname.isSome = true ∧ d.privData = true

section
variable {h : Host} {d : TunDev}

theorem setFlagsOn_opened {flags : BitVec 64} {r : ℤ × TunDev} (hr : r.2.Opened) :
    (setFlagsOn flags r).2.Opened := by
  unfold setFlagsOn
  split
  · exact hr
  · exact hr

/-- what a call adds to `sts_flags` -/
def TunCall.flag : TunCall → BitVec 64
  | .openDev => tunStateOpen
  | .setAddr _ _ => tunStateAddrSet
  | .setMtu _ => tunStateMtuSet
  | .setUp => tunStateUp
  | .setDns _ _ => tunStateDnsSet
  | _ => 0

/-- what is behind a call, below the flags -/
def TunCall.drive (h : Host) : TunCall → TunDev → ℤ × TunDev
  | .openDev => sysTunOpen h
  | .setAddr ip mask => sysTunSetAddress h ip mask
  | .setMtu mtu => sysTunSetMtu h mtu
  | .setUp => sysTunSetUp h
  | .rulesClear => tunRulesClear h
  | .setDns dns1 dns2 => sysTunSetDns h dns1 dns2
  | .addRoute cidr => sysTunAddRoute h cidr
  | .clientRulesAdd wanIf serverIp serverPort => sytClientRulesAddNft h wanIf serverIp serverPort
  | .start => tunStart

theorem setFlagsOn_zero (r : ℤ × TunDev) : setFlagsOn 0 r = r := by
  have hor : r.2.stsFlags ||| 0 = r.2.stsFlags := BitVec.or_zero
  unfold setFlagsOn
  rw [hor, ite_self]

/-- a call is its driver function, and then its flag -/
theorem TunCall.run_eq (c : TunCall) : c.run h d = setFlagsOn c.flag (c.drive h d) := by
  cases c with
  | rulesClear | addRoute _ | clientRulesAdd _ _ _ | start => exact (setFlagsOn_zero _).symm
  | _ => rfl

/-- only `sys_tun_open` sets them -/
theorem TunCall.drive_kept {c : TunCall} (hc : c ≠ .openDev) : d.Kept (c.drive h d).2 := by
  cases c with
  | openDev => exact absurd rfl hc
  | setAddr ip mask => exact sysTunSetAddress_kept ip mask
  | setMtu mtu => exact sysTunSetMtu_kept mtu
  | setUp => exact sysTunSetUp_kept
  | rulesClear =>
    show d.Kept (tunRulesClear h d).2
    unfold tunRulesClear
    split_ifs <;> exact ⟨rfl, rfl, rfl, rfl⟩
  | setDns dns1 dns2 => exact sysTunSetDns_kept dns1 dns2
  | addRoute cidr =>
    show d.Kept (sysTunAddRoute h cidr d).2
    unfold sysTunAddRoute
    split_ifs <;> exact ⟨rfl, rfl, rfl, rfl⟩
  | clientRulesAdd wanIf serverIp serverPort =>
    show d.Kept (sytClientRulesAddNft h wanIf serverIp serverPort d).2
    unfold sytClientRulesAddNft
    split_ifs <;> exact ⟨rfl, rfl, rfl, rfl⟩
  | start =>
    show d.Kept (tunStart d).2
    rw [tunStart_dev]
    exact ⟨rfl, rfl, rfl, rfl⟩

/-- no call takes name or private data away -/
theorem TunCall.run_opened (c : TunCall) (hd : d.Opened) : (c.run h d).2.Opened := by
  rw [c.run_eq]
  refine setFlagsOn_opened ?_
  by_cases hc : c = .openDev
  · subst hc
    show (sysTunOpen h d).2.Opened
    unfold sysTunOpen
    split_ifs
    · exact hd
    · exact hd
    · exact ⟨rfl, hd.2⟩
    · exact ⟨rfl, hd.2⟩
    · exact ⟨rfl, rfl⟩
  · have hk : d.Kept (c.drive h d).2 := TunCall.drive_kept hc
    exact ⟨hk.ifname ▸ hd.1, hk.privData ▸ hd.2⟩

/-- a call that returns `0` found a host that works -/
theorem TunCall.run_zero (c : TunCall) (hz : (c.run h d).1 = 0) : c.Works h := by
  cases c with
  | openDev =>
    change (sysTunOpen h d).1 = 0 at hz
    unfold sysTunOpen at hz
    split_ifs at hz with h1 h2 h3 h4
    · exact absurd hz (neg_natCast_ne_zero h1)
    · exact absurd hz (neg_natCast_ne_zero h2)
    · exact absurd hz enomem_ne_zero
    · exact absurd hz enoent_ne_zero
    · exact ⟨not_ne_iff.mp h1, not_ne_iff.mp h2, by simpa using h3, by simpa using h4⟩
  | setAddr ip mask =>
    change (sysTunSetAddress h ip mask d).1 = 0 at hz
    simp only [sysTunSetAddress] at hz
    split_ifs at hz with h1 h2 h3 h4 h5
    · exact absurd hz einval_ne_zero
    · exact absurd hz (neg_natCast_ne_zero h2)
    · exact absurd hz einval_ne_zero
    · exact absurd hz (neg_natCast_ne_zero h4)
    · exact ⟨by simpa using h1, not_ne_iff.mp h2, not_ne_iff.mp h4⟩
    · exact ⟨by simpa using h1, not_ne_iff.mp h2, not_ne_iff.mp h4⟩
  | setMtu mtu =>
    change (sysTunSetMtu h mtu d).1 = 0 at hz
    unfold sysTunSetMtu at hz
    split_ifs at hz with h1 h2 h3
    · exact absurd hz einval_ne_zero
    · exact absurd hz (neg_natCast_ne_zero h2)
    · exact absurd hz (neg_natCast_ne_zero h3)
    · rw [not_or, not_or, Nat.not_lt, Nat.not_lt] at h1
      exact ⟨h1.2.1, h1.2.2, not_ne_iff.mp h2, not_ne_iff.mp h3⟩
  | setUp =>
    change (sysTunSetUp h d).1 = 0 at hz
    unfold sysTunSetUp at hz
    split_ifs at hz with h1 h2 h3 h4
    · exact absurd hz einval_ne_zero
    · exact absurd hz (neg_natCast_ne_zero h2)
    · exact absurd hz (neg_natCast_ne_zero h3)
    · exact absurd hz (neg_natCast_ne_zero h4)
    · exact ⟨not_ne_iff.mp h2, not_ne_iff.mp h3, not_ne_iff.mp h4⟩
  | rulesClear =>
    change (tunRulesClear h d).1 = 0 at hz
    unfold tunRulesClear at hz
    split_ifs at hz with h1 h2 h3
    · exact absurd hz einval_ne_zero
    · exact absurd hz ecanceled_ne_zero
    · exact absurd hz h3
    · exact not_ne_iff.mp h3
  | setDns dns1 dns2 =>
    change (sysTunSetDns h dns1 dns2 d).1 = 0 at hz
    unfold sysTunSetDns at hz
    split_ifs at hz with h1 h2 h3
    · exact absurd hz einval_ne_zero
    · exact absurd hz h2
    · exact absurd hz h3
    · exact ⟨not_ne_iff.mp h2, not_ne_iff.mp h3⟩
  | addRoute cidr =>
    change (sysTunAddRoute h cidr d).1 = 0 at hz
    unfold sysTunAddRoute at hz
    split_ifs at hz with h1 h2 h3
    · exact absurd hz einval_ne_zero
    · exact absurd hz einval_ne_zero
    · exact absurd hz h3
    · exact ⟨fun hc => h1 (Or.inr hc), not_ne_iff.mp h3⟩
  | clientRulesAdd wanIf serverIp serverPort =>
    change (sytClientRulesAddNft h wanIf serverIp serverPort d).1 = 0 at hz
    unfold sytClientRulesAddNft at hz
    split_ifs at hz with h1 h2 h3
    · exact absurd hz einval_ne_zero
    · exact absurd hz ecanceled_ne_zero
    · exact absurd hz h3
    · exact ⟨h1, not_ne_iff.mp h3⟩
  | start => trivial

/-- and on an opened device, a host that works lets the call return `0` -/
theorem TunCall.run_works {c : TunCall} (hc : c ≠ .start) (hd : d.Opened) (hw : c.Works h) :
    (c.run h d).1 = 0 := by
  have hn : d.ifname ≠ none := Option.isSome_iff_ne_none.mp hd.1
  have hp : ¬ d.privData = false := Bool.not_eq_false _ ▸ hd.2
  cases c with
  | openDev =>
    obtain ⟨h1, h2, h3, h4⟩ := hw
    show (sysTunOpen h d).1 = 0
    simp [sysTunOpen, h1, h2, h3, h4]
  | setAddr ip mask =>
    obtain ⟨h1, h2, h3⟩ := hw
    show (sysTunSetAddress h ip mask d).1 = 0
    simp [sysTunSetAddress, h1, h2, h3, hn]
  | setMtu mtu =>
    obtain ⟨h1, h2, h3, h4⟩ := hw
    show (sysTunSetMtu h mtu d).1 = 0
    simp [sysTunSetMtu, h1, h2, h3, h4, hn, Nat.not_lt.mpr]
  | setUp =>
    obtain ⟨h1, h2, h3⟩ := hw
    show (sysTunSetUp h d).1 = 0
    simp [sysTunSetUp, h1, h2, h3, hn]
  | rulesClear =>
    change h.nftDestroy = 0 at hw
    show (tunRulesClear h d).1 = 0
    simp [tunRulesClear, hw, hn, hd.2]
  | setDns dns1 dns2 =>
    obtain ⟨h1, h2⟩ := hw
    show (sysTunSetDns h dns1 dns2 d).1 = 0
    simp [sysTunSetDns, h1, h2, hn, hd.2]
  | addRoute cidr =>
    obtain ⟨h1, h2⟩ := hw
    show (sysTunAddRoute h cidr d).1 = 0
    simp [sysTunAddRoute, h1, h2, hn, hd.2]
  | clientRulesAdd wanIf serverIp serverPort =>
    obtain ⟨h1, h2⟩ := hw
    show (sytClientRulesAddNft h wanIf serverIp serverPort d).1 = 0
    simp only [sytClientRulesAddNft, h2, if_neg h1, if_neg hp, ne_eq, not_true_eq_false, if_false]
  | start => exact absurd rfl hc

/-- `tun_open` gives the new handle its name and private data -/
theorem tunOpen_opened (hw : TunCall.openDev.Works h) : (tunOpen h d).1 = 0 ∧
    (tunOpen h d).2.Opened := by
  obtain ⟨h1, h2, h3, h4⟩ := hw
  have e : sysTunOpen h d = (0, { d with
      tunFd := h.fd, link := { d.link with fdOpen := true }, ifname := some h.unit,
      privData := true }) := by
    simp [sysTunOpen, h1, h2, h3, h4]
  unfold tunOpen
  rw [e]
  exact ⟨rfl, setFlagsOn_opened ⟨rfl, rfl⟩⟩

/-! ## the flags that `tun_start` asks for -/

/-- the calls whose code is not tested have no flag -/
theorem TunCall.flag_of_untested {c : TunCall} (hc : c.tested = false) : c.flag = 0 := by
  cases c with
  | rulesClear | clientRulesAdd _ _ _ => rfl
  | _ => exact absurd hc Bool.true_eq_false.mp

theorem TunCall.run_flags (c : TunCall) (hz : c.tested = true → (c.run h d).1 = 0) :
    (c.run h d).2.stsFlags = d.stsFlags ||| c.flag := by
  have hdrive : (c.drive h d).2.stsFlags = d.stsFlags := by
    by_cases hc : c = .openDev
    · rw [hc]
      exact sysTunOpen_flags
    · exact (TunCall.drive_kept hc).stsFlags
  rw [c.run_eq] at hz ⊢
  by_cases ht : c.tested = true
  · have h0 : (c.drive h d).1 = 0 := hz ht
    rw [setFlagsOn, if_pos h0, ← hdrive]
  · have hf := TunCall.flag_of_untested (Bool.not_eq_true _ ▸ ht)
    rw [hf, setFlagsOn_zero, hdrive]
    exact BitVec.or_zero.symm

theorem attempt_flags {l : List TunCall}
    (hok : (attempt (TunCall.run h) TunCall.tested l d).ok = true) :
    (attempt (TunCall.run h) TunCall.tested l d).state.stsFlags =
      l.foldl (fun f c => f ||| c.flag) d.stsFlags := by
  induction l generalizing d with
  | nil => rfl
  | cons c l ih =>
    by_cases hf : c.tested = true ∧ (c.run h d).1 ≠ 0
    · rw [attempt_cons_fail hf] at hok
      exact absurd hok Bool.false_ne_true
    · rw [attempt_cons_go hf] at hok ⊢
      have hz : c.tested = true → (c.run h d).1 = 0 := fun ht => by
        by_contra hne
        exact hf ⟨ht, hne⟩
      rw [List.foldl_cons, ← c.run_flags hz]
      exact ih hok

end

/-! ## the whole sequence -/

section
variable {h : Host} {s : ClientSession} {raw : PktCtrl}

/-- the calls before `tun_start` -/
def setupCalls (s : ClientSession) (raw : PktCtrl) : List TunCall := (configCalls s raw).dropLast

theorem configCalls_eq : configCalls s raw = setupCalls s raw ++ [.start] := rfl

theorem configCalls_cons : configCalls s raw = .openDev :: (configCalls s raw).tail := rfl

theorem configCalls_tail {c : TunCall} (hc : c ∈ (configCalls s raw).tail) : c ≠ .openDev := by
  simp only [configCalls, killSwitch, List.tail_cons, List.mem_cons, List.not_mem_nil,
    or_false] at hc
  rcases hc with rfl | rfl | rfl | rfl | rfl | rfl | rfl | rfl | rfl | rfl
    <;> exact TunCall.noConfusion

theorem setupCalls_flags :
    (setupCalls s raw).foldl (fun f c => f ||| c.flag) tunCreate.stsFlags = tunStateReady := by
  have e : (setupCalls s raw).map TunCall.flag = [tunStateOpen, tunStateAddrSet, tunStateMtuSet,
      tunStateUp, 0, tunStateDnsSet, 0, 0, 0, 0] := rfl
  rw [← List.foldl_map (f := TunCall.flag) (g := fun f g => f ||| g), e]
  decide

theorem setupCalls_ok (hw : ∀ c ∈ setupCalls s raw, c.tested = true → c.Works h) :
    (attempt (TunCall.run h) TunCall.tested (setupCalls s raw) tunCreate).ok = true := by
  have hopen : TunCall.openDev.Works h := hw _ List.mem_cons_self rfl
  obtain ⟨hz, hd⟩ := tunOpen_opened (d := tunCreate) hopen
  have hgo : ¬ (TunCall.tested .openDev = true ∧ (TunCall.run h .openDev tunCreate).1 ≠ 0) :=
    fun hc => hc.2 hz
  have hns : ∀ c ∈ (setupCalls s raw).tail, c ≠ .start := by
    intro c hc
    simp only [setupCalls, configCalls, killSwitch, List.dropLast, List.tail_cons, List.mem_cons,
      List.not_mem_nil, or_false] at hc
    rcases hc with rfl | rfl | rfl | rfl | rfl | rfl | rfl | rfl | rfl <;> exact TunCall.noConfusion
  rw [show setupCalls s raw = .openDev :: (setupCalls s raw).tail by rfl, attempt_cons_go hgo]
  refine attempt_ok (fun c _ d hd => c.run_opened hd) (fun c hc ht d hd => ?_) hd
  exact TunCall.run_works (hns c hc) hd (hw c (List.mem_cons_of_mem _ hc) ht)

/-- the sequence comes to its end exactly when the host works for every tested call -/
theorem configDev_ok_iff : (configDev h s raw).ok = true ↔
    ∀ c ∈ configCalls s raw, c.tested = true → c.Works h := by
  constructor
  · intro hok c hc ht
    have hmem : c ∈ (configDev h s raw).trace.map Prod.fst := by
      rw [configDev, attempt_calls hok]
      exact hc
    obtain ⟨p, hp, rfl⟩ := List.mem_map.mp hmem
    obtain ⟨d, -, e⟩ := attempt_trace (I := fun _ => True) (fun _ _ _ _ => trivial) trivial hp
    refine p.1.run_zero (d := d) ?_
    rw [← e]
    exact (attempt_ok_iff _ _).mp hok p hp ht
  · intro hw
    have hsetup : (attempt (TunCall.run h) TunCall.tested (setupCalls s raw) tunCreate).ok = true :=
      setupCalls_ok fun c hc => hw c (by rw [configCalls_eq]; exact List.mem_append_left _ hc)
    have hflags := attempt_flags hsetup
    have hstart : (tunStart (attempt (TunCall.run h) TunCall.tested (setupCalls s raw)
        tunCreate).state).1 = 0 := by
      unfold tunStart
      rw [hflags, setupCalls_flags, BitVec.and_self, if_neg (fun hne => hne rfl)]
    have hgo : ¬ (TunCall.tested .start = true ∧ (TunCall.run h .start (attempt (TunCall.run h)
        TunCall.tested (setupCalls s raw) tunCreate).state).1 ≠ 0) := fun hc => hc.2 hstart
    rw [configDev, configCalls_eq, attempt_append hsetup, attempt_cons_go hgo]
    rfl

theorem TunCall.run_ok {c : TunCall} (hc : c ≠ .openDev) {d : TunDev} (hd : d.Ok) :
    (c.run h d).2.Ok := by
  cases c with
  | openDev => exact absurd rfl hc
  | setAddr ip mask => exact tunSetAddr_ok hd ip mask
  | setMtu mtu => exact tunSetMtu_ok hd mtu
  | setUp => exact tunSetUp_ok hd
  | rulesClear => exact tunRulesClear_ok hd
  | setDns dns1 dns2 => exact tunSetDns_ok hd dns1 dns2
  | addRoute cidr => exact tunAddRoute_ok hd cidr
  | clientRulesAdd wanIf serverIp serverPort =>
    exact tunClientRulesAdd_ok hd wanIf serverIp serverPort
  | start =>
    show (tunStart d).2.Ok
    rw [tunStart_dev]
    exact hd

/-- wherever the sequence ended, the undo calls know what there is to undo -/
theorem configDev_state_ok : (configDev h s raw).state.Ok := by
  unfold configDev
  rw [configCalls_cons]
  by_cases hf : TunCall.tested .openDev = true ∧ (TunCall.run h .openDev tunCreate).1 ≠ 0
  · rw [attempt_cons_fail hf]
    exact tunOpen_ok
  · rw [attempt_cons_go hf]
    exact attempt_inv (fun c hc d hd => TunCall.run_ok (configCalls_tail hc) hd) tunOpen_ok

/-- in a sequence that came to its end, the code of the kill switch tells whether the host could
set it up -/
theorem killSwitch_code (hok : (configDev h s raw).ok = true) :
    (∀ p ∈ (configDev h s raw).trace, p.1 ≠ .rulesClear → p.2 = 0) ↔ (killSwitch s).Works h := by
  constructor
  · intro hall
    have hmem : killSwitch s ∈ (configDev h s raw).trace.map Prod.fst := by
      rw [configDev, attempt_calls hok]
      simp [configCalls]
    obtain ⟨p, hp, hk⟩ := List.mem_map.mp hmem
    obtain ⟨d, -, e⟩ := attempt_trace (I := fun _ => True) (fun _ _ _ _ => trivial) trivial hp
    rw [← hk]
    refine p.1.run_zero (d := d) ?_
    rw [← e]
    exact hall p hp (by rw [hk]; exact TunCall.noConfusion)
  · intro hw p hp hne
    by_cases ht : p.1.tested = true
    · exact (attempt_ok_iff _ _).mp hok p hp ht
    · -- the kill switch ran on an opened device, since `tun_open` had returned `0`
      have hopen : TunCall.openDev.Works h := configDev_ok_iff.mp hok _ List.mem_cons_self rfl
      obtain ⟨hz, hd⟩ := tunOpen_opened (d := tunCreate) hopen
      have hgo : ¬ (TunCall.tested .openDev = true ∧ (TunCall.run h .openDev tunCreate).1 ≠ 0) :=
        fun hc => hc.2 hz
      have hpk : p.1 = killSwitch s := by
        have hm : p.1 ∈ configCalls s raw := attempt_mem hp
        simp only [configCalls, List.mem_cons, List.not_mem_nil, or_false] at hm
        rcases hm with e | e | e | e | e | e | e | e | e | e | e
        all_goals first
          | exact e
          | exact absurd e hne
          | exact absurd (show p.1.tested = true by rw [e]; rfl) ht
      unfold configDev at hp
      rw [configCalls_cons, attempt_cons_go hgo] at hp
      rcases List.mem_cons.mp hp with rfl | hp
      · exact absurd rfl ht
      · obtain ⟨d, hd', e⟩ := attempt_trace (I := TunDev.Opened) (fun c _ d hd => c.run_opened hd)
          hd hp
        rw [e, hpk]
        exact TunCall.run_works TunCall.noConfusion hd' hw

end

/-! ## all or nothing -/

/-- every step of the handler succeeded; what `tun_rules_clear` returned is no matter -/
structure EveryStep (s : ClientSession) (raw : PktCtrl) (r : CtrlRun) : Prop where
  created : r.tun.isSome = true
  made : r.trace.map Prod.fst = configCalls s raw
  zero : ∀ p ∈ r.trace, p.1 ≠ .rulesClear → p.2 = 0

/-- the device is published when every step succeeded; otherwise the session keeps its device, the
new one is undone, and the caller gets an error -/
structure AllOrNothing (s : ClientSession) (raw : PktCtrl) (r : CtrlRun) : Prop where
  all : EveryStep s raw r →
    r.session.tun = r.tun ∧ r.session.tunState = .ready ∧ r.ret = 0
  nothing : ¬ EveryStep s raw r →
    r.session.tun = s.tun ∧ r.session.tunState = .fail ∧ r.ret ≠ 0 ∧
      ∀ p ∈ r.tun, (r.session.mem p).link = Link.clear

section
variable {h : Host} {s : ClientSession} {raw : PktCtrl}

theorem processConfigResp_ok {p : ℕ} (hp : h.calloc = some p)
    (hok : (configDev h s raw).ok = true) : processConfigResp h s raw =
      ⟨0, { s.setDev p (configDev h s raw).state with tun := some p, tunState := .ready },
        clientPkt raw, true, some p, (configDev h s raw).trace⟩ := by
  simp only [processConfigResp, hp, hok, if_true]

theorem processConfigResp_fail {p : ℕ} (hp : h.calloc = some p)
    (hok : ¬ (configDev h s raw).ok = true) : processConfigResp h s raw =
      ⟨enodev, { s.setDev p (undoConfig h (configDev h s raw).state) with tunState := .fail },
        clientPkt raw, true, some p, (configDev h s raw).trace⟩ := by
  simp only [processConfigResp, hp, if_neg hok]

/-- **All or nothing.**  When the undo commands of the host work, the handler of a CONFIG_RESP is all
or nothing exactly when the kill switch does not fail after every tested step succeeded. -/
theorem config_resp_all_or_nothing_iff (hu : h.Undoes) (hr : IsConfigResp raw) :
    AllOrNothing s raw (clientProcessCtrlPkt h s raw) ↔
      (Configures h s raw → (killSwitch s).Works h) := by
  rw [clientProcessCtrlPkt_of_configResp hr]
  by_cases hc : h.calloc = none
  · have e : processConfigResp h s raw =
        ⟨enodev, { s with tunState := .fail }, clientPkt raw, true, none, []⟩ := by
      simp only [processConfigResp, hc]
    have hnot : ¬ EveryStep s raw (processConfigResp h s raw) := by
      intro hes
      have := hes.created
      rw [e] at this
      exact absurd this Bool.false_ne_true
    refine ⟨fun _ hcf => ?_, fun _ => ⟨fun hes => absurd hes hnot, fun _ => ?_⟩⟩
    · have := hcf.1
      rw [hc] at this
      exact absurd this Bool.false_ne_true
    · rw [e]
      exact ⟨rfl, rfl, enodev_ne_zero, fun p hp => absurd hp (Option.not_mem_none p)⟩
  · obtain ⟨p, hp⟩ := Option.ne_none_iff_exists'.mp hc
    have hconf : Configures h s raw ↔ (configDev h s raw).ok = true := by
      unfold Configures
      rw [configDev_ok_iff, hp]
      exact and_iff_right rfl
    by_cases hok : (configDev h s raw).ok = true
    · have e := processConfigResp_ok hp hok
      have hstep : EveryStep s raw (processConfigResp h s raw) ↔ (killSwitch s).Works h := by
        rw [← killSwitch_code hok, e]
        exact ⟨fun hes => hes.zero, fun hz => ⟨rfl, attempt_calls hok, hz⟩⟩
      rw [hconf, ← hstep]
      constructor
      · intro han _
        by_contra hnot
        have hfail := (han.nothing hnot).2.1
        rw [e] at hfail
        exact TunState.noConfusion hfail
      · intro hes
        refine ⟨fun _ => ?_, fun hnot => absurd (hes hok) hnot⟩
        rw [e]
        exact ⟨rfl, rfl, rfl⟩
    · have e := processConfigResp_fail hp hok
      have hnot : ¬ EveryStep s raw (processConfigResp h s raw) := by
        intro hes
        refine hok ((attempt_ok_iff _ _).mpr fun q hq ht => hes.zero q ?_ ?_)
        · rw [e]
          exact hq
        · intro hrc
          rw [hrc] at ht
          exact absurd ht Bool.false_ne_true
      refine ⟨fun _ hcf => absurd (hconf.mp hcf) hok, fun _ => ⟨fun hes => absurd hes hnot, ?_⟩⟩
      intro _
      rw [e]
      refine ⟨rfl, rfl, enodev_ne_zero, fun q hq => ?_⟩
      obtain rfl : p = q := Option.some.inj hq
      show (Function.update s.mem p _ p).link = Link.clear
      rw [Function.update_self]
      exact teardown_down_link hu configDev_state_ok

end

/-! ## a host without the kill switch -/

theorem netCidr_ne_empty (ip : InAddr) {mask : InAddr} (hm : validateMask mask = true) :
    netCidr ip mask ≠ "" := by
  intro he
  have hlen := congrArg String.length he
  simp only [netCidr, inAddrToCidr, hm, if_true, Option.getD_some, String.length_append,
    String.length_empty, show String.length "/" = 1 by rfl] at hlen
  omega

/-- a response with a usual address, MTU and DNS servers -/
@[irreducible] def usualResp : PktCtrl :=
  fillConfigResp 7 0 1300 0x0200080a 0x00ffffff 0x08080808 0x01010101

theorem usualResp_isConfigResp : IsConfigResp usualResp := by
  unfold usualResp
  exact fillConfigResp_isConfigResp ..

/-- `usualResp` configures a device where all tested calls succeed -/
theorem usualResp_works {h : Host} {s : ClientSession} (ho : TunCall.openDev.Works h)
    (ha : h.addrSocket = 0 ∧ h.setIfAddr = 0) (hm : h.mtuSocket = 0 ∧ h.setIfMtu = 0)
    (hup : TunCall.setUp.Works h) (hd : h.dnsCmd = 0 ∧ h.domainCmd = 0)
    (hroute : ∀ cidr, h.routeCmd cidr = 0) :
    ∀ c ∈ configCalls s usualResp, c.tested = true → c.Works h := by
  obtain ⟨-, hmtu, hip, hmask, -, -⟩ :=
    fillConfigResp_body 7 0 1300 0x0200080a 0x00ffffff 0x08080808 0x01010101
  have hv : validateMask (ConfigResp.mask.get usualResp) = true := by
    unfold usualResp
    rw [hmask]
    decide
  have hlen : 256 ≤ (ntohs (ConfigResp.mtu.get usualResp)).toNat ∧
      (ntohs (ConfigResp.mtu.get usualResp)).toNat ≤ 1380 := by
    unfold usualResp
    rw [hmtu, ntohs_htons]
    decide
  intro c hc ht
  simp only [configCalls, List.mem_cons, List.not_mem_nil, or_false] at hc
  rcases hc with rfl | rfl | rfl | rfl | rfl | rfl | rfl | rfl | rfl | rfl | rfl
  · exact ho
  · exact ⟨hv, ha⟩
  · exact ⟨hlen.1, hlen.2, hm⟩
  · exact hup
  · exact absurd ht Bool.false_ne_true
  · exact hd
  · exact ⟨by decide, hroute _⟩
  · exact ⟨by decide, hroute _⟩
  · exact ⟨netCidr_ne_empty _ hv, hroute _⟩
  · exact absurd ht Bool.false_ne_true
  · trivial

theorem willingHost_undoes : willingHost.Undoes := ⟨rfl, rfl, rfl, rfl, rfl, rfl, rfl⟩

/-- where everything works, a response is all or nothing -/
theorem config_resp_all_on_willing_host : willingHost.Undoes ∧ IsConfigResp usualResp ∧
    AllOrNothing newSession usualResp (clientProcessCtrlPkt willingHost newSession usualResp) :=
  ⟨willingHost_undoes, usualResp_isConfigResp,
    (config_resp_all_or_nothing_iff willingHost_undoes usualResp_isConfigResp).mpr
      fun _ => ⟨by decide, rfl⟩⟩

/-- `nft` refuses the kill switch, and only that -/
def noNftHost : Host := { willingHost with nftAdd := -10 }

/-- the kill switch failed, and the client reports a device that is ready -/
theorem config_resp_ready_without_kill_switch :
    (clientProcessCtrlPkt noNftHost newSession usualResp).session.tunState = .ready ∧
      ¬ AllOrNothing newSession usualResp
        (clientProcessCtrlPkt noNftHost newSession usualResp) := by
  have hok : (configDev noNftHost newSession usualResp).ok = true :=
    configDev_ok_iff.mpr (usualResp_works ⟨rfl, rfl, rfl, rfl⟩ ⟨rfl, rfl⟩ ⟨rfl, rfl⟩
      ⟨rfl, rfl, rfl⟩ ⟨rfl, rfl⟩ fun _ => rfl)
  have e : processConfigResp noNftHost newSession usualResp = _ := processConfigResp_ok rfl hok
  rw [clientProcessCtrlPkt_of_configResp usualResp_isConfigResp, e]
  refine ⟨rfl, fun han => ?_⟩
  have hnot : ¬ EveryStep newSession usualResp
      (processConfigResp noNftHost newSession usualResp) := by
    intro hes
    rw [e] at hes
    have hw := (killSwitch_code hok).mp hes.zero
    exact absurd hw.2 (by decide)
  rw [e] at hnot
  exact TunState.noConfusion (han.nothing hnot).2.1

end QuicVpn
