import QuicVpn.Common.Tun
import QuicVpn.Lib.Exec

/-!
# What the status word of a device says

`tun_start` looks at `sts_flags` only.  The wrappers of `tun.c` keep this word by the codes of the
driver; whether an item of the configuration really is applied is judged here by what the host
answered to the system calls and commands that were made.

* `TunItem`            the descriptor, address, netmask, MTU, link and DNS, one bit of the word each;
* `TunOp.applies`      the system calls of an operation have applied the item;
* `TunOp.undoes`       they have undone it;
* `TunRun.Truthful`    the word agrees with the items;
* `TunRun.WordOk`      the operation is none of the four that make it wrong: a netmask that fails
                       behind the address, a failing `tun_open` on a device that was opened before, a
                       `tun_clear_dns` none of whose commands succeeds, a `tun_destroy`.

The main result is `tunRun_truthful_iff`.  The texts of addresses come from the caller; what
`inet_pton` makes of them is a parameter.
-/

set_option linter.unusedSectionVars false

namespace QuicVpn
open Conc

inductive TunItem where
  | fd
  | addr
  | mask
  | mtu
  | up
  | dns
  deriving DecidableEq, Repr

/-- the place of its bit in `vpn_state_flags_t` -/
def TunItem.bit : TunItem → ℕ
  | .fd => 0
  | .addr => 1
  | .mask => 2
  | .mtu => 3
  | .up => 4
  | .dns => 5

def TunDev.flag (d : TunDev) (i : TunItem) : Bool := d.stsFlags.getLsbD i.bit

/-! ## the word and its bits -/

theorem TunItem.bit_lt (i : TunItem) : i.bit < 6 := by cases i <;> decide

theorem TunItem.exists_bit {n : ℕ} (hn : n < 6) : ∃ i : TunItem, i.bit = n := by
  interval_cases n
  · exact ⟨.fd, rfl⟩
  · exact ⟨.addr, rfl⟩
  · exact ⟨.mask, rfl⟩
  · exact ⟨.mtu, rfl⟩
  · exact ⟨.up, rfl⟩
  · exact ⟨.dns, rfl⟩

/-- `TUN_STATE_READY` has the bits of all items and no others -/
theorem tunStateReady_bit (n : ℕ) : tunStateReady.getLsbD n = decide (n < 6) := by
  show (BitVec.ofNat 64 (2 ^ 6 - 1)).getLsbD n = decide (n < 6)
  rw [BitVec.getLsbD_ofNat, Nat.testBit_two_pow_sub_one, Bool.eq_iff_iff]
  simp only [Bool.and_eq_true, decide_eq_true_eq]
  omega

theorem ready_iff (w : BitVec 64) :
    w &&& tunStateReady = tunStateReady ↔ ∀ i : TunItem, w.getLsbD i.bit = true := by
  constructor
  · intro h i
    have hb : (w &&& tunStateReady).getLsbD i.bit = true := by
      rw [h, tunStateReady_bit]
      exact decide_eq_true i.bit_lt
    rw [BitVec.getLsbD_and, Bool.and_eq_true] at hb
    exact hb.1
  · intro h
    apply BitVec.eq_of_getLsbD_eq
    intro n _
    rw [BitVec.getLsbD_and, tunStateReady_bit]
    by_cases hn : n < 6
    · obtain ⟨i, rfl⟩ := TunItem.exists_bit hn
      rw [h i, Bool.true_and]
    · rw [decide_eq_false hn, Bool.and_false]

theorem blank_iff (w : BitVec 64) :
    w &&& tunStateReady = 0 ↔ ∀ i : TunItem, w.getLsbD i.bit = false := by
  constructor
  · intro h i
    have hb : (w &&& tunStateReady).getLsbD i.bit = false := by
      rw [h]
      exact BitVec.getLsbD_zero
    rw [BitVec.getLsbD_and, tunStateReady_bit, decide_eq_true i.bit_lt, Bool.and_true] at hb
    exact hb
  · intro h
    apply BitVec.eq_of_getLsbD_eq
    intro n _
    show _ = (0#64).getLsbD n
    rw [BitVec.getLsbD_and, tunStateReady_bit, BitVec.getLsbD_zero]
    by_cases hn : n < 6
    · obtain ⟨i, rfl⟩ := TunItem.exists_bit hn
      rw [h i, Bool.false_and]
    · rw [decide_eq_false hn, Bool.and_false]

theorem tunStart_zero (d : TunDev) : (tunStart d).1 = 0 ↔ ∀ i, d.flag i = true := by
  rw [show (∀ i, d.flag i = true) ↔ _ from (ready_iff d.stsFlags).symm]
  unfold tunStart
  split_ifs with h
  · exact iff_of_false enodev_ne_zero h
  · exact iff_of_true rfl (not_not.mp h)

/-- a wrapper that sets flags -/
theorem setFlagsOn_flag (flags : BitVec 64) (r : ℤ × TunDev) (i : TunItem) :
    (setFlagsOn flags r).2.flag i =
      (r.2.flag i || (decide (r.1 = 0) && flags.getLsbD i.bit)) := by
  unfold setFlagsOn TunDev.flag
  by_cases h : r.1 = 0
  · simp only [h, if_true, decide_true, Bool.true_and, BitVec.getLsbD_or]
  · simp only [h, if_false, decide_false, Bool.false_and, Bool.or_false]

/-- and one that clears them -/
theorem clearFlagsOn_flag (flags : BitVec 64) (r : ℤ × TunDev) (i : TunItem) :
    (clearFlagsOn flags r).2.flag i =
      (r.2.flag i && !(decide (r.1 = 0) && flags.getLsbD i.bit)) := by
  have hi : i.bit < 64 := Nat.lt_of_lt_of_le i.bit_lt (by decide)
  unfold clearFlagsOn TunDev.flag
  by_cases h : r.1 = 0
  · simp only [h, if_true, decide_true, Bool.true_and, BitVec.getLsbD_and, BitVec.getLsbD_not, hi]
  · simp only [h, if_false, decide_false, Bool.false_and, Bool.not_false, Bool.and_true]

theorem TunDev.Kept.flag {d e : TunDev} (h : d.Kept e) (i : TunItem) : e.flag i = d.flag i := by
  unfold TunDev.flag
  rw [h.stsFlags]

theorem setFlagsOn_kept {flags : BitVec 64} {r : ℤ × TunDev} :
    (setFlagsOn flags r).2.privData = r.2.privData ∧ (setFlagsOn flags r).2.ifname = r.2.ifname := by
  unfold setFlagsOn
  split_ifs <;> exact ⟨rfl, rfl⟩

theorem clearFlagsOn_kept {flags : BitVec 64} {r : ℤ × TunDev} :
    (clearFlagsOn flags r).2.privData = r.2.privData ∧
      (clearFlagsOn flags r).2.ifname = r.2.ifname := by
  unfold clearFlagsOn
  split_ifs <;> exact ⟨rfl, rfl⟩

/-! ## the operations -/

inductive TunOp where
  | openDev
  | setAddr (ip mask : Option String)
  | setMtu (mtu : BitVec 16)
  | setUp
  | setDown
  | setDns (dns1 dns2 : Option String)
  | clearDns
  | destroy

section
variable (inetPton : String → Option InAddr)

/-- `sys_tun_set_address` from its texts on; `none` is `NULL` -/
def sysTunSetAddressText (h : Host) (ip mask : Option String) (d : TunDev) : ℤ × TunDev :=
  match ip, mask with
  | some ipStr, some maskStr =>
    match inetPton ipStr with
    | none => (einval, d)
    | some a =>
      match inetPton maskStr with
      | none => (einval, { d with ip := a })
      | some m => sysTunSetAddress h a m d
  | _, _ => (einval, d)

/-- `sys_tun_set_dns` from its texts on -/
def sysTunSetDnsText (h : Host) (dns1 dns2 : Option String) (d : TunDev) : ℤ × TunDev :=
  match dns1, dns2 with
  | some dns1Str, some dns2Str =>
    if d.ifname = none ∨ dns1Str = "" ∨ dns2Str = "" then (einval, d)
    else if d.privData = false then (einval, d)
    else
      match inetPton dns1Str with
      | none => (einval, d)
      | some a =>
        match inetPton dns2Str with
        | none => (einval, { d with dns1 := a })
        | some b => sysTunSetDns h a b d
  | _, _ => (einval, d)

/-- the call of `tun.c` -/
def TunOp.run (h : Host) (d : TunDev) : TunOp → ℤ × TunDev
  | .openDev => tunOpen h d
  | .setAddr ip mask => setFlagsOn tunStateAddrSet (sysTunSetAddressText inetPton h ip mask d)
  | .setMtu mtu => tunSetMtu h mtu d
  | .setUp => tunSetUp h d
  | .setDown => tunSetDown h d
  | .setDns dns1 dns2 => setFlagsOn tunStateDnsSet (sysTunSetDnsText inetPton h dns1 dns2 d)
  | .clearDns => tunClearDns h d
  | .destroy => tunDestroy h d

/-- `sys_tun_set_address` has come to `SIOCSIFADDR` -/
def addrReached (h : Host) (d : TunDev) (ip mask : Option String) : Bool :=
  (ip.bind inetPton).isSome &&
    (mask.bind inetPton).any (fun m => validateMask m && h.addrSocket == 0 && d.ifname.isSome)

/-- `sys_tun_set_dns` has come to its commands -/
def dnsReached (d : TunDev) (dns1 dns2 : Option String) : Bool :=
  d.ifname.isSome && dns1 != some "" && dns2 != some "" && d.privData &&
    (dns1.bind inetPton).isSome && (dns2.bind inetPton).isSome

/-- the system calls of the operation have applied the item -/
def TunOp.applies (h : Host) (d : TunDev) : TunOp → TunItem → Bool
  | .openDev, .fd => h.openTun == 0 && h.tunSetIff == 0
  | .setAddr ip mask, .addr => addrReached inetPton h d ip mask && h.setIfAddr == 0
  | .setAddr ip mask, .mask =>
    addrReached inetPton h d ip mask && h.setIfAddr == 0 && h.setIfNetmask == 0
  | .setMtu mtu, .mtu =>
    d.ifname.isSome && decide (256 ≤ mtu.toNat ∧ mtu.toNat ≤ 1380) && h.mtuSocket == 0 &&
      h.setIfMtu == 0
  | .setUp, .up => d.ifname.isSome && h.upSocket == 0 && h.upGetFlags == 0 && h.upSetFlags == 0
  | .setDns dns1 dns2, .dns =>
    dnsReached inetPton d dns1 dns2 && h.dnsCmd == 0 && h.domainCmd == 0
  | _, _ => false

/-- they have undone it; `tun_open` gives up the descriptor that was in the handle, and DNS is undone
with either of its two parts -/
def TunOp.undoes (h : Host) (d : TunDev) : TunOp → TunItem → Bool
  | .openDev, .fd => true
  | .setDown, .up =>
    d.ifname.isSome && h.downSocket == 0 && h.downGetFlags == 0 && h.downSetFlags == 0
  | .clearDns, .dns =>
    d.ifname.isSome && d.privData && (h.clearDomainCmd == 0 || h.clearDnsCmd == 0)
  | .destroy, _ => true
  | _, _ => false

/-- a handle, and the items that are applied -/
structure TunRun where
  dev : TunDev
  applied : TunItem → Bool

/-- behind `tun_create` -/
def TunRun.init : TunRun := ⟨tunCreate, fun _ => false⟩

def TunRun.step (s : TunRun) (a : TunOp × Host) : Option TunRun :=
  some ⟨(a.1.run inetPton a.2 s.dev).2, fun i =>
    a.1.applies inetPton a.2 s.dev i || (s.applied i && !a.1.undoes a.2 s.dev i)⟩

/-- `tun_start` returns `0` if and only if everything is applied -/
def TunRun.StartsRight (s : TunRun) : Prop := (tunStart s.dev).1 = 0 ↔ ∀ i, s.applied i = true

/-- an open descriptor need not have its flag: `tun_open` may fail behind it -/
structure TunRun.Truthful (s : TunRun) : Prop where
  fd : s.dev.flag .fd = true → s.applied .fd = true
  rest : ∀ i, i ≠ .fd → s.dev.flag i = s.applied i

def TunRun.WordOk (s : TunRun) : TunOp × Host → Prop
  | (.openDev, h) => s.dev.flag .fd = true → h.openTun = 0 ∧ h.tunSetIff = 0
  | (.setAddr ip mask, h) => addrReached inetPton h s.dev ip mask = true → h.setIfAddr = 0 →
      s.dev.flag .mask = true ∨ h.setIfNetmask = 0
  | (.clearDns, h) => s.dev.flag .dns = true → h.clearDomainCmd = 0 ∨ h.clearDnsCmd = 0
  | (.destroy, _) => s.dev.stsFlags &&& tunStateReady = 0
  | _ => True

instance (s : TunRun) : ∀ a, Decidable (s.WordOk inetPton a)
  | (.openDev, h) => inferInstanceAs
      (Decidable (s.dev.flag .fd = true → h.openTun = 0 ∧ h.tunSetIff = 0))
  | (.setAddr ip mask, h) => inferInstanceAs
      (Decidable (addrReached inetPton h s.dev ip mask = true → h.setIfAddr = 0 →
        s.dev.flag .mask = true ∨ h.setIfNetmask = 0))
  | (.clearDns, h) => inferInstanceAs
      (Decidable (s.dev.flag .dns = true → h.clearDomainCmd = 0 ∨ h.clearDnsCmd = 0))
  | (.destroy, _) => inferInstanceAs (Decidable (s.dev.stsFlags &&& tunStateReady = 0))
  | (.setMtu _, _) => .isTrue trivial
  | (.setUp, _) => .isTrue trivial
  | (.setDown, _) => .isTrue trivial
  | (.setDns _ _, _) => .isTrue trivial

/-! ## the codes of the driver -/

section
variable {inetPton} {h : Host} {d : TunDev}

theorem sysTunSetAddressText_kept (ip mask : Option String) :
    d.Kept (sysTunSetAddressText inetPton h ip mask d).2 := by
  unfold sysTunSetAddressText
  split
  · split
    · exact ⟨rfl, rfl, rfl, rfl⟩
    · split
      · exact ⟨rfl, rfl, rfl, rfl⟩
      · exact sysTunSetAddress_kept _ _
  · exact ⟨rfl, rfl, rfl, rfl⟩

theorem sysTunSetDnsText_kept (dns1 dns2 : Option String) :
    d.Kept (sysTunSetDnsText inetPton h dns1 dns2 d).2 := by
  unfold sysTunSetDnsText
  split
  · split_ifs
    · exact ⟨rfl, rfl, rfl, rfl⟩
    · exact ⟨rfl, rfl, rfl, rfl⟩
    · split
      · exact ⟨rfl, rfl, rfl, rfl⟩
      · split
        · exact ⟨rfl, rfl, rfl, rfl⟩
        · exact sysTunSetDns_kept _ _
  · exact ⟨rfl, rfl, rfl, rfl⟩

/-- the netmask has no part in it -/
theorem sysTunSetAddress_zero (ip mask : InAddr) : (sysTunSetAddress h ip mask d).1 = 0 ↔
    validateMask mask = true ∧ h.addrSocket = 0 ∧ d.ifname ≠ none ∧ h.setIfAddr = 0 := by
  simp only [sysTunSetAddress]
  split_ifs with h1 h2 h3 h4 h5 <;>
    simp_all [einval_ne_zero]

theorem sysTunSetAddressText_zero (ip mask : Option String) :
    (sysTunSetAddressText inetPton h ip mask d).1 = 0 ↔
      addrReached inetPton h d ip mask = true ∧ h.setIfAddr = 0 := by
  unfold sysTunSetAddressText
  split
  · rename_i ipStr maskStr
    split
    · rename_i e
      simp [addrReached, e, einval_ne_zero]
    · rename_i e
      split
      · rename_i e'
        simp [addrReached, e', einval_ne_zero]
      · rename_i m e'
        rw [sysTunSetAddress_zero]
        simp [addrReached, e, e', Option.isSome_iff_ne_none, and_assoc]
  · rename_i hno
    refine iff_of_false einval_ne_zero ?_
    rintro ⟨hr, -⟩
    cases ip with
    | none => exact absurd hr (by simp [addrReached])
    | some a =>
      cases mask with
      | none => exact absurd hr (by simp [addrReached])
      | some m => exact hno a m rfl rfl

theorem sysTunSetMtu_zero (f : String → Option InAddr) (mtu : BitVec 16) :
    decide ((sysTunSetMtu h mtu d).1 = 0) = (TunOp.setMtu mtu).applies f h d .mtu := by
  simp only [sysTunSetMtu]
  split_ifs with h1 h2 h3
  · rcases h1 with e | e | e
    · simp [TunOp.applies, e, einval_ne_zero]
    · simp [TunOp.applies, Nat.not_le.mpr e, einval_ne_zero]
    · simp [TunOp.applies, Nat.not_le.mpr e, einval_ne_zero]
  · simp [TunOp.applies, h2]
  · simp [TunOp.applies, h3]
  · rw [not_or, not_or, Nat.not_lt, Nat.not_lt] at h1
    simp_all [TunOp.applies, Option.isSome_iff_ne_none]

theorem sysTunSetUp_zero (f : String → Option InAddr) : decide ((sysTunSetUp h d).1 = 0) =
    TunOp.setUp.applies f h d .up := by
  unfold sysTunSetUp
  split_ifs with h1 h2 h3 h4
  · simp [TunOp.applies, h1, einval_ne_zero]
  · simp [TunOp.applies, h2]
  · simp [TunOp.applies, h3]
  · simp [TunOp.applies, h4]
  · simp_all [TunOp.applies, Option.isSome_iff_ne_none]

theorem sysTunSetDown_zero : decide ((sysTunSetDown h d).1 = 0) =
    TunOp.setDown.undoes h d .up := by
  unfold sysTunSetDown
  split_ifs with h1 h2 h3 h4
  · simp [TunOp.undoes, h1, einval_ne_zero]
  · simp [TunOp.undoes, h2]
  · simp [TunOp.undoes, h3]
  · simp [TunOp.undoes, h4]
  · simp_all [TunOp.undoes, Option.isSome_iff_ne_none]

theorem sysTunSetDnsText_zero (dns1 dns2 : Option String) :
    decide ((sysTunSetDnsText inetPton h dns1 dns2 d).1 = 0) =
      (TunOp.setDns dns1 dns2).applies inetPton h d .dns := by
  unfold sysTunSetDnsText
  split
  · rename_i t1 t2
    split_ifs with h1 h2
    · rcases h1 with e | e | e
      · simp [TunOp.applies, dnsReached, e, einval_ne_zero]
      · simp [TunOp.applies, dnsReached, e, einval_ne_zero]
      · simp [TunOp.applies, dnsReached, e, einval_ne_zero]
    · simp [TunOp.applies, dnsReached, h2, einval_ne_zero]
    · rw [not_or, not_or] at h1
      split
      · rename_i e
        simp [TunOp.applies, dnsReached, e, einval_ne_zero]
      · rename_i e
        split
        · rename_i e'
          simp [TunOp.applies, dnsReached, e', einval_ne_zero]
        · rename_i e'
          unfold sysTunSetDns
          split_ifs with h3 h4 h5
          · exact absurd h3 (not_or.mpr ⟨h1.1, h2⟩)
          · simp [TunOp.applies, h4]
          · simp [TunOp.applies, h5]
          · simp_all [TunOp.applies, dnsReached, Option.isSome_iff_ne_none]
  · rename_i hno
    cases dns1 with
    | none => simp [TunOp.applies, dnsReached, einval_ne_zero]
    | some t1 =>
      cases dns2 with
      | none => simp [TunOp.applies, dnsReached, einval_ne_zero]
      | some t2 => exact absurd rfl (hno t1 t2 rfl)

theorem sysTunClearDns_zero : (sysTunClearDns h d).1 = 0 ↔
    d.ifname.isSome = true ∧ d.privData = true := by
  unfold sysTunClearDns
  by_cases h1 : d.ifname = none ∨ d.privData = false
  · rw [if_pos h1]
    refine iff_of_false einval_ne_zero ?_
    rintro ⟨hn, hp⟩
    rcases h1 with e | e
    · rw [e] at hn
      cases hn
    · rw [e] at hp
      cases hp
  · rw [if_neg h1]
    rw [not_or, Bool.not_eq_false] at h1
    exact iff_of_true rfl ⟨Option.isSome_iff_ne_none.mpr h1.1, h1.2⟩

theorem sysTunOpen_zero : (sysTunOpen h d).1 = 0 ↔
    h.openTun = 0 ∧ h.tunSetIff = 0 ∧ h.mallocPriv = true ∧ h.binaries = true := by
  unfold sysTunOpen
  split_ifs with h1 h2 h3 h4 <;> simp_all [enomem_ne_zero, enoent_ne_zero]

/-- a device gets its private data when `tun_open` succeeds -/
theorem sysTunOpen_priv (hp : (sysTunOpen h d).2.privData = true) :
    (sysTunOpen h d).1 = 0 ∧ (sysTunOpen h d).2.ifname.isSome = true ∨
      d.privData = true ∧ (d.ifname.isSome = true → (sysTunOpen h d).2.ifname.isSome = true) := by
  unfold sysTunOpen at hp ⊢
  split_ifs at hp ⊢
  · exact .inr ⟨hp, id⟩
  · exact .inr ⟨hp, id⟩
  · exact .inr ⟨hp, fun _ => rfl⟩
  · exact .inr ⟨hp, fun _ => rfl⟩
  · exact .inl ⟨rfl, rfl⟩

/-- and does not lose it -/
theorem sysTunOpen_keeps_priv (hp : d.privData = true) : (sysTunOpen h d).2.privData = true := by
  unfold sysTunOpen
  split_ifs <;> first | exact hp | rfl

theorem tunDestroy_flags : (tunDestroy h d).2.stsFlags = d.stsFlags := by
  have hdown : (cleanupDown h d).2.stsFlags = d.stsFlags := by
    unfold cleanupDown
    split_ifs <;> rfl
  simp only [tunDestroy, sysTunCleanup]
  split_ifs <;> exact hdown

theorem tunDestroy_priv : (tunDestroy h d).2.privData = false := rfl

end

/-! ## one operation -/

/-- with DNS applied the device has its private data, and that comes with its name and the flag of an
open device -/
structure TunRun.Inv (s : TunRun) : Prop where
  truth : s.Truthful
  opened : s.dev.privData = true → s.dev.ifname.isSome = true ∧ s.dev.flag .fd = true
  dns : s.applied .dns = true → s.dev.privData = true

theorem TunRun.Inv.startsRight {s : TunRun} (hi : s.Inv) : s.StartsRight := by
  unfold TunRun.StartsRight
  rw [tunStart_zero]
  constructor
  · intro hall i
    by_cases e : i = .fd
    · rw [e]
      exact hi.truth.fd (hall .fd)
    · rw [← hi.truth.rest i e]
      exact hall i
  · intro hall i
    by_cases e : i = .fd
    · rw [e]
      exact (hi.opened (hi.dns (hall .dns))).2
    · rw [hi.truth.rest i e]
      exact hall i

section
variable {inetPton} {h : Host} {s t : TunRun} {op : TunOp} {flags : BitVec 64} {r : ℤ × TunDev}

/-- an operation that leaves name, private data and descriptor alone -/
theorem TunRun.Inv.keep (hi : s.Inv) (hp : t.dev.privData = s.dev.privData)
    (hn : t.dev.ifname = s.dev.ifname) (hf : t.dev.flag .fd = s.dev.flag .fd)
    (ha : t.applied .fd = s.applied .fd) (hrest : ∀ i, i ≠ .fd → t.dev.flag i = t.applied i)
    (hd : t.applied .dns = true → s.dev.privData = true) : t.Inv := by
  refine ⟨⟨fun h1 => ?_, hrest⟩, fun h1 => ?_, fun h1 => ?_⟩
  · rw [ha]
    exact hi.truth.fd (hf ▸ h1)
  · rw [hn, hf]
    exact hi.opened (hp ▸ h1)
  · rw [hp]
    exact hd h1

/-- one that sets flags -/
theorem TunRun.Inv.set (hi : s.Inv) (hs : s.step inetPton (op, h) = some t)
    (hrun : op.run inetPton h s.dev = setFlagsOn flags r) (hk : s.dev.Kept r.2)
    (hfd : flags.getLsbD 0 = false) (hu : ∀ i, op.undoes h s.dev i = false)
    (ha : ∀ i, (op.applies inetPton h s.dev i || s.applied i) =
      ((decide (r.1 = 0) && flags.getLsbD i.bit) || s.applied i))
    (hd : op.applies inetPton h s.dev .dns = true → s.dev.privData = true) : t.Inv := by
  obtain rfl := Option.some.inj hs
  have hflag : ∀ i, (op.run inetPton h s.dev).2.flag i =
      (s.dev.flag i || (decide (r.1 = 0) && flags.getLsbD i.bit)) := by
    intro i
    rw [hrun, setFlagsOn_flag, hk.flag]
  have happ : ∀ i, (op.applies inetPton h s.dev i || (s.applied i && !op.undoes h s.dev i)) =
      (s.applied i || (decide (r.1 = 0) && flags.getLsbD i.bit)) := by
    intro i
    rw [hu i, Bool.not_false, Bool.and_true, ha i, Bool.or_comm]
  have h0 : flags.getLsbD TunItem.fd.bit = false := hfd
  refine hi.keep ?_ ?_ ?_ ?_ (fun i hne => ?_) (fun hdns => ?_)
  · exact (congrArg (fun x => x.2.privData) hrun).trans (setFlagsOn_kept.1.trans hk.privData)
  · exact (congrArg (fun x => x.2.ifname) hrun).trans (setFlagsOn_kept.2.trans hk.ifname)
  · show (op.run inetPton h s.dev).2.flag .fd = _
    rw [hflag, h0, Bool.and_false, Bool.or_false]
  · show (_ || _) = _
    rw [happ, h0, Bool.and_false, Bool.or_false]
  · show (op.run inetPton h s.dev).2.flag i = (_ || _)
    rw [hflag i, happ i, hi.truth.rest i hne]
  · change (_ || _) = true at hdns
    rw [hu, Bool.not_false, Bool.and_true, Bool.or_eq_true] at hdns
    exact hdns.elim hd hi.dns

/-- and one that clears them -/
theorem TunRun.Inv.clear (hi : s.Inv) (hs : s.step inetPton (op, h) = some t)
    (hrun : op.run inetPton h s.dev = clearFlagsOn flags r) (hk : s.dev.Kept r.2)
    (hfd : flags.getLsbD 0 = false) (ha : ∀ i, op.applies inetPton h s.dev i = false)
    (hu : ∀ i, (s.applied i && !op.undoes h s.dev i) =
      (s.applied i && !(decide (r.1 = 0) && flags.getLsbD i.bit))) : t.Inv := by
  obtain rfl := Option.some.inj hs
  have hflag : ∀ i, (op.run inetPton h s.dev).2.flag i =
      (s.dev.flag i && !(decide (r.1 = 0) && flags.getLsbD i.bit)) := by
    intro i
    rw [hrun, clearFlagsOn_flag, hk.flag]
  have happ : ∀ i, (op.applies inetPton h s.dev i || (s.applied i && !op.undoes h s.dev i)) =
      (s.applied i && !(decide (r.1 = 0) && flags.getLsbD i.bit)) := by
    intro i
    rw [ha i, Bool.false_or, hu i]
  have h0 : flags.getLsbD TunItem.fd.bit = false := hfd
  refine hi.keep ?_ ?_ ?_ ?_ (fun i hne => ?_) (fun hdns => ?_)
  · exact (congrArg (fun x => x.2.privData) hrun).trans (clearFlagsOn_kept.1.trans hk.privData)
  · exact (congrArg (fun x => x.2.ifname) hrun).trans (clearFlagsOn_kept.2.trans hk.ifname)
  · show (op.run inetPton h s.dev).2.flag .fd = _
    rw [hflag, h0, Bool.and_false, Bool.not_false, Bool.and_true]
  · show (_ || _) = _
    rw [happ, h0, Bool.and_false, Bool.not_false, Bool.and_true]
  · show (op.run inetPton h s.dev).2.flag i = (_ || _)
    rw [hflag i, happ i, hi.truth.rest i hne]
  · change (_ || _) = true at hdns
    rw [ha, Bool.false_or, Bool.and_eq_true] at hdns
    exact hi.dns hdns.1

end

/-! ## every operation -/

section
variable {inetPton} {h : Host} {s t : TunRun}

theorem TunRun.Inv.openDev (hi : s.Inv) (hC : s.WordOk inetPton (.openDev, h))
    (hs : s.step inetPton (.openDev, h) = some t) : t.Inv := by
  obtain rfl := Option.some.inj hs
  have hflag : ∀ i, (tunOpen h s.dev).2.flag i =
      (s.dev.flag i || (decide ((sysTunOpen h s.dev).1 = 0) && tunStateOpen.getLsbD i.bit)) := by
    intro i
    unfold tunOpen
    rw [setFlagsOn_flag]
    unfold TunDev.flag
    rw [sysTunOpen_flags]
  have hrest : ∀ i, i ≠ .fd → (TunOp.openDev.applies inetPton h s.dev i ||
      (s.applied i && !TunOp.openDev.undoes h s.dev i)) = s.applied i := by
    intro i hne
    cases i with
    | fd => exact absurd rfl hne
    | _ => exact Bool.and_true _
  refine ⟨⟨fun hf => ?_, fun i hne => ?_⟩, fun hp => ?_, fun hdns => ?_⟩
  · show (_ || _) = true
    change (tunOpen h s.dev).2.flag .fd = true at hf
    rw [hflag, Bool.or_eq_true, Bool.and_eq_true, decide_eq_true_eq] at hf
    have hw : h.openTun = 0 ∧ h.tunSetIff = 0 := by
      rcases hf with hf | ⟨hz, -⟩
      · exact hC hf
      · obtain ⟨h1, h2, -⟩ := sysTunOpen_zero.mp hz
        exact ⟨h1, h2⟩
    simp [TunOp.applies, hw]
  · show (tunOpen h s.dev).2.flag i = (_ || _)
    rw [hflag, hrest i hne, hi.truth.rest i hne]
    cases i with
    | fd => exact absurd rfl hne
    | _ =>
      show (s.applied _ || (_ && false)) = _
      rw [Bool.and_false, Bool.or_false]
  · change (tunOpen h s.dev).2.privData = true at hp
    show (tunOpen h s.dev).2.ifname.isSome = true ∧ (tunOpen h s.dev).2.flag .fd = true
    rw [tunOpen, setFlagsOn_kept.1] at hp
    rw [hflag, tunOpen, setFlagsOn_kept.2]
    rcases sysTunOpen_priv hp with ⟨hz, hn⟩ | ⟨hp', hn⟩
    · rw [hz]
      exact ⟨hn, Bool.or_true _⟩
    · obtain ⟨hn', hf⟩ := hi.opened hp'
      rw [hf]
      exact ⟨hn hn', rfl⟩
  · have hdns' : s.applied .dns = true := (hrest .dns TunItem.noConfusion).symm.trans hdns
    show (tunOpen h s.dev).2.privData = true
    rw [tunOpen, setFlagsOn_kept.1]
    exact sysTunOpen_keeps_priv (hi.dns hdns')

theorem TunRun.Inv.setAddr {ip mask : Option String} (hi : s.Inv)
    (hC : s.WordOk inetPton (.setAddr ip mask, h))
    (hs : s.step inetPton (.setAddr ip mask, h) = some t) : t.Inv := by
  refine hi.set hs rfl (sysTunSetAddressText_kept ip mask) rfl (fun _ => rfl) (fun i => ?_)
    (fun hf => absurd hf Bool.false_ne_true)
  have hz : decide ((sysTunSetAddressText inetPton h ip mask s.dev).1 = 0) =
      (addrReached inetPton h s.dev ip mask && h.setIfAddr == 0) := by
    rw [Bool.eq_iff_iff, decide_eq_true_eq, sysTunSetAddressText_zero]
    simp
  cases i with
  | addr =>
    rw [hz]
    exact congrArg (· || _) (Bool.and_true _).symm
  | mask =>
    -- where the netmask fails, it was applied before
    show (addrReached inetPton h s.dev ip mask && h.setIfAddr == 0 && h.setIfNetmask == 0 ||
      s.applied .mask) = (_ && true || _)
    rw [hz, Bool.and_true]
    by_cases hr : addrReached inetPton h s.dev ip mask = true
    · by_cases ha : h.setIfAddr = 0
      · rcases hC hr ha with hm | hm
        · rw [hi.truth.rest .mask TunItem.noConfusion] at hm
          rw [hm, Bool.or_true, Bool.or_true]
        · rw [hm]
          exact congrArg (· || _) (Bool.and_true _)
      · rw [beq_eq_false_iff_ne.mpr ha, Bool.and_false, Bool.false_and]
    · rw [Bool.not_eq_true] at hr
      rw [hr, Bool.false_and, Bool.false_and]
  | fd | mtu | up | dns => exact congrArg (· || _) (Bool.and_false _).symm

theorem TunRun.Inv.clearDns (hi : s.Inv) (hC : s.WordOk inetPton (.clearDns, h))
    (hs : s.step inetPton (.clearDns, h) = some t) : t.Inv := by
  refine hi.clear hs rfl sysTunClearDns_kept rfl (fun _ => rfl) (fun i => ?_)
  cases i with
  | dns =>
    by_cases ha : s.applied .dns = true
    · obtain ⟨hn, -⟩ := hi.opened (hi.dns ha)
      have hz : (sysTunClearDns h s.dev).1 = 0 := sysTunClearDns_zero.mpr ⟨hn, hi.dns ha⟩
      have hu : TunOp.clearDns.undoes h s.dev .dns = true := by
        rw [← hi.truth.rest .dns TunItem.noConfusion] at ha
        have hc := hC ha
        simp only [TunOp.undoes, hn, hi.dns (hi.truth.rest .dns TunItem.noConfusion ▸ ha)]
        simpa using hc
      rw [hu, hz]
      rfl
    · rw [Bool.not_eq_true] at ha
      rw [ha, Bool.false_and, Bool.false_and]
  | fd | addr | mask | mtu | up => exact congrArg (fun b => _ && !b) (Bool.and_false _).symm

theorem TunRun.Inv.destroy (hC : s.WordOk inetPton (.destroy, h))
    (hs : s.step inetPton (.destroy, h) = some t) : t.Inv := by
  obtain rfl := Option.some.inj hs
  have hflag : ∀ i, (tunDestroy h s.dev).2.flag i = false := by
    intro i
    unfold TunDev.flag
    rw [tunDestroy_flags]
    exact (blank_iff _).mp hC i
  have happ : ∀ i, (TunOp.destroy.applies inetPton h s.dev i ||
      (s.applied i && !TunOp.destroy.undoes h s.dev i)) = false := fun i => Bool.and_false _
  refine ⟨⟨fun hf => ?_, fun i _ => ?_⟩, fun hp => ?_, fun hdns => ?_⟩
  · exact absurd ((hflag .fd).symm.trans hf) Bool.false_ne_true
  · exact (hflag i).trans (happ i).symm
  · exact absurd (tunDestroy_priv.symm.trans hp) Bool.false_ne_true
  · exact absurd ((happ .dns).symm.trans hdns) Bool.false_ne_true

theorem TunRun.step_inv (a : TunOp × Host) (hi : s.Inv) (hC : s.WordOk inetPton a)
    (hs : s.step inetPton a = some t) : t.Inv := by
  obtain ⟨op, h⟩ := a
  cases op with
  | openDev => exact hi.openDev hC hs
  | setAddr ip mask => exact hi.setAddr hC hs
  | setMtu mtu =>
    refine hi.set hs rfl (sysTunSetMtu_kept mtu) rfl (fun _ => rfl) (fun i => ?_)
      (fun hf => absurd hf Bool.false_ne_true)
    rw [sysTunSetMtu_zero inetPton]
    cases i with
    | mtu => exact congrArg (· || _) (Bool.and_true _).symm
    | _ => exact congrArg (· || _) (Bool.and_false _).symm
  | setUp =>
    refine hi.set hs rfl sysTunSetUp_kept rfl (fun _ => rfl) (fun i => ?_)
      (fun hf => absurd hf Bool.false_ne_true)
    rw [sysTunSetUp_zero inetPton]
    cases i with
    | up => exact congrArg (· || _) (Bool.and_true _).symm
    | _ => exact congrArg (· || _) (Bool.and_false _).symm
  | setDown =>
    refine hi.clear hs rfl sysTunSetDown_kept rfl (fun _ => rfl) (fun i => ?_)
    rw [sysTunSetDown_zero]
    cases i with
    | up => exact congrArg (fun b => _ && !b) (Bool.and_true _).symm
    | _ => exact congrArg (fun b => _ && !b) (Bool.and_false _).symm
  | setDns dns1 dns2 =>
    refine hi.set hs rfl (sysTunSetDnsText_kept dns1 dns2) rfl (fun _ => rfl) (fun i => ?_)
      (fun hf => ?_)
    · rw [sysTunSetDnsText_zero]
      cases i with
      | dns => exact congrArg (· || _) (Bool.and_true _).symm
      | _ => exact congrArg (· || _) (Bool.and_false _).symm
    · simp only [TunOp.applies, dnsReached, Bool.and_eq_true] at hf
      exact hf.1.1.1.1.2
  | clearDns => exact hi.clearDns hC hs
  | destroy => exact TunRun.Inv.destroy hC hs

/-- each of the four operations makes the word wrong at once -/
theorem TunRun.step_bad (a : TunOp × Host) (hi : s.Inv) (hC : ¬ s.WordOk inetPton a)
    (hs : s.step inetPton a = some t) : ¬ t.Truthful := by
  obtain ⟨op, h⟩ := a
  obtain rfl := Option.some.inj hs
  intro ht
  cases op with
  | openDev =>
    obtain ⟨hf, hw⟩ := Classical.not_imp.mp hC
    have hflag : (tunOpen h s.dev).2.flag .fd = true := by
      rw [tunOpen, setFlagsOn_flag]
      unfold TunDev.flag at hf ⊢
      rw [sysTunOpen_flags, hf, Bool.true_or]
    have happ := ht.fd hflag
    simp only [TunOp.applies, TunOp.undoes, Bool.not_true, Bool.and_false, Bool.or_false,
      Bool.and_eq_true, beq_iff_eq] at happ
    exact hw happ
  | setAddr ip mask =>
    obtain ⟨hr, hC⟩ := Classical.not_imp.mp hC
    obtain ⟨ha, hC⟩ := Classical.not_imp.mp hC
    obtain ⟨hm, hn⟩ := not_or.mp hC
    have hz := (sysTunSetAddressText_zero ip mask).mpr ⟨hr, ha⟩
    have hflag : (setFlagsOn tunStateAddrSet (sysTunSetAddressText inetPton h ip mask s.dev)).2.flag
        .mask = true := by
      rw [setFlagsOn_flag, hz]
      exact Bool.or_true _
    have happ := (ht.rest .mask TunItem.noConfusion).symm.trans hflag
    simp only [TunOp.applies, TunOp.undoes, beq_eq_false_iff_ne.mpr hn, Bool.and_false,
      Bool.false_or, Bool.not_false, Bool.and_true] at happ
    rw [hi.truth.rest .mask TunItem.noConfusion] at hm
    exact hm happ
  | clearDns =>
    obtain ⟨hf, hC⟩ := Classical.not_imp.mp hC
    obtain ⟨h1, h2⟩ := not_or.mp hC
    rw [hi.truth.rest .dns TunItem.noConfusion] at hf
    obtain ⟨hn, -⟩ := hi.opened (hi.dns hf)
    have hz : (sysTunClearDns h s.dev).1 = 0 := sysTunClearDns_zero.mpr ⟨hn, hi.dns hf⟩
    have hflag : (tunClearDns h s.dev).2.flag .dns = false := by
      rw [tunClearDns, clearFlagsOn_flag, hz]
      exact Bool.and_false _
    have happ := (ht.rest .dns TunItem.noConfusion).symm.trans hflag
    simp only [TunOp.applies, TunOp.undoes, beq_eq_false_iff_ne.mpr h1, beq_eq_false_iff_ne.mpr h2,
      Bool.or_self, Bool.and_false, Bool.false_or, Bool.not_false, Bool.and_true] at happ
    rw [hf] at happ
    cases happ
  | destroy =>
    have hflag : ∀ i, (tunDestroy h s.dev).2.flag i = s.dev.flag i := by
      intro i
      unfold TunDev.flag
      rw [tunDestroy_flags]
    have happ : ∀ i, (TunOp.destroy.applies inetPton h s.dev i ||
        (s.applied i && !TunOp.destroy.undoes h s.dev i)) = false := fun i => Bool.and_false _
    refine hC ((blank_iff _).mpr fun i => ?_)
    show s.dev.flag i = false
    rw [← hflag i]
    by_cases e : i = .fd
    · rw [e, Bool.eq_false_iff]
      intro hf
      exact absurd ((happ .fd).symm.trans (ht.fd hf)) Bool.false_ne_true
    · exact (ht.rest i e).trans (happ i)
  | setMtu _ | setUp | setDown | setDns _ _ => exact hC trivial

/-! ## the main result -/

theorem TunRun.init_inv : TunRun.init.Inv := by
  refine ⟨⟨fun hf => ?_, fun i _ => ?_⟩, fun hp => ?_, fun hd => ?_⟩
  · exact absurd hf Bool.false_ne_true
  · exact BitVec.getLsbD_zero
  · exact absurd hp Bool.false_ne_true
  · exact absurd hd Bool.false_ne_true

/-- every operation returns -/
theorem TunRun.exec_some (f : String → Option InAddr) (l : List (TunOp × Host)) (s : TunRun) :
    ∃ t, exec (TunRun.step f) s l = some t := by
  induction l generalizing s with
  | nil => exact ⟨s, rfl⟩
  | cons a l ih =>
    obtain ⟨t, ht⟩ := ih _
    exact ⟨t, exec_cons.mpr ⟨_, rfl, ht⟩⟩

end

/-- **The status word.**  Over any operations on a handle, with any answers of the host: the word
agrees with what is applied in every state if and only if each operation meets `WordOk`; and then
`tun_start` returns `0` in exactly those states in which the descriptor is open and address, netmask,
MTU, link and DNS are applied. -/
theorem tunRun_truthful_iff (l : List (TunOp × Host)) :
    (Always (TunRun.step inetPton) TunRun.Truthful TunRun.init l ↔
      Along (TunRun.step inetPton) (TunRun.WordOk inetPton) TunRun.init l) ∧
    (Along (TunRun.step inetPton) (TunRun.WordOk inetPton) TunRun.init l →
      Always (TunRun.step inetPton) TunRun.StartsRight TunRun.init l) := by
  constructor
  · obtain ⟨t, ht⟩ := TunRun.exec_some inetPton l TunRun.init
    exact always_iff_along (I := TunRun.Inv) (fun _ hi => hi.truth)
      (fun _ a _ hi hC hs => TunRun.step_inv a hi hC hs)
      (fun _ a _ hi hC hs => TunRun.step_bad a hi hC hs) TunRun.init_inv ht
  · exact always_of_along (I := TunRun.Inv) (fun _ hi => hi.startsRight)
      (fun _ a _ hi hC hs => TunRun.step_inv a hi hC hs) TunRun.init_inv

end

/-- `inet_pton` on the texts below -/
def readAddr (text : String) : Option InAddr :=
  if text = "10.8.0.2" then some 0x0200080a
  else if text = "255.255.255.0" then some 0x00ffffff
  else if text = "8.8.8.8" then some 0x08080808
  else none

/-- a device is configured, with the answers of `h` -/
def configure (h : Host) : List (TunOp × Host) :=
  [(.openDev, h), (.setAddr (some "10.8.0.2") (some "255.255.255.0"), h), (.setMtu 1300, h),
   (.setUp, h), (.setDns (some "8.8.8.8") (some "8.8.8.8"), h)]

theorem tunRun_truthful_iff_configure :
    ∃ s, exec (TunRun.step readAddr) TunRun.init (configure willingHost) = some s ∧
      (tunStart s.dev).1 = 0 ∧
      Along (TunRun.step readAddr) (TunRun.WordOk readAddr) TunRun.init (configure willingHost) ∧
      Always (TunRun.step readAddr) TunRun.StartsRight TunRun.init (configure willingHost) := by
  have hC : Along (TunRun.step readAddr) (TunRun.WordOk readAddr) TunRun.init
      (configure willingHost) := by decide
  exact ⟨_, rfl, rfl, hC, (tunRun_truthful_iff readAddr (configure willingHost)).2 hC⟩

/-- `tun_start` returns `0` without a netmask, after `tun_destroy`, and after a `tun_open` that has lost
the descriptor; and it fails on a device whose DNS two failing commands have left in place -/
theorem tun_start_lies :
    (∃ s, exec (TunRun.step readAddr) TunRun.init
        (configure { willingHost with setIfNetmask := 1 }) = some s ∧
      (tunStart s.dev).1 = 0 ∧ s.applied .mask = false ∧ ¬ s.StartsRight) ∧
    (∃ s, exec (TunRun.step readAddr) TunRun.init
        (configure willingHost ++ [(.destroy, willingHost)]) = some s ∧
      (tunStart s.dev).1 = 0 ∧ s.applied .fd = false ∧ ¬ s.StartsRight) ∧
    (∃ s, exec (TunRun.step readAddr) TunRun.init
        (configure willingHost ++ [(.openDev, { willingHost with openTun := 24 })]) = some s ∧
      (tunStart s.dev).1 = 0 ∧ s.dev.tunFd = -1 ∧ s.applied .fd = false ∧ ¬ s.StartsRight) ∧
    (∃ s, exec (TunRun.step readAddr) TunRun.init (configure willingHost ++
        [(.clearDns, { willingHost with clearDomainCmd := 1, clearDnsCmd := 1 })]) = some s ∧
      (tunStart s.dev).1 = enodev ∧ (∀ i, s.applied i = true) ∧ ¬ s.StartsRight) := by
  refine ⟨⟨_, rfl, rfl, rfl, fun hr => ?_⟩, ⟨_, rfl, rfl, rfl, fun hr => ?_⟩,
    ⟨_, rfl, rfl, rfl, rfl, fun hr => ?_⟩, ⟨_, rfl, rfl, fun i => ?_, fun hr => ?_⟩⟩
  · exact absurd (hr.mp rfl .mask) (by decide)
  · exact absurd (hr.mp rfl .fd) (by decide)
  · exact absurd (hr.mp rfl .fd) (by decide)
  · cases i <;> rfl
  · refine enodev_ne_zero (hr.mpr fun i => ?_)
    cases i <;> rfl

end QuicVpn
