import QuicVpn.Common.TunFlags

/-!
# The address of a TUN device (`sys_tun_set_address`)

`Common/Tun` follows the address and the mask through the driver.  Here is the whole function, with
its texts, the three answers of `inet_pton`, and the fields `prefix` and `net` that are computed from
address and mask.  Every exit leaves a different part of the handle written.

* `TunHandle`                     the handle with these two fields;
* `TunHandle.sysTunSetAddress`    the function, with the requests that the kernel has carried out;
* `sysTunSetAddress_refines`      on the other fields it is the function of `Common/TunFlags`;
* `TunHandle.SetsAddress`         what a caller would want: the code tells whether the address is
                                  set, and a failed call changes nothing;
* `sysTunSetAddress_effect`       what the call does.
-/

set_option linter.unusedSectionVars false

namespace QuicVpn

/-- the answer of `inet_pton(AF_INET, ..)`; only the first one writes the address -/
inductive Pton where
  | addr (a : InAddr)
  /-- `0`: the text is no address -/
  | malformed
  /-- `-1`, with an `errno` -/
  | fault (errno : {n : ℕ // n ≠ 0})

def Pton.toOption : Pton → Option InAddr
  | .addr a => some a
  | _ => none

/-- a request that the kernel has carried out -/
inductive IfRequest where
  /-- `SIOCSIFADDR` -/
  | ifAddr (a : InAddr)
  /-- `SIOCSIFNETMASK` -/
  | ifNetmask (m : InAddr)
  deriving DecidableEq

/-- `tun_iface_t` with the fields `prefix` and `net` -/
structure TunHandle extends TunDev where
  prefixLen : BitVec 8
  net : InAddr

/-- the handle and what has become of a call -/
structure SetAddr where
  code : ℤ
  tun : TunHandle
  done : List IfRequest

/-- `mask_to_prefix`; the `int8_t` that it returns goes into an `uint8_t` -/
def maskToPrefix (mask : InAddr) : BitVec 8 :=
  if !validateMask mask then BitVec.ofInt 8 einval
  else (ntohl mask).cpop.setWidth 8

section
variable (inetPton : String → Pton) (h : Host)

/-- `sys_tun_set_address` from `socket` on -/
def TunHandle.requestAddress (tun : TunHandle) : SetAddr :=
  if h.addrSocket ≠ 0 then ⟨-(h.addrSocket : ℤ), tun, []⟩
  else if tun.ifname = none then ⟨einval, tun, []⟩
  else if h.setIfAddr ≠ 0 then ⟨-(h.setIfAddr : ℤ), tun, []⟩
  -- `err` is still `0` in this branch
  else if h.setIfNetmask ≠ 0 then ⟨0, tun, [.ifAddr tun.ip]⟩
  else ⟨0, tun, [.ifAddr tun.ip, .ifNetmask tun.mask]⟩

/-- the part between the texts and `socket` -/
def TunHandle.checkMask (tun : TunHandle) : SetAddr :=
  if !validateMask tun.mask then ⟨einval, tun, []⟩
  else
    let tun := { tun with prefixLen := maskToPrefix tun.mask }
    -- the field is unsigned
    if (tun.prefixLen.toNat : ℤ) < 0 then ⟨einval, tun, []⟩
    else TunHandle.requestAddress h { tun with net := tun.ip &&& tun.mask }

/-- `sys_tun_set_address` -/
def TunHandle.sysTunSetAddress (ip mask : Option String) (tun : TunHandle) : SetAddr :=
  match ip, mask with
  | some ipStr, some maskStr =>
    match inetPton ipStr with
    | .malformed => ⟨einval, tun, []⟩
    | .fault errno => ⟨-(errno.val : ℤ), tun, []⟩
    | .addr a =>
      let tun := { tun with ip := a }
      match inetPton maskStr with
      | .malformed => ⟨einval, tun, []⟩
      | .fault errno => ⟨-(errno.val : ℤ), tun, []⟩
      | .addr m => TunHandle.checkMask h { tun with mask := m }
  | _, _ => ⟨einval, tun, []⟩

/-- `tun_set_addr` -/
def TunHandle.tunSetAddr (ip mask : Option String) (tun : TunHandle) : SetAddr :=
  let r := tun.sysTunSetAddress inetPton h ip mask
  if r.code = 0 then
    { r with tun := { r.tun with stsFlags := r.tun.stsFlags ||| tunStateAddrSet } }
  else r

/-! ## prefix lengths -/

/-- `p` ones followed by zeros, in the order of the network -/
def Contiguous (mask : InAddr) : Prop := ∃ p ≤ 32, ntohl mask = prefixMask p

theorem validateMask_iff (mask : InAddr) : validateMask mask = true ↔ Contiguous mask := by
  constructor
  · exact contiguous_of_validateMask
  · intro hc
    obtain ⟨p, -, hp⟩ := hc
    rcases Nat.eq_zero_or_pos p with h0 | h1
    · subst h0
      unfold validateMask
      rw [hp]
      rfl
    · exact validateMask_contiguous mask p h1 hp

theorem cpop_prefixMask {p : ℕ} (hp : p ≤ 32) :
    ((prefixMask p).cpop.setWidth 8 : BitVec 8).toNat = p := by
  interval_cases p <;> decide

theorem maskToPrefix_toNat {mask : InAddr} {p : ℕ} (hp : p ≤ 32) (hm : ntohl mask = prefixMask p) :
    (maskToPrefix mask).toNat = p := by
  have hv : validateMask mask = true := (validateMask_iff mask).mpr ⟨p, hp, hm⟩
  unfold maskToPrefix
  rw [hv, hm]
  exact cpop_prefixMask hp

/-! ## the exits of the function -/

/-- the address that a text stands for; `none` is `NULL` or no address -/
def parsed (text : Option String) : Option InAddr := text.bind fun s => (inetPton s).toOption

/-- the handle behind both texts -/
def TunHandle.withAddr (tun : TunHandle) (a m : InAddr) : TunHandle :=
  { tun with ip := a, mask := m, prefixLen := maskToPrefix m, net := a &&& m }

/-- `SIOCSIFNETMASK` fails, behind a `SIOCSIFADDR` that succeeds -/
def NetmaskFails (ip mask : Option String) (tun : TunHandle) : Prop :=
  addrReached (fun s => (inetPton s).toOption) h tun.toTunDev ip mask = true ∧ h.setIfAddr = 0 ∧
    h.setIfNetmask ≠ 0

/-- the exits, and what each of them has written -/
inductive TunHandle.Exit (ip mask : Option String) (tun : TunHandle) : SetAddr → Prop
  | unread {c : ℤ} (hr : mask = none ∨ parsed inetPton ip = none) (hc : c ≠ 0) :
      Exit ip mask tun ⟨c, tun, []⟩
  | ipOnly {c : ℤ} {a : InAddr} (hm : mask ≠ none) (ha : parsed inetPton ip = some a)
      (hr : parsed inetPton mask = none) (hc : c ≠ 0) :
      Exit ip mask tun ⟨c, { tun with ip := a }, []⟩
  | notContiguous {c : ℤ} {a m : InAddr} (ha : parsed inetPton ip = some a)
      (hm : parsed inetPton mask = some m) (hv : validateMask m = false) (hc : c ≠ 0) :
      Exit ip mask tun ⟨c, { tun with ip := a, mask := m }, []⟩
  | refused {c : ℤ} {a m : InAddr} (ha : parsed inetPton ip = some a)
      (hm : parsed inetPton mask = some m) (hv : validateMask m = true) (hc : c ≠ 0) :
      Exit ip mask tun ⟨c, tun.withAddr a m, []⟩
  | slipped {a m : InAddr} (ha : parsed inetPton ip = some a)
      (hm : parsed inetPton mask = some m) (hv : validateMask m = true)
      (hn : NetmaskFails inetPton h ip mask tun) :
      Exit ip mask tun ⟨0, tun.withAddr a m, [.ifAddr a]⟩
  | set {a m : InAddr} (ha : parsed inetPton ip = some a)
      (hm : parsed inetPton mask = some m) (hv : validateMask m = true) :
      Exit ip mask tun ⟨0, tun.withAddr a m, [.ifAddr a, .ifNetmask m]⟩

variable {inetPton h}

theorem checkMask_refuses {tun : TunHandle} (hv : validateMask tun.mask = false) :
    tun.checkMask h = ⟨einval, tun, []⟩ := by
  simp only [TunHandle.checkMask, hv, Bool.not_false, if_true]

theorem checkMask_eq {tun : TunHandle} (hv : validateMask tun.mask = true) :
    tun.checkMask h = TunHandle.requestAddress h (tun.withAddr tun.ip tun.mask) := by
  have hn : ¬ ((maskToPrefix tun.mask).toNat : ℤ) < 0 := not_lt.mpr (Int.natCast_nonneg _)
  simp only [TunHandle.checkMask, hv, Bool.not_true, Bool.false_eq_true, if_false, hn,
    TunHandle.withAddr]

theorem requestAddress_tun (tun : TunHandle) : (tun.requestAddress h).tun = tun := by
  unfold TunHandle.requestAddress
  split_ifs <;> rfl

theorem requestAddress_code (tun : TunHandle) : (tun.requestAddress h).code = 0 ↔
    h.addrSocket = 0 ∧ tun.ifname ≠ none ∧ h.setIfAddr = 0 := by
  unfold TunHandle.requestAddress
  split_ifs with hs hn hi hk
  · exact iff_of_false (neg_natCast_ne_zero hs) fun hc => hs hc.1
  · exact iff_of_false einval_ne_zero fun hc => hc.2.1 hn
  · exact iff_of_false (neg_natCast_ne_zero hi) fun hc => hi hc.2.2
  · exact iff_of_true rfl ⟨not_not.mp hs, hn, not_not.mp hi⟩
  · exact iff_of_true rfl ⟨not_not.mp hs, hn, not_not.mp hi⟩

theorem sysTunSetAddress_exit (ip mask : Option String) (tun : TunHandle) :
    TunHandle.Exit inetPton h ip mask tun (tun.sysTunSetAddress inetPton h ip mask) := by
  cases ip with
  | none => exact .unread (.inr rfl) einval_ne_zero
  | some ipStr =>
    cases mask with
    | none => exact .unread (.inl rfl) einval_ne_zero
    | some maskStr =>
      have hsome : (some maskStr : Option String) ≠ none := Option.some_ne_none _
      have hp : ∀ s, parsed inetPton (some s) = (inetPton s).toOption := fun _ => rfl
      unfold TunHandle.sysTunSetAddress
      dsimp only
      cases ha : inetPton ipStr with
      | malformed => exact .unread (.inr (by rw [hp, ha]; rfl)) einval_ne_zero
      | fault errno =>
        exact .unread (.inr (by rw [hp, ha]; rfl)) (neg_natCast_ne_zero errno.2)
      | addr a =>
        have pa : parsed inetPton (some ipStr) = some a := by rw [hp, ha]; rfl
        cases hm : inetPton maskStr with
        | malformed => exact .ipOnly hsome pa (by rw [hp, hm]; rfl) einval_ne_zero
        | fault errno => exact .ipOnly hsome pa (by rw [hp, hm]; rfl) (neg_natCast_ne_zero errno.2)
        | addr m =>
          have pm : parsed inetPton (some maskStr) = some m := by rw [hp, hm]; rfl
          cases hv : validateMask m with
          | false =>
            have e : TunHandle.checkMask h { tun with ip := a, mask := m } =
                ⟨einval, { tun with ip := a, mask := m }, []⟩ := checkMask_refuses hv
            dsimp only
            rw [e]
            exact .notContiguous pa pm hv einval_ne_zero
          | true =>
            have e : TunHandle.checkMask h { tun with ip := a, mask := m } =
                TunHandle.requestAddress h (tun.withAddr a m) := checkMask_eq hv
            dsimp only
            rw [e]
            unfold TunHandle.requestAddress
            split_ifs with hs hn hi hk
            · exact .refused pa pm hv (neg_natCast_ne_zero hs)
            · exact .refused pa pm hv einval_ne_zero
            · exact .refused pa pm hv (neg_natCast_ne_zero hi)
            · refine .slipped pa pm hv ⟨?_, not_not.mp hi, hk⟩
              have hn' : tun.ifname ≠ none := hn
              simp [addrReached, ha, hm, Pton.toOption, hv, not_not.mp hs,
                Option.isSome_iff_ne_none, hn']
            · exact .set pa pm hv

/-- on the fields of `Common/Tun` it is the function there; the code of a text that `inet_pton`
cannot read may be another one -/
theorem sysTunSetAddress_refines (ip mask : Option String) (tun : TunHandle) :
    (tun.sysTunSetAddress inetPton h ip mask).tun.toTunDev =
        (sysTunSetAddressText (fun s => (inetPton s).toOption) h ip mask tun.toTunDev).2 ∧
      ((tun.sysTunSetAddress inetPton h ip mask).code = 0 ↔
        (sysTunSetAddressText (fun s => (inetPton s).toOption) h ip mask tun.toTunDev).1 = 0) := by
  cases ip with
  | none => exact ⟨rfl, Iff.rfl⟩
  | some ipStr =>
    cases mask with
    | none => exact ⟨rfl, Iff.rfl⟩
    | some maskStr =>
      unfold TunHandle.sysTunSetAddress sysTunSetAddressText
      dsimp only
      cases ha : inetPton ipStr with
      | malformed => exact ⟨rfl, Iff.rfl⟩
      | fault errno => exact ⟨rfl, iff_of_false (neg_natCast_ne_zero errno.2) einval_ne_zero⟩
      | addr a =>
        cases hm : inetPton maskStr with
        | malformed => exact ⟨rfl, Iff.rfl⟩
        | fault errno => exact ⟨rfl, iff_of_false (neg_natCast_ne_zero errno.2) einval_ne_zero⟩
        | addr m =>
          dsimp only [Pton.toOption]
          rw [sysTunSetAddress_dev, sysTunSetAddress_zero]
          cases hv : validateMask m with
          | false =>
            have e : TunHandle.checkMask h { tun with ip := a, mask := m } =
                ⟨einval, { tun with ip := a, mask := m }, []⟩ := checkMask_refuses hv
            rw [e]
            exact ⟨rfl, iff_of_false einval_ne_zero fun hc => Bool.false_ne_true hc.1⟩
          | true =>
            have e : TunHandle.checkMask h { tun with ip := a, mask := m } =
                TunHandle.requestAddress h (tun.withAddr a m) := checkMask_eq hv
            rw [e, requestAddress_tun, requestAddress_code]
            exact ⟨rfl, (and_iff_right rfl).symm⟩

end

/-! ## what the caller is told -/

section
variable (inetPton : String → Pton) (h : Host)

/-- both texts are addresses, the mask is contiguous, and both requests have succeeded -/
def AddressSet (ip mask : Option String) (done : List IfRequest) : Prop :=
  ∃ a m, parsed inetPton ip = some a ∧ parsed inetPton mask = some m ∧ Contiguous m ∧
    .ifAddr a ∈ done ∧ .ifNetmask m ∈ done

/-- the handle has what the texts stand for -/
def TunHandle.Holds (tun : TunHandle) (ip mask : Option String) : Prop :=
  ∃ a m p, parsed inetPton ip = some a ∧ parsed inetPton mask = some m ∧
    p ≤ 32 ∧ ntohl m = prefixMask p ∧
    tun.ip = a ∧ tun.mask = m ∧ tun.prefixLen.toNat = p ∧ tun.net = a &&& m

/-- the four fields of the address are the same -/
structure TunHandle.SameAddr (tun tun' : TunHandle) : Prop where
  ip : tun'.ip = tun.ip
  mask : tun'.mask = tun.mask
  prefixLen : tun'.prefixLen = tun.prefixLen
  net : tun'.net = tun.net

/-- the code tells whether the address is set, and a failed call changes nothing -/
structure TunHandle.SetsAddress (tun : TunHandle) (ip mask : Option String) : Prop where
  code : (tun.sysTunSetAddress inetPton h ip mask).code = 0 ↔
    AddressSet inetPton ip mask (tun.sysTunSetAddress inetPton h ip mask).done
  fields : (tun.sysTunSetAddress inetPton h ip mask).code = 0 →
    (tun.sysTunSetAddress inetPton h ip mask).tun.Holds inetPton ip mask
  unchanged : (tun.sysTunSetAddress inetPton h ip mask).code ≠ 0 →
    tun.SameAddr (tun.sysTunSetAddress inetPton h ip mask).tun
  flags : (tun.tunSetAddr inetPton h ip mask).code ≠ 0 →
    (tun.tunSetAddr inetPton h ip mask).tun.stsFlags = tun.stsFlags

/-- the handle has what the call has read of its texts before it failed, and nothing else -/
structure TunHandle.Written (tun tun' : TunHandle) (ip mask : Option String) : Prop where
  nothing : mask = none ∨ parsed inetPton ip = none → tun.SameAddr tun'
  readIp : ∀ a, mask ≠ none → parsed inetPton ip = some a → tun'.ip = a
  noMask : parsed inetPton mask = none →
    tun'.mask = tun.mask ∧ tun'.prefixLen = tun.prefixLen ∧ tun'.net = tun.net
  readMask : ∀ a m, parsed inetPton ip = some a → parsed inetPton mask = some m → tun'.mask = m
  notContiguous : ∀ m, parsed inetPton mask = some m → ¬ Contiguous m →
    tun'.prefixLen = tun.prefixLen ∧ tun'.net = tun.net
  contiguous : ∀ a m, parsed inetPton ip = some a → parsed inetPton mask = some m →
    Contiguous m → tun'.Holds inetPton ip mask

variable {inetPton h} {ip mask : Option String} {tun : TunHandle} {r : SetAddr}

theorem withAddr_holds {a m : InAddr} (ha : parsed inetPton ip = some a)
    (hm : parsed inetPton mask = some m) (hv : validateMask m = true) :
    (tun.withAddr a m).Holds inetPton ip mask := by
  obtain ⟨p, hp, e⟩ := contiguous_of_validateMask hv
  exact ⟨a, m, p, ha, hm, hp, e, rfl, rfl, maskToPrefix_toNat hp e, rfl⟩

/-- an exit with code `0` has set the address, unless the netmask failed -/
theorem TunHandle.Exit.code_iff (hx : TunHandle.Exit inetPton h ip mask tun r)
    (hn : ¬ NetmaskFails inetPton h ip mask tun) :
    r.code = 0 ↔ AddressSet inetPton ip mask r.done := by
  have none_done : ∀ c ≠ (0 : ℤ), ∀ tun, (SetAddr.mk c tun []).code = 0 ↔
      AddressSet inetPton ip mask [] := by
    intro c hc tun
    refine iff_of_false hc ?_
    rintro ⟨a, m, -, -, -, hd, -⟩
    exact List.not_mem_nil hd
  cases hx with
  | unread _ hc => exact none_done _ hc _
  | ipOnly _ _ _ hc => exact none_done _ hc _
  | notContiguous _ _ _ hc => exact none_done _ hc _
  | refused _ _ _ hc => exact none_done _ hc _
  | slipped _ _ _ hf => exact absurd hf hn
  | set ha hm hv =>
    exact iff_of_true rfl ⟨_, _, ha, hm, contiguous_of_validateMask hv, by simp, by simp⟩

/-- a code `0` means that the handle has the address -/
theorem TunHandle.Exit.holds (hx : TunHandle.Exit inetPton h ip mask tun r) (hc : r.code = 0) :
    r.tun.Holds inetPton ip mask := by
  cases hx with
  | unread _ hc' => exact absurd hc hc'
  | ipOnly _ _ _ hc' => exact absurd hc hc'
  | notContiguous _ _ _ hc' => exact absurd hc hc'
  | refused _ _ _ hc' => exact absurd hc hc'
  | slipped ha hm hv _ => exact withAddr_holds ha hm hv
  | set ha hm hv => exact withAddr_holds ha hm hv

theorem TunHandle.Exit.flags (hx : TunHandle.Exit inetPton h ip mask tun r) :
    r.tun.stsFlags = tun.stsFlags := by
  cases hx <;> rfl

theorem TunHandle.Written.of_some {a m : InAddr} {tun' : TunHandle}
    (ha : parsed inetPton ip = some a) (hm : parsed inetPton mask = some m) (ip_eq : tun'.ip = a)
    (mask_eq : tun'.mask = m)
    (rest : ¬ Contiguous m → tun'.prefixLen = tun.prefixLen ∧ tun'.net = tun.net)
    (full : Contiguous m → tun'.Holds inetPton ip mask) :
    tun.Written inetPton tun' ip mask := by
  have hsome : mask ≠ none := by
    rintro rfl
    cases hm
  refine ⟨?_, ?_, ?_, ?_, ?_, ?_⟩
  · rintro (e | e)
    · exact absurd e hsome
    · exact absurd (ha.symm.trans e) (Option.some_ne_none _)
  · intro b _ hb
    rw [ip_eq]
    exact Option.some.inj (ha.symm.trans hb)
  · intro e
    exact absurd (hm.symm.trans e) (Option.some_ne_none _)
  · intro _ n _ hn
    rw [mask_eq]
    exact Option.some.inj (hm.symm.trans hn)
  · intro n hn hc
    rw [← Option.some.inj (hm.symm.trans hn)] at hc
    exact rest hc
  · intro _ n _ hn hc
    rw [← Option.some.inj (hm.symm.trans hn)] at hc
    exact full hc

/-- every exit has written what it had read, whatever it returns -/
theorem TunHandle.Exit.written (hx : TunHandle.Exit inetPton h ip mask tun r) :
    tun.Written inetPton r.tun ip mask := by
  cases hx with
  | unread hr _ =>
    have hno : ∀ {a : InAddr} {P : Prop}, mask ≠ none → parsed inetPton ip = some a → P := by
      intro a P hs ha
      rcases hr with e | e
      · exact absurd e hs
      · exact absurd (ha.symm.trans e) (Option.some_ne_none _)
    have hsome : ∀ {m : InAddr}, parsed inetPton mask = some m → mask ≠ none := by
      intro m hm e
      rw [e] at hm
      cases hm
    exact ⟨fun _ => ⟨rfl, rfl, rfl, rfl⟩, fun _ hs ha => hno hs ha, fun _ => ⟨rfl, rfl, rfl⟩,
      fun _ _ ha hm => hno (hsome hm) ha, fun _ _ _ => ⟨rfl, rfl⟩,
      fun _ _ ha hm _ => hno (hsome hm) ha⟩
  | ipOnly hs ha hr _ =>
    have hno : ∀ {m : InAddr} {P : Prop}, parsed inetPton mask = some m → P := by
      intro m P hm
      exact absurd (hm.symm.trans hr) (Option.some_ne_none _)
    refine ⟨?_, fun b _ hb => Option.some.inj (ha.symm.trans hb), fun _ => ⟨rfl, rfl, rfl⟩,
      fun _ _ _ hm => hno hm, fun _ hm _ => hno hm, fun _ _ _ hm _ => hno hm⟩
    rintro (e | e)
    · exact absurd e hs
    · exact absurd (ha.symm.trans e) (Option.some_ne_none _)
  | notContiguous ha hm hv _ =>
    refine .of_some ha hm rfl rfl (fun _ => ⟨rfl, rfl⟩) fun hc => ?_
    rw [← validateMask_iff, hv] at hc
    exact absurd hc Bool.false_ne_true
  | refused ha hm hv _ =>
    exact .of_some ha hm rfl rfl (fun hc => absurd (contiguous_of_validateMask hv) hc)
      fun _ => withAddr_holds ha hm hv
  | slipped ha hm hv _ =>
    exact .of_some ha hm rfl rfl (fun hc => absurd (contiguous_of_validateMask hv) hc)
      fun _ => withAddr_holds ha hm hv
  | set ha hm hv =>
    exact .of_some ha hm rfl rfl (fun hc => absurd (contiguous_of_validateMask hv) hc)
      fun _ => withAddr_holds ha hm hv

/-- the code is right unless the netmask fails behind the address; with code `0` the handle has the
address; otherwise it has what was read of the texts before the call failed, and the flags it had -/
theorem sysTunSetAddress_effect (inetPton : String → Pton) (h : Host) (ip mask : Option String)
    (tun : TunHandle) :
    (¬ NetmaskFails inetPton h ip mask tun →
      ((tun.sysTunSetAddress inetPton h ip mask).code = 0 ↔
        AddressSet inetPton ip mask (tun.sysTunSetAddress inetPton h ip mask).done)) ∧
    ((tun.sysTunSetAddress inetPton h ip mask).code = 0 →
      (tun.sysTunSetAddress inetPton h ip mask).tun.Holds inetPton ip mask) ∧
    ((tun.sysTunSetAddress inetPton h ip mask).code ≠ 0 →
      tun.Written inetPton (tun.sysTunSetAddress inetPton h ip mask).tun ip mask) ∧
    ((tun.tunSetAddr inetPton h ip mask).code ≠ 0 →
      (tun.tunSetAddr inetPton h ip mask).tun.stsFlags = tun.stsFlags) := by
  have hx : TunHandle.Exit inetPton h ip mask tun _ := sysTunSetAddress_exit ip mask tun
  refine ⟨hx.code_iff, hx.holds, fun _ => hx.written, ?_⟩
  unfold TunHandle.tunSetAddr
  dsimp only
  split_ifs with hc
  · exact fun hne => absurd hc hne
  · exact fun _ => hx.flags

end

/-- `inet_pton` on the texts below -/
def ptonText (text : String) : Pton :=
  if text = "10.8.0.2" then .addr 0x0200080a
  else if text = "255.0.255.0" then .addr 0x00ff00ff
  else .malformed

/-- `tun0` without an address -/
def bareHandle : TunHandle := { tunCreate with tunFd := 7, ifname := some 0, prefixLen := 0, net := 0 }

/-- the mask is refused, with the address and the mask in the handle -/
theorem refused_mask_stays : (bareHandle.sysTunSetAddress ptonText willingHost (some "10.8.0.2")
      (some "255.0.255.0")).code = einval ∧
    ¬ bareHandle.SetsAddress ptonText willingHost (some "10.8.0.2") (some "255.0.255.0") := by
  refine ⟨by decide, fun hs => ?_⟩
  have e := (hs.unchanged (by decide)).ip
  exact absurd e (by decide)

end QuicVpn
