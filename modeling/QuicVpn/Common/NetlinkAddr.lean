import QuicVpn.Common.NetlinkDump
import QuicVpn.Common.Netmask

/-!
# The address of an interface

What `get_netlink_addr_info` makes of an answer of the kernel, a dump of address messages
(`AddrMsg`): it takes the first that is about the interface and has an address.

* `getNetlinkAddrInfo`      the function;
* `AddrMsg.Usable m i ip`   the message gives the interface `i` the address `ip`;
* `AddrMsg.Told m info`     what is reported from such a message;
* `addr_selection`          the first usable message is reported, or `ENODEV`.
-/

set_option linter.unusedSectionVars false

namespace QuicVpn
open Conc Conc.Reads

/-! ## the function -/

/-- `while (!done)` of `get_netlink_addr_info` -/
def addrRecvLoop (ifindex : ℤ) (fuel : ℕ) : List Recv → AddrScan → Option (ℕ × AddrScan)
  | [], _ => none
  | .failed errno :: _, s => some (errno, s)
  | .got mem len :: l, s =>
    match nlmsgLoop (addrMsg ifindex) mem fuel 0 (BitVec.ofNat 64 len) s with
    | none => none
    | some (s, _) =>
      if s.done then some (if s.found then 0 else errNodev, s) else addrRecvLoop ifindex fuel l s

/-- `get_netlink_addr_info`; `info` is what the caller had in the record -/
def getNetlinkAddrInfo (fuel af : ℕ) (ifindex : ℤ) (socket send : ℕ) (recvs : List Recv)
    (info : AddrScan) : Option (ℕ × AddrScan) :=
  if ifindex ≤ 0 then some (22, info)
  else if af ≠ afInet then some (errAfnosupport, info)
  -- the record is cleared before anything can fail
  else if socket ≠ 0 then some (socket, {})
  else if send ≠ 0 then some (send, {})
  else addrRecvLoop ifindex fuel recvs {}

/-! ## messages -/

/-- an attribute of an address; of other attributes only their size matters -/
inductive IfaAttr where
  | localAddr (a : InAddr)
  | address (a : InAddr)
  | broadcast (a : InAddr)
  | other (type size : ℕ) (h : type ≠ ifaLocal ∧ type ≠ ifaAddress ∧ type ≠ ifaBroadcast)

namespace IfaAttr

def type : IfaAttr → ℕ
  | .localAddr _ => ifaLocal
  | .address _ => ifaAddress
  | .broadcast _ => ifaBroadcast
  | .other type _ _ => type

/-- `rta_len` -/
def len : IfaAttr → ℕ
  | .localAddr _ => 8
  | .address _ => 8
  | .broadcast _ => 8
  | .other _ size _ => 4 + size

def Lies (mem : ℕ → UInt8) (rta : ℕ) (x : IfaAttr) : Prop :=
  le16 mem rta = x.len ∧ le16 mem (rta + 2) = x.type ∧
    match x with
    | .localAddr a => BitVec.ofNat 32 (le32 mem (rta + 4)) = a
    | .address a => BitVec.ofNat 32 (le32 mem (rta + 4)) = a
    | .broadcast a => BitVec.ofNat 32 (le32 mem (rta + 4)) = a
    | .other .. => True

def form : AttrForm IfaAttr where
  len := len
  At := Lies
  four_le x := by
    cases x with
    | other type size h => exact Nat.le_add_right 4 size
    | _ => exact (by decide : 4 ≤ 8)
  head h := h.1

/-- what an attribute does to the variables -/
def apply (v : AddrAttrs) : IfaAttr → AddrAttrs
  | .localAddr a => { v with localIp := a }
  | .address a => if v.localIp = 0 then { v with localIp := a } else v
  | .broadcast a => { v with bcastIp := a }
  | .other .. => v

theorem addrAttr_val {mem : ℕ → UInt8} (rta : ℕ) (x : IfaAttr) (v : AddrAttrs) (h : x.Lies mem rta) :
    (addrAttr rta v).val mem = (false, apply v x) := by
  obtain ⟨-, ht, hx⟩ := h
  unfold addrAttr
  rw [val_bind, val_u16, ht]
  cases x with
  | localAddr a =>
    dsimp only at hx
    rw [← hx]
    rfl
  | address a =>
    dsimp only at hx
    rw [← hx]
    show (if v.localIp = 0 then _ else pure (false, v) : Reads (Bool × AddrAttrs)).val mem = (false, if _ then _ else _)
    rw [val_ite]
    split
    · rfl
    · rfl
  | broadcast a =>
    dsimp only at hx
    rw [← hx]
    rfl
  | other type size hne =>
    show (if type = ifaLocal then _ else if type = ifaAddress then _ else if type = ifaBroadcast then _
      else pure (false, v) : Reads (Bool × AddrAttrs)).val mem = (false, v)
    rw [if_neg hne.1, if_neg hne.2.1, if_neg hne.2.2]
    rfl

end IfaAttr

/-- a message of the dump; no attribute is there twice, and the address of this host is not `0.0.0.0` -/
structure AddrMsg where
  type : ℕ
  family : ℕ
  prefixlen : ℕ
  scope : ℕ
  index : ℕ
  attrs : List IfaAttr
  goesOn : type ≠ nlmsgDone ∧ type ≠ nlmsgError
  once : (attrs.map IfaAttr.type).Nodup
  nonzero : .localAddr 0 ∉ attrs

namespace AddrMsg

/-- the message is in the memory -/
structure Lies (mem : ℕ → UInt8) (nlh : ℕ) (m : AddrMsg) : Prop where
  type : le16 mem (nlh + 4) = m.type
  family : (mem (nlh + 16)).toNat = m.family
  prefixlen : (mem (nlh + 17)).toNat = m.prefixlen
  scope : (mem (nlh + 19)).toNat = m.scope
  index : le32 mem (nlh + 20) = m.index
  attrs : IfaAttr.form.Listed mem (nlh + 24) (le32 mem nlh - 24) m.attrs

def form : MsgForm AddrMsg where
  room := 24
  At := Lies
  sixteen_le := by decide

/-- the message is about an IPv4 address of the interface that other hosts may see -/
structure About (ifindex : ℤ) (m : AddrMsg) : Prop where
  type : m.type = rtmNewaddr
  index : (m.index : ℤ) = ifindex % 2 ^ 32
  family : m.family = afInet
  scope : m.scope ≠ rtScopeHost

instance (ifindex : ℤ) (m : AddrMsg) : Decidable (m.About ifindex) :=
  decidable_of_iff (m.type = rtmNewaddr ∧ (m.index : ℤ) = ifindex % 2 ^ 32 ∧ m.family = afInet ∧
      m.scope ≠ rtScopeHost)
    ⟨fun h => ⟨h.1, h.2.1, h.2.2.1, h.2.2.2⟩, fun h => ⟨h.type, h.index, h.family, h.scope⟩⟩

/-- the variables after the attribute loop -/
def vars (m : AddrMsg) : AddrAttrs := m.attrs.foldl IfaAttr.apply {}

/-- the body of the message loop, on a message -/
def consider (ifindex : ℤ) (s : AddrScan) (m : AddrMsg) : Bool × AddrScan :=
  if m.About ifindex ∧ m.vars.localIp ≠ 0 then (true, s.take m.vars m.prefixlen) else (false, s)

theorem does (mem : ℕ → UInt8) (ifindex : ℤ) :
    form.Does mem (addrMsg ifindex) (consider ifindex) := by
  intro nlh m s h hlt
  have hl : m.Lies mem nlh := h
  have hattrs : (rtaLoop addrAttr mem (nlh + 24) (nlmsgPayload (le32 mem nlh) 24) {}).1 = m.vars := by
    rw [nlmsgPayload_eq (by decide) hlt, Nat.cast_ofNat]
    exact rtaLoop_fold IfaAttr.addrAttr_val hl.attrs {}
  have hof : ∀ h : ¬ m.About ifindex, consider ifindex s m = (false, s) := fun h => if_neg fun hc => h hc.1
  unfold addrMsg
  rw [val_bind, val_u16, hl.type, if_neg (not_or.mpr m.goesOn)]
  by_cases ht : m.type = rtmNewaddr
  · rw [if_neg (not_not.mpr ht), val_bind, val_u32, hl.index]
    by_cases hi : (m.index : ℤ) = ifindex % 2 ^ 32
    · rw [if_neg (not_not.mpr hi), val_bind, val_u8, hl.family]
      by_cases hf : m.family = afInet
      · rw [if_neg (not_not.mpr hf), val_bind, val_u8, hl.scope]
        by_cases hs : m.scope = rtScopeHost
        · rw [if_pos hs, hof fun h => h.scope hs]
          rfl
        · rw [if_neg hs, val_bind, val_attrs, hattrs]
          unfold consider
          by_cases hz : m.vars.localIp = 0
          · rw [if_neg (not_not.mpr hz), if_neg fun h => h.2 hz]
            rfl
          · rw [if_pos hz, if_pos ⟨⟨ht, hi, hf, hs⟩, hz⟩, val_bind, val_u8, hl.prefixlen]
            rfl
      · rw [if_pos hf, hof fun h => hf h.family]
        rfl
    · rw [if_pos hi, hof fun h => hi h.index]
      rfl
  · rw [if_pos ht, hof fun h => ht h.type]
    rfl

/-! ## what a message says -/

/-- the message gives the interface this address: the address of this host, or else that of the peer -/
structure Usable (m : AddrMsg) (ifindex : ℤ) (ip : InAddr) : Prop where
  about : m.About ifindex
  nonzero : ip ≠ 0
  addr : .localAddr ip ∈ m.attrs ∨ (∀ a, .localAddr a ∉ m.attrs) ∧ .address ip ∈ m.attrs

/-- what is reported from a message -/
structure Told (m : AddrMsg) (info : AddrScan) : Prop where
  ipStr : info.ipStr = inetNtop info.ip
  prefixlen : info.prefixlen = m.prefixlen
  mask : m.prefixlen ≤ 32 → OnesThenZeros (ntohl info.mask) m.prefixlen
  given : ∀ a, .broadcast a ∈ m.attrs → a ≠ 0 → info.bcast = a
  /-- the last address of the subnet -/
  computed : (∀ a, .broadcast a ∈ m.attrs → a = 0) → 0 < m.prefixlen → m.prefixlen ≤ 32 →
    SameNet m.prefixlen info.bcast info.ip ∧
      ∀ i < 32, m.prefixlen ≤ i → (ntohl info.bcast).getMsbD i = true

end AddrMsg

/-! ## attributes -/

namespace IfaAttr

section
variable {l : List IfaAttr} {v : AddrAttrs}

theorem foldl_localIp_kept (h : ∀ x ∈ l, x.type ≠ ifaLocal) (hv : v.localIp ≠ 0) :
    (l.foldl apply v).localIp = v.localIp := by
  induction l generalizing v with
  | nil => rfl
  | cons x l ih =>
    have hx : (apply v x).localIp = v.localIp := by
      cases x with
      | localAddr a => exact absurd rfl (h _ List.mem_cons_self)
      | address a => exact congrArg AddrAttrs.localIp (if_neg hv)
      | broadcast a => rfl
      | other type size hne => rfl
    rw [List.foldl_cons, ih (fun y hy => h y (List.mem_cons_of_mem _ hy)) (hx ▸ hv), hx]

theorem foldl_localIp_same (h : ∀ x ∈ l, x.type ≠ ifaLocal ∧ x.type ≠ ifaAddress) :
    (l.foldl apply v).localIp = v.localIp := by
  induction l generalizing v with
  | nil => rfl
  | cons x l ih =>
    have hx : (apply v x).localIp = v.localIp := by
      cases x with
      | localAddr a => exact absurd rfl (h _ List.mem_cons_self).1
      | address a => exact absurd rfl (h _ List.mem_cons_self).2
      | broadcast a => rfl
      | other type size hne => rfl
    rw [List.foldl_cons, ih fun y hy => h y (List.mem_cons_of_mem _ hy), hx]

theorem foldl_bcastIp_same (h : ∀ x ∈ l, x.type ≠ ifaBroadcast) :
    (l.foldl apply v).bcastIp = v.bcastIp := by
  induction l generalizing v with
  | nil => rfl
  | cons x l ih =>
    have hx : (apply v x).bcastIp = v.bcastIp := by
      cases x with
      | localAddr a => rfl
      | address a => exact (apply_ite AddrAttrs.bcastIp _ _ _).trans (ite_self _)
      | broadcast a => exact absurd rfl (h _ List.mem_cons_self)
      | other type size hne => rfl
    rw [List.foldl_cons, ih fun y hy => h y (List.mem_cons_of_mem _ hy), hx]

end

theorem localAddr_of_type {x : IfaAttr} (h : x.type = ifaLocal) : ∃ a, x = .localAddr a := by
  cases x with
  | localAddr a => exact ⟨a, rfl⟩
  | address a => exact absurd h (show ifaAddress ≠ ifaLocal by decide)
  | broadcast a => exact absurd h (show ifaBroadcast ≠ ifaLocal by decide)
  | other type size hne => exact absurd h hne.1

theorem address_of_type {x : IfaAttr} (h : x.type = ifaAddress) : ∃ a, x = .address a := by
  cases x with
  | localAddr a => exact absurd h (show ifaLocal ≠ ifaAddress by decide)
  | address a => exact ⟨a, rfl⟩
  | broadcast a => exact absurd h (show ifaBroadcast ≠ ifaAddress by decide)
  | other type size hne => exact absurd h hne.2.1

theorem broadcast_of_type {x : IfaAttr} (h : x.type = ifaBroadcast) : ∃ a, x = .broadcast a := by
  cases x with
  | localAddr a => exact absurd h (show ifaLocal ≠ ifaBroadcast by decide)
  | address a => exact absurd h (show ifaAddress ≠ ifaBroadcast by decide)
  | broadcast a => exact ⟨a, rfl⟩
  | other type size hne => exact absurd h hne.2.2

/-- around an attribute of a list without repetitions there is no other of its type -/
theorem split_of_mem {l : List IfaAttr} (h : (l.map type).Nodup) {x : IfaAttr} (hx : x ∈ l) :
    ∃ pre post, l = pre ++ x :: post ∧ (∀ y ∈ pre, y.type ≠ x.type) ∧ ∀ y ∈ post, y.type ≠ x.type := by
  obtain ⟨pre, post, rfl⟩ := List.append_of_mem hx
  rw [List.map_append, List.map_cons, List.nodup_middle, List.nodup_cons, List.mem_append, not_or] at h
  exact ⟨pre, post, rfl, fun y hy e => h.1.1 (e ▸ List.mem_map_of_mem hy),
    fun y hy e => h.1.2 (e ▸ List.mem_map_of_mem hy)⟩

end IfaAttr

namespace AddrMsg

section
variable {m : AddrMsg} {ifindex : ℤ} {ip : InAddr}

theorem localIp_of_local (h : .localAddr ip ∈ m.attrs) : m.vars.localIp = ip := by
  have hne : ip ≠ 0 := fun e => m.nonzero (e ▸ h)
  obtain ⟨pre, post, e, -, hpost⟩ := IfaAttr.split_of_mem m.once h
  rw [vars, e, List.foldl_append, List.foldl_cons]
  exact IfaAttr.foldl_localIp_kept hpost hne

theorem localIp_of_address (hno : ∀ a, .localAddr a ∉ m.attrs) (h : .address ip ∈ m.attrs) :
    m.vars.localIp = ip := by
  have hnone : ∀ x ∈ m.attrs, x.type ≠ ifaLocal := by
    intro x hx ht
    obtain ⟨a, rfl⟩ := IfaAttr.localAddr_of_type ht
    exact hno a hx
  obtain ⟨pre, post, e, hpre, hpost⟩ := IfaAttr.split_of_mem m.once h
  have h0 : (pre.foldl IfaAttr.apply {}).localIp = 0 := IfaAttr.foldl_localIp_same fun x hx =>
    ⟨hnone x (e ▸ List.mem_append_left _ hx), hpre x hx⟩
  have h1 : ((IfaAttr.address ip).apply (pre.foldl IfaAttr.apply {})).localIp = ip :=
    congrArg AddrAttrs.localIp (if_pos h0)
  rw [vars, e, List.foldl_append, List.foldl_cons, IfaAttr.foldl_localIp_same, h1]
  exact fun x hx => ⟨hnone x (e ▸ List.mem_append_right _ (List.mem_cons_of_mem _ hx)), hpost x hx⟩

/-- the message is usable just when the loop over its attributes ends with an address -/
theorem usable_iff : m.Usable ifindex ip ↔ m.About ifindex ∧ m.vars.localIp = ip ∧ ip ≠ 0 := by
  constructor
  · rintro ⟨ha, hne, h | ⟨hno, h⟩⟩
    · exact ⟨ha, localIp_of_local h, hne⟩
    · exact ⟨ha, localIp_of_address hno h, hne⟩
  · rintro ⟨ha, rfl, hne⟩
    refine ⟨ha, hne, ?_⟩
    by_cases hl : ∃ a, .localAddr a ∈ m.attrs
    · obtain ⟨a, h⟩ := hl
      rw [localIp_of_local h]
      exact .inl h
    · rw [not_exists] at hl
      refine .inr ⟨hl, ?_⟩
      by_cases had : ∃ a, .address a ∈ m.attrs
      · obtain ⟨a, h⟩ := had
        rw [localIp_of_address hl h]
        exact h
      · -- without either of the two the variable keeps its zero
        refine absurd (IfaAttr.foldl_localIp_same fun x hx => ⟨fun ht => ?_, fun ht => ?_⟩) hne
        · obtain ⟨a, rfl⟩ := IfaAttr.localAddr_of_type ht
          exact hl a hx
        · obtain ⟨a, rfl⟩ := IfaAttr.address_of_type ht
          exact had ⟨a, hx⟩

theorem bcastIp_of_broadcast {a : InAddr} (h : .broadcast a ∈ m.attrs) : m.vars.bcastIp = a := by
  obtain ⟨pre, post, e, -, hpost⟩ := IfaAttr.split_of_mem m.once h
  rw [vars, e, List.foldl_append, List.foldl_cons]
  exact IfaAttr.foldl_bcastIp_same hpost

theorem bcastIp_of_not (h : ∀ a, .broadcast a ∈ m.attrs → a = 0) : m.vars.bcastIp = 0 := by
  by_cases hb : ∃ a, .broadcast a ∈ m.attrs
  · obtain ⟨a, ha⟩ := hb
    rw [bcastIp_of_broadcast ha, h a ha]
  · rw [not_exists] at hb
    refine IfaAttr.foldl_bcastIp_same fun x hx ht => ?_
    obtain ⟨a, rfl⟩ := IfaAttr.broadcast_of_type ht
    exact hb a hx

/-- an address with all bits behind the prefix set -/
theorem or_not_mask {mask : InAddr} {p : ℕ} (hm : OnesThenZeros (ntohl mask) p) (hp : p ≤ 32) :
    SameNet p (ip ||| ~~~mask) ip ∧ ∀ i < 32, p ≤ i → (ntohl (ip ||| ~~~mask)).getMsbD i = true := by
  have hbit : ∀ i < 32, (ntohl (ip ||| ~~~mask)).getMsbD i = ((ntohl ip).getMsbD i || !decide (i < p)) := by
    intro i hi
    rw [ntohl_or, ntohl_not, BitVec.getMsbD_or, BitVec.getMsbD_not, hm i hi, decide_eq_true hi,
      Bool.true_and]
  constructor
  · intro i hi
    rw [hbit i (lt_of_lt_of_le hi hp), decide_eq_true hi]
    exact Bool.or_false _
  · intro i hi hpi
    rw [hbit i hi, decide_eq_false (not_lt.mpr hpi)]
    exact Bool.or_true _

/-- the report from a message, into the cleared record -/
theorem told_take (m : AddrMsg) : m.Told ((({} : AddrScan)).take m.vars m.prefixlen) where
  ipStr := rfl
  prefixlen := rfl
  mask hp := by
    rw [addrScan_mask _ _ hp, ntohl_htonl]
    exact onesThenZeros_iff.mpr rfl
  given a ha hne := by
    have hb := bcastIp_of_broadcast ha
    have e : m.vars.bcastIp ≠ 0 := fun h => hne (hb.symm.trans h)
    exact (if_pos e).trans hb
  computed hno h0 hp := by
    have hb := bcastIp_of_not hno
    have hm := addrScan_mask {} m.vars hp
    have hones : OnesThenZeros (ntohl ((({} : AddrScan)).take m.vars m.prefixlen).mask) m.prefixlen := by
      rw [hm, ntohl_htonl]
      exact onesThenZeros_iff.mpr rfl
    have hne : ((({} : AddrScan)).take m.vars m.prefixlen).mask ≠ 0 := by
      intro hz
      have hbit := hones 0 (by decide)
      rw [hz, decide_eq_true h0] at hbit
      exact absurd hbit (by decide)
    have hbc : ((({} : AddrScan)).take m.vars m.prefixlen).bcast =
        m.vars.localIp ||| ~~~((({} : AddrScan)).take m.vars m.prefixlen).mask :=
      (if_neg (not_not.mpr hb)).trans (if_pos hne)
    rw [hbc]
    exact or_not_mask hones hp

end

/-! ## the dump -/

/-- the first usable message of a dump, and what it says -/
def Chosen (ms : List AddrMsg) (ifindex : ℤ) (info : AddrScan) : Prop :=
  ∃ pre m post, ms = pre ++ m :: post ∧ (∀ m' ∈ pre, ∀ ip, ¬ m'.Usable ifindex ip) ∧
    m.Usable ifindex info.ip ∧ m.Told info

theorem consider_of_usable {m : AddrMsg} {ifindex : ℤ} {ip : InAddr} (h : m.Usable ifindex ip)
    (s : AddrScan) : consider ifindex s m = (true, s.take m.vars m.prefixlen) := by
  obtain ⟨ha, rfl, hne⟩ := usable_iff.mp h
  exact if_pos ⟨ha, hne⟩

theorem consider_of_not {m : AddrMsg} {ifindex : ℤ} (h : ∀ ip, ¬ m.Usable ifindex ip) (s : AddrScan) :
    consider ifindex s m = (false, s) :=
  if_neg fun hc => h _ (usable_iff.mpr ⟨hc.1, rfl, hc.2⟩)

/-- how the scan of a dump ends -/
theorem scan_consider (ms : List AddrMsg) (ifindex : ℤ) :
    (scan (consider ifindex) ms {} = (false, {}) ∧ ∀ m ∈ ms, ∀ ip, ¬ m.Usable ifindex ip) ∨
      ∃ info, scan (consider ifindex) ms {} = (true, info) ∧ info.found = true ∧ info.done = true ∧
        Chosen ms ifindex info := by
  induction ms with
  | nil => exact .inl ⟨rfl, fun m hm => absurd hm List.not_mem_nil⟩
  | cons m ms ih =>
    unfold scan
    by_cases hu : ∃ ip, m.Usable ifindex ip
    · obtain ⟨ip, hu⟩ := hu
      rw [consider_of_usable hu, if_pos rfl]
      have hip : m.vars.localIp = ip := (usable_iff.mp hu).2.1
      refine .inr ⟨_, rfl, rfl, rfl, [], m, ms, rfl, fun m' hm' => absurd hm' List.not_mem_nil, ?_,
        told_take m⟩
      show m.Usable ifindex m.vars.localIp
      rw [hip]
      exact hu
    · rw [not_exists] at hu
      rw [consider_of_not hu, if_neg Bool.false_ne_true]
      rcases ih with ⟨hs, hno⟩ | ⟨info, hs, hf, hd, pre, m', post, rfl, hpre, hm'⟩
      · exact .inl ⟨hs, List.forall_mem_cons.mpr ⟨hu, hno⟩⟩
      · exact .inr ⟨info, hs, hf, hd, m :: pre, m', post, rfl, List.forall_mem_cons.mpr ⟨hu, hpre⟩, hm'⟩

theorem addrRecvLoop_dump {recvs : List Recv} {ms : List AddrMsg} (h : form.Dump recvs ms) {ifindex : ℤ}
    {fuel : ℕ} (hf : ms.length < fuel) :
    addrRecvLoop ifindex fuel recvs {} =
      if (scan (consider ifindex) ms {}).1 then some (0, (scan (consider ifindex) ms {}).2)
      else some (errNodev, { done := true }) := by
  induction h with
  | @done mem len ms rest hl hm =>
    obtain ⟨k, rfl⟩ := Nat.exists_eq_add_of_lt hf
    rw [Nat.add_assoc]
    unfold addrRecvLoop
    rcases scan_consider ms ifindex with ⟨hs, -⟩ | ⟨info, hs, hfound, hdone, -⟩
    · obtain ⟨nlh, hle, hend, e⟩ := nlmsgLoop_passes (does mem ifindex) hl hm (Nat.zero_le _) (k + 1)
        (congrArg Prod.fst hs)
      have hbody : (addrMsg ifindex nlh (le32 mem nlh) {}).val mem = (true, { done := true }) := by
        unfold addrMsg
        rw [val_bind, val_u16, hend.2.2, if_pos (.inl rfl)]
        rfl
      rw [hs, nlmsgLoop_done hl hend hbody, Nat.sub_zero] at e
      obtain ⟨r, hr, hv⟩ := Option.map_eq_some_iff.mp e
      rw [hr]
      dsimp only
      rw [hv, hs]
      rfl
    · have e := nlmsgLoop_stops (does mem ifindex) hl hm (k + 1) (congrArg Prod.fst hs)
      rw [hs, Nat.sub_zero] at e
      obtain ⟨r, hr, hv⟩ := Option.map_eq_some_iff.mp e
      rw [hr]
      dsimp only
      rw [hv, hs, hdone, hfound]
      rfl
  | @more mem len ms ms' l hl hm hr ih =>
    rw [List.length_append] at hf
    obtain ⟨k, hk⟩ := Nat.exists_eq_add_of_lt (show ms.length < fuel by omega)
    have hk' : fuel = ms.length + (k + 1) := by omega
    unfold addrRecvLoop
    rw [scan_append]
    rcases scan_consider ms ifindex with ⟨hs, -⟩ | ⟨info, hs, hfound, hdone, -⟩
    · obtain ⟨nlh, hle, rfl, e⟩ := nlmsgLoop_passes (does mem ifindex) hl hm (Nat.zero_le _) (k + 1)
        (congrArg Prod.fst hs)
      rw [hs, nlmsgLoop_atEnd, Nat.sub_zero, ← hk'] at e
      obtain ⟨r, hr, hv⟩ := Option.map_eq_some_iff.mp e
      rw [hr, hs, if_neg Bool.false_ne_true]
      dsimp only
      rw [hv, if_neg Bool.false_ne_true]
      exact ih (by omega)
    · have e := nlmsgLoop_stops (does mem ifindex) hl hm (k + 1) (congrArg Prod.fst hs)
      rw [hs, Nat.sub_zero, ← hk'] at e
      obtain ⟨r, hr, hv⟩ := Option.map_eq_some_iff.mp e
      rw [hr, hs, if_pos rfl]
      dsimp only
      rw [hv, hdone, hfound]
      rfl

end AddrMsg

theorem getNetlinkAddrInfo_dump {ifindex : ℤ} (hpos : 0 < ifindex) {socket send : ℕ}
    (hsock : socket = 0 ∧ send = 0) {recvs : List Recv} {ms : List AddrMsg}
    (hs : AddrMsg.form.Dump recvs ms) {info : AddrScan} {fuel : ℕ} (hf : ms.length < fuel) :
    getNetlinkAddrInfo fuel afInet ifindex socket send recvs info =
      if (scan (AddrMsg.consider ifindex) ms {}).1 then some (0, (scan (AddrMsg.consider ifindex) ms {}).2)
      else some (errNodev, { done := true }) := by
  obtain ⟨rfl, rfl⟩ := hsock
  unfold getNetlinkAddrInfo
  rw [if_neg (not_le.mpr hpos)]
  exact AddrMsg.addrRecvLoop_dump hs hf

/-- **The address of an interface.**  For messages that end with `NLMSG_DONE`, however they are split
over the buffers, the function returns `0` if and only if one of them is usable, and then it reports the
first of those: its address and prefix, the mask with so many ones, and the broadcast address that the
message gives or else the last address of the subnet.  Otherwise it returns `ENODEV`, and no address. -/
theorem addr_selection (ifindex : ℤ) (hpos : 0 < ifindex) (recvs : List Recv) (ms : List AddrMsg)
    (hs : AddrMsg.form.Dump recvs ms) (info0 : AddrScan) : ∃ code info,
    (∃ k, ∀ fuel ≥ k, getNetlinkAddrInfo fuel afInet ifindex 0 0 recvs info0 = some (code, info)) ∧
    (code = 0 ↔ ∃ m ∈ ms, ∃ ip, m.Usable ifindex ip) ∧
    (code = 0 → AddrMsg.Chosen ms ifindex info) ∧
    (code ≠ 0 → code = errNodev ∧ info.ip = 0 ∧ info.mask = 0 ∧ info.bcast = 0) := by
  rcases AddrMsg.scan_consider ms ifindex with ⟨hscan, hno⟩ | ⟨info, hscan, -, -, hch⟩
  · refine ⟨errNodev, { done := true }, ⟨ms.length + 1, fun fuel hf => ?_⟩, ?_, ?_, fun _ => ⟨rfl, rfl, rfl, rfl⟩⟩
    · rw [getNetlinkAddrInfo_dump hpos ⟨rfl, rfl⟩ hs hf, hscan]
      rfl
    · refine iff_of_false (by decide) ?_
      rintro ⟨m, hm, ip, hu⟩
      exact hno m hm ip hu
    · exact fun h => absurd h (by decide)
  · refine ⟨0, info, ⟨ms.length + 1, fun fuel hf => ?_⟩, ?_, fun _ => hch, fun h => absurd rfl h⟩
    · rw [getNetlinkAddrInfo_dump hpos ⟨rfl, rfl⟩ hs hf, hscan]
      rfl
    · obtain ⟨pre, m, post, rfl, -, hu, -⟩ := hch
      exact iff_of_true rfl ⟨m, List.mem_append_right _ List.mem_cons_self, _, hu⟩

/-- `192.168.1.5/24` on interface `2` -/
def homeAddr : AddrMsg where
  type := 20
  family := 2
  prefixlen := 24
  scope := 0
  index := 2
  attrs := [.address 0x0501a8c0, .localAddr 0x0501a8c0, .broadcast 0xff01a8c0]
  goesOn := by decide
  once := by decide
  nonzero := by simp

def homeAddrBytes : List UInt8 :=
  [48, 0, 0, 0, 20, 0, 2, 0, 1, 0, 0, 0, 0, 0, 0, 0, 2, 24, 128, 0, 2, 0, 0, 0,
   8, 0, 1, 0, 192, 168, 1, 5, 8, 0, 2, 0, 192, 168, 1, 5, 8, 0, 4, 0, 192, 168, 1, 255,
   20, 0, 0, 0, 3, 0, 2, 0, 1, 0, 0, 0, 0, 0, 0, 0, 0, 0, 0, 0]

theorem homeAddr_dump : AddrMsg.form.Dump [.got (fun i => homeAddrBytes.getD i 0) 68] [homeAddr] := by
  refine .done (by decide) ⟨by decide, by decide, by decide, ⟨by decide, by decide, by decide, by decide,
    by decide, ?_⟩, by decide, by decide, by decide⟩
  exact ⟨⟨by decide, by decide, by decide⟩, by decide, ⟨by decide, by decide, by decide⟩, by decide,
    ⟨by decide, by decide, by decide⟩, by decide, show (_ : ℤ) < 4 by decide⟩

theorem homeAddr_usable : homeAddr.Usable 2 0x0501a8c0 :=
  ⟨⟨rfl, by decide, rfl, by decide⟩, by decide, .inl (by simp [homeAddr])⟩

theorem addr_selection_home : AddrMsg.form.Dump [.got (fun i => homeAddrBytes.getD i 0) 68] [homeAddr] ∧
    ∃ info, (∃ k, ∀ fuel ≥ k, getNetlinkAddrInfo fuel afInet 2 0 0
        [.got (fun i => homeAddrBytes.getD i 0) 68] {} = some (0, info)) ∧
      AddrMsg.Chosen [homeAddr] 2 info := by
  obtain ⟨code, info, hrun, hzero, hch, -⟩ :=
    addr_selection 2 (by decide) [.got (fun i => homeAddrBytes.getD i 0) 68] [homeAddr] homeAddr_dump {}
  have h0 : code = 0 := hzero.mpr ⟨homeAddr, List.mem_singleton_self _, _, homeAddr_usable⟩
  subst h0
  exact ⟨homeAddr_dump, info, hrun, hch rfl⟩

end QuicVpn
