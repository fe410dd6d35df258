import QuicVpn.Common.NetlinkDump

/-!
# The choice of the default route

What `get_netlink_route_info` makes of an answer of the kernel.  The answer is a list of route
messages (`RouteMsg`), which lie in the buffers that `recv` fills one after the other (`RouteStream`),
and then `NLMSG_DONE`.

* `RouteMsg.Eligible q m i`      the message is a default route that may be used; `i` is what it says;
* `RouteScan.consider`           the body of the message loop, on a message;
* `getNetlinkRouteInfo_stream`   the buffers do not matter;
* `route_selection`              the last of the eligible routes with the least metric is reported.
-/

set_option linter.unusedSectionVars false

namespace QuicVpn
open Conc Conc.Reads

/-! ## messages -/

/-- an attribute of a route; of other attributes only their size matters -/
inductive RtAttr where
  | oif (ifindex : ℤ)
  | gateway (addr : InAddr)
  | priority (metric : ℕ)
  | other (type size : ℕ) (h : type ≠ rtaOif ∧ type ≠ rtaGateway ∧ type ≠ rtaPriority)

def RtAttr.type : RtAttr → ℕ
  | .oif _ => rtaOif
  | .gateway _ => rtaGateway
  | .priority _ => rtaPriority
  | .other type _ _ => type

/-- `rta_len` -/
def RtAttr.len : RtAttr → ℕ
  | .oif _ => 8
  | .gateway _ => 8
  | .priority _ => 8
  | .other _ size _ => 4 + size

theorem RtAttr.four_le_len (x : RtAttr) : 4 ≤ x.len := by
  cases x with
  | other type size h => exact Nat.le_add_right 4 size
  | _ => exact (by decide : 4 ≤ 8)

/-- a message of the dump; no attribute is there twice -/
structure RouteMsg where
  type : ℕ
  family : ℕ
  dstLen : ℕ
  table : ℕ
  scope : ℕ
  rtType : ℕ
  attrs : List RtAttr
  goesOn : type ≠ nlmsgDone ∧ type ≠ nlmsgError
  once : (attrs.map RtAttr.type).Nodup
  metric_le : ∀ x, .priority x ∈ attrs → x ≤ 4294967295

/-- the attribute is in the memory -/
def RtAttr.At (mem : ℕ → UInt8) (rta : ℕ) (x : RtAttr) : Prop :=
  le16 mem rta = x.len ∧ le16 mem (rta + 2) = x.type ∧
    match x with
    | .oif ifindex => asInt (le32 mem (rta + 4)) = ifindex
    | .gateway addr => BitVec.ofNat 32 (le32 mem (rta + 4)) = addr
    | .priority metric => le32 mem (rta + 4) = metric
    | .other .. => True

def RtAttr.form : AttrForm RtAttr where
  len := RtAttr.len
  At := RtAttr.At
  four_le := RtAttr.four_le_len
  head := And.left

/-- the message is in the memory; the other fields of its headers may be anything -/
structure RouteMsg.At (mem : ℕ → UInt8) (nlh : ℕ) (m : RouteMsg) : Prop where
  type : le16 mem (nlh + 4) = m.type
  family : (mem (nlh + 16)).toNat = m.family
  dstLen : (mem (nlh + 17)).toNat = m.dstLen
  table : (mem (nlh + 20)).toNat = m.table
  scope : (mem (nlh + 22)).toNat = m.scope
  rtType : (mem (nlh + 23)).toNat = m.rtType
  attrs : RtAttr.form.Listed mem (nlh + 28) (le32 mem nlh - 28) m.attrs

def RouteMsg.form : MsgForm RouteMsg where
  room := 28
  At := RouteMsg.At
  sixteen_le := by decide

/-- the answers of `recv` contain these messages, and `NLMSG_DONE` behind them -/
abbrev RouteStream : List Recv → List RouteMsg → Prop := RouteMsg.form.Dump

section
variable (q : IfQueries)

/-- an interface that is not used -/
def IfQueries.Skipped (ifindex : ℤ) : Prop :=
  ifindex ≤ 0 ∨ q.loopback ifindex = true ∨ q.pointToPoint ifindex = true

/-- the header of a default route of the main table -/
structure RouteMsg.Default (m : RouteMsg) : Prop where
  type : m.type = rtmNewroute
  family : m.family = afInet
  table : m.table = rtTableMain
  dstLen : m.dstLen = 0
  rtType : m.rtType = rtnUnicast
  scope : m.scope ≠ rtScopeHost ∧ m.scope ≠ rtScopeLink

/-- a default route that may be used, and what it says -/
structure RouteMsg.Eligible (m : RouteMsg) (i : RouteInfo) : Prop where
  header : m.Default
  oif : .oif i.ifindex ∈ m.attrs
  pos : 0 < i.ifindex
  notLoopback : q.loopback i.ifindex = false
  notPointToPoint : q.pointToPoint i.ifindex = false
  gateway : .gateway i.gateway ∈ m.attrs
  metric : .priority i.metric ∈ m.attrs ∨ (∀ x, .priority x ∉ m.attrs) ∧ i.metric = 0
  name : i.ifname = (q.name i.ifindex).getD ""
  online : isLinkOnline q i.ifname = true

/-! ## attributes -/

/-- what an attribute does to the variables, and whether the loop is left -/
def RtAttr.apply (x : RtAttr) (a : RouteAttrs) : Bool × RouteAttrs :=
  match x with
  | .oif ifindex => a.oif q ifindex
  | .gateway addr => (false, { a with gateway := addr, hasGateway := true })
  | .priority metric => (false, { a with metric := metric })
  | .other .. => (false, a)

def applyAttrs : List RtAttr → RouteAttrs → RouteAttrs
  | [], a => a
  | x :: l, a => if (x.apply q a).1 then (x.apply q a).2 else applyAttrs l (x.apply q a).2

variable {q} {mem : ℕ → UInt8}

theorem RtAttr.At.val {rta : ℕ} {x : RtAttr} (h : x.At mem rta) (a : RouteAttrs) :
    (routeAttr q rta a).val mem = x.apply q a := by
  obtain ⟨-, ht, hx⟩ := h
  unfold routeAttr
  rw [val_bind, val_u16, ht]
  cases x with
  | oif ifindex =>
    dsimp only at hx
    rw [← hx]
    rfl
  | gateway addr =>
    dsimp only at hx
    rw [← hx]
    rfl
  | priority metric =>
    dsimp only at hx
    rw [← hx]
    rfl
  | other type size hne =>
    show (if type = rtaOif then _ else if type = rtaGateway then _ else if type = rtaPriority then _
      else pure (false, a) : Reads (Bool × RouteAttrs)).val mem = (false, a)
    rw [if_neg hne.1, if_neg hne.2.1, if_neg hne.2.2]
    rfl

theorem scan_apply (l : List RtAttr) (a : RouteAttrs) :
    (scan (fun a x => RtAttr.apply q x a) l a).2 = applyAttrs q l a := by
  induction l generalizing a with
  | nil => rfl
  | cons x l ih =>
    unfold scan applyAttrs
    split_ifs
    · rfl
    · exact ih _

/-- the attribute loop on the attributes of a message -/
theorem rtaLoop_attrs {l : List RtAttr} {rta : ℕ} {rtaLen : ℤ} (h : RtAttr.form.Listed mem rta rtaLen l)
    (a : RouteAttrs) : (rtaLoop (routeAttr q) mem rta rtaLen a).1 = applyAttrs q l a :=
  (rtaLoop_scan (fun _ _ a hx => RtAttr.At.val hx a) h a).trans (scan_apply l a)

/-! ## the loops -/

instance (m : RouteMsg) : Decidable m.Default :=
  decidable_of_iff (m.type = rtmNewroute ∧ m.family = afInet ∧ m.table = rtTableMain ∧
      m.dstLen = 0 ∧ m.rtType = rtnUnicast ∧ m.scope ≠ rtScopeHost ∧ m.scope ≠ rtScopeLink)
    ⟨fun h => ⟨h.1, h.2.1, h.2.2.1, h.2.2.2.1, h.2.2.2.2.1, h.2.2.2.2.2⟩,
      fun h => ⟨h.type, h.family, h.table, h.dstLen, h.rtType, h.scope⟩⟩

/-- the body of the message loop, on a message -/
def RouteScan.consider (q : IfQueries) (s : RouteScan) (m : RouteMsg) : RouteScan :=
  if m.Default then s.take q (applyAttrs q m.attrs {}) else s

/-- the tests of the header -/
theorem RouteMsg.At.wanted {nlh : ℕ} {m : RouteMsg} (h : m.At mem nlh) (ht : m.type = rtmNewroute) :
    (routeWanted (nlh + 16)).val mem = decide m.Default := by
  unfold routeWanted
  simp only [val_bind, val_u8, val_ite, val_pure, Nat.add_assoc, Nat.reduceAdd, h.family, h.dstLen,
    h.table, h.rtType, h.scope]
  split_ifs with h1 h2 h3 h4
  · exact (decide_eq_false fun hd => h1 hd.family).symm
  · exact (decide_eq_false fun hd => h2 hd.table).symm
  · exact (decide_eq_false fun hd => h3 hd.dstLen).symm
  · exact (decide_eq_false fun hd => h4 hd.rtType).symm
  · rw [decide_eq_decide, not_or]
    exact ⟨fun hsc => ⟨ht, not_not.mp h1, not_not.mp h2, not_not.mp h3, not_not.mp h4, hsc⟩,
      fun hd => hd.scope⟩

theorem RouteMsg.At.val {nlh : ℕ} {m : RouteMsg} (h : m.At mem nlh)
    (hlt : le32 mem nlh < 2 ^ 31) (s : RouteScan) :
    (routeMsg q nlh (le32 mem nlh) s).val mem = (false, s.consider q m) := by
  unfold routeMsg
  rw [val_bind, val_u16, h.type, if_neg (not_or.mpr m.goesOn)]
  by_cases ht : m.type = rtmNewroute
  · rw [if_neg (not_not.mpr ht), val_bind, h.wanted ht]
    unfold RouteScan.consider
    by_cases hd : m.Default
    · rw [decide_eq_true hd, if_pos hd, if_neg (by decide), val_bind, val_attrs, val_pure,
        nlmsgPayload_eq (by decide) hlt, Nat.cast_ofNat, rtaLoop_attrs h.attrs]
    · rw [decide_eq_false hd, if_neg hd, if_pos (by decide), val_pure]
  · rw [if_pos ht]
    unfold RouteScan.consider
    rw [if_neg (fun hd => ht hd.type), val_pure]

theorem RouteMsg.does (q : IfQueries) (mem : ℕ → UInt8) : RouteMsg.form.Does mem (routeMsg q)
    (fun s m => (false, RouteScan.consider q s m)) :=
  fun _ _ s hm hlt => RouteMsg.At.val hm hlt s

theorem foldl_consider_done (ms : List RouteMsg) (s : RouteScan) :
    (ms.foldl (RouteScan.consider q) s).done = s.done := by
  have h1 : ∀ (s : RouteScan) (a : RouteAttrs), (s.take q a).done = s.done := by
    intro s a
    unfold RouteScan.take
    split_ifs <;> rfl
  induction ms generalizing s with
  | nil => rfl
  | cons m ms ih =>
    rw [List.foldl_cons, ih]
    unfold RouteScan.consider
    split_ifs
    · exact h1 s _
    · rfl

/-- what the function returns -/
def RouteScan.answer (s : RouteScan) : ℕ × RouteInfo := (if s.found then 0 else errNodev, s.info)

theorem routeRecvLoop_stream {l : List Recv} {ms : List RouteMsg} (h : RouteStream l ms)
    (s : RouteScan) (hd : s.done = false) (fuel : ℕ) (hf : ms.length < fuel) :
    routeRecvLoop q fuel l s = some (ms.foldl (RouteScan.consider q) s).answer := by
  have hscan : ∀ ms s, scan (fun s m => (false, RouteScan.consider q s m)) ms s =
      (false, ms.foldl (RouteScan.consider q) s) := scan_fold fun _ _ => rfl
  induction h generalizing s with
  | @done mem len ms rest hl hm =>
    obtain ⟨k, rfl⟩ := Nat.exists_eq_add_of_lt hf
    obtain ⟨nlh, -, ht, e⟩ := nlmsgLoop_passes (RouteMsg.does q mem) hl hm (Nat.zero_le _) (k + 1)
      (congrArg Prod.fst (hscan ms s))
    have hv : ∀ s, (routeMsg q nlh (le32 mem nlh) s).val mem = (true, { s with done := true }) := by
      intro s
      unfold routeMsg
      rw [val_bind, val_u16, ht.2.2, if_pos (.inl rfl)]
      rfl
    rw [nlmsgLoop_done hl ht (hv _), hscan, Nat.sub_zero] at e
    obtain ⟨⟨r, left⟩, hr, er⟩ := Option.map_eq_some_iff.mp e
    dsimp only at er
    unfold routeRecvLoop
    rw [Nat.add_assoc, hr, er]
    rfl
  | @more mem len ms ms' l hl hm hr ih =>
    rw [List.length_append] at hf
    obtain ⟨k, hk⟩ := Nat.exists_eq_add_of_lt (show ms.length < fuel by omega)
    obtain ⟨nlh, -, rfl, e⟩ := nlmsgLoop_passes (RouteMsg.does q mem) hl hm (Nat.zero_le _) (k + 1)
      (congrArg Prod.fst (hscan ms s))
    rw [nlmsgLoop_atEnd, hscan, Nat.sub_zero, ← Nat.add_assoc, ← hk] at e
    obtain ⟨⟨r, left⟩, hr, er⟩ := Option.map_eq_some_iff.mp e
    dsimp only at er
    have hnd : r.done = false := by
      rw [er, foldl_consider_done]
      exact hd
    unfold routeRecvLoop
    rw [hr]
    dsimp only
    rw [hnd, if_neg Bool.false_ne_true, ih r hnd (by omega), er, List.foldl_append]

/-- how the messages are split over the buffers does not matter -/
theorem getNetlinkRouteInfo_stream {l : List Recv} {ms : List RouteMsg} (h : RouteStream l ms)
    (info : RouteInfo) (fuel : ℕ) (hf : ms.length < fuel) :
    getNetlinkRouteInfo q fuel afInet 0 0 l info =
      some (ms.foldl (RouteScan.consider q) ⟨4294967295, false, false, info⟩).answer :=
  routeRecvLoop_stream h _ rfl fuel hf

/-! ## a message -/

theorem RouteAttrs.oif_skipped {i : ℤ} (h : q.Skipped i) (a : RouteAttrs) :
    a.oif q i = (true, { a with ifindex := i, skipInterface := true }) := by
  have hb : (netlinkIsLoopback q i || netlinkIsPointtopoint q i) = true := by
    unfold netlinkIsLoopback netlinkIsPointtopoint
    rcases h with h | h | h
    · rw [if_pos h, Bool.true_or]
    · split_ifs <;> simp [h]
    · split_ifs <;> simp [h]
  unfold RouteAttrs.oif
  dsimp only
  rw [if_pos hb]

theorem RouteAttrs.oif_used {i : ℤ} (h : ¬ q.Skipped i) (a : RouteAttrs) :
    a.oif q i = (false, { a with ifindex := i, ifname := (q.name i).getD "" }) := by
  have hb : ¬ (netlinkIsLoopback q i || netlinkIsPointtopoint q i) = true := by
    intro hb
    unfold netlinkIsLoopback netlinkIsPointtopoint at hb
    by_cases hp : i ≤ 0
    · exact h (.inl hp)
    · rw [if_neg hp, if_neg hp, Bool.or_eq_true] at hb
      exact h (.inr hb)
  unfold RouteAttrs.oif
  dsimp only
  rw [if_neg hb]

/-- the loop is left only at an interface that is skipped -/
theorem RtAttr.apply_goes_on {x : RtAttr} (h : ∀ i, x = .oif i → ¬ q.Skipped i) (a : RouteAttrs) :
    (x.apply q a).1 = false ∧ (x.apply q a).2.skipInterface = a.skipInterface := by
  cases x with
  | oif i =>
    have e : RtAttr.apply q (.oif i) a = _ := RouteAttrs.oif_used (h i rfl) a
    rw [e]
    exact ⟨rfl, rfl⟩
  | gateway addr => exact ⟨rfl, rfl⟩
  | priority metric => exact ⟨rfl, rfl⟩
  | other type size h => exact ⟨rfl, rfl⟩

/-- a skipped interface is seen, in whatever order the attributes come -/
theorem applyAttrs_skip {l : List RtAttr} {i : ℤ} (hi : .oif i ∈ l) (hs : q.Skipped i)
    (a : RouteAttrs) : (applyAttrs q l a).skipInterface = true := by
  induction l generalizing a with
  | nil => exact absurd hi List.not_mem_nil
  | cons x l ih =>
    unfold applyAttrs
    by_cases hx : ∃ j, x = .oif j ∧ q.Skipped j
    · obtain ⟨j, rfl, hj⟩ := hx
      have e : RtAttr.apply q (.oif j) a = _ := RouteAttrs.oif_skipped hj a
      rw [e, if_pos rfl]
    · have hgo := x.apply_goes_on (fun j e hj => hx ⟨j, e, hj⟩) a
      rw [hgo.1, if_neg Bool.false_ne_true]
      rcases List.mem_cons.mp hi with e | hmem
      · exact absurd ⟨i, e.symm, hs⟩ hx
      · exact ih hmem _

theorem applyAttrs_noSkip {l : List RtAttr} (h : ∀ i, .oif i ∈ l → ¬ q.Skipped i) (a : RouteAttrs) :
    (applyAttrs q l a).skipInterface = a.skipInterface := by
  induction l generalizing a with
  | nil => rfl
  | cons x l ih =>
    have hgo := x.apply_goes_on (fun j e => h j (e ▸ List.mem_cons_self)) a
    unfold applyAttrs
    rw [hgo.1, if_neg Bool.false_ne_true, ih (fun j hj => h j (List.mem_cons_of_mem _ hj))]
    exact hgo.2

/-- A variable that only attributes of type `t` set.  Without such an attribute it stays. -/
theorem applyAttrs_keep {β : Type} {f : RouteAttrs → β} {t : ℕ}
    (hf : ∀ (x : RtAttr) (a : RouteAttrs), x.type ≠ t → f (x.apply q a).2 = f a) {l : List RtAttr}
    (hl : ∀ x ∈ l, x.type ≠ t) (hs : ∀ i, .oif i ∈ l → ¬ q.Skipped i) (a : RouteAttrs) :
    f (applyAttrs q l a) = f a := by
  induction l generalizing a with
  | nil => rfl
  | cons x l ih =>
    have hgo := x.apply_goes_on (fun j e => hs j (e ▸ List.mem_cons_self)) a
    unfold applyAttrs
    rw [hgo.1, if_neg Bool.false_ne_true, ih (fun y hy => hl y (List.mem_cons_of_mem _ hy))
      (fun j hj => hs j (List.mem_cons_of_mem _ hj))]
    exact hf x a (hl x List.mem_cons_self)

/-- With one it has what this attribute says. -/
theorem applyAttrs_set {β : Type} {f : RouteAttrs → β} {t : ℕ} {c : β}
    (hf : ∀ (x : RtAttr) (a : RouteAttrs), x.type ≠ t → f (x.apply q a).2 = f a) {l : List RtAttr}
    (hn : (l.map RtAttr.type).Nodup) (hs : ∀ i, .oif i ∈ l → ¬ q.Skipped i) {x : RtAttr}
    (hx : x ∈ l) (ht : x.type = t) (hc : ∀ a, f (x.apply q a).2 = c) (a : RouteAttrs) :
    f (applyAttrs q l a) = c := by
  induction l generalizing a with
  | nil => exact absurd hx List.not_mem_nil
  | cons y l ih =>
    have hgo := y.apply_goes_on (fun j e => hs j (e ▸ List.mem_cons_self)) a
    have hsl : ∀ j, .oif j ∈ l → ¬ q.Skipped j := fun j hj => hs j (List.mem_cons_of_mem _ hj)
    rw [List.map_cons, List.nodup_cons] at hn
    unfold applyAttrs
    rw [hgo.1, if_neg Bool.false_ne_true]
    rcases List.mem_cons.mp hx with rfl | hmem
    · rw [applyAttrs_keep hf (fun z hz e => hn.1 ?_) hsl]
      · exact hc a
      · rw [ht, ← e]
        exact List.mem_map_of_mem hz
    · exact ih hn.2 hsl hmem _

theorem oif_keeps_rest (i : ℤ) (a : RouteAttrs) :
    (a.oif q i).2.hasGateway = a.hasGateway ∧ (a.oif q i).2.gateway = a.gateway ∧
      (a.oif q i).2.metric = a.metric := by
  unfold RouteAttrs.oif
  dsimp only
  split_ifs <;> exact ⟨rfl, rfl, rfl⟩

theorem apply_interface {x : RtAttr} {a : RouteAttrs} (h : x.type ≠ rtaOif) :
    ((x.apply q a).2.ifindex, (x.apply q a).2.ifname) = (a.ifindex, a.ifname) := by
  cases x with
  | oif i => exact absurd rfl h
  | _ => rfl

theorem apply_gateway {x : RtAttr} {a : RouteAttrs} (h : x.type ≠ rtaGateway) :
    ((x.apply q a).2.hasGateway, (x.apply q a).2.gateway) = (a.hasGateway, a.gateway) := by
  cases x with
  | oif i =>
    obtain ⟨e1, e2, -⟩ := oif_keeps_rest (q := q) i a
    exact Prod.ext e1 e2
  | gateway addr => exact absurd rfl h
  | _ => rfl

theorem apply_metric {x : RtAttr} {a : RouteAttrs} (h : x.type ≠ rtaPriority) :
    (x.apply q a).2.metric = a.metric := by
  cases x with
  | oif i => exact (oif_keeps_rest (q := q) i a).2.2
  | priority metric => exact absurd rfl h
  | _ => rfl

namespace RouteMsg
variable {m : RouteMsg} {i : RouteInfo}

theorem attr_unique {x y : RtAttr} (hx : x ∈ m.attrs) (hy : y ∈ m.attrs) (h : x.type = y.type) :
    x = y :=
  List.inj_on_of_nodup_map m.once hx hy h

/-- the variables behind the attribute loop, when the interface is one `j` that is not skipped -/
theorem vars_interface {j : ℤ} (hj : .oif j ∈ m.attrs) (hs : ¬ q.Skipped j) :
    (applyAttrs q m.attrs {}).skipInterface = false ∧ (applyAttrs q m.attrs {}).ifindex = j ∧
      (applyAttrs q m.attrs {}).ifname = (q.name j).getD "" ∧
      ∀ k, .oif k ∈ m.attrs → ¬ q.Skipped k := by
  have hall : ∀ k, .oif k ∈ m.attrs → ¬ q.Skipped k := by
    intro k hk
    cases m.attr_unique hk hj rfl
    exact hs
  have e := applyAttrs_set (q := q) (f := fun a : RouteAttrs => (a.ifindex, a.ifname))
    (fun x a hx => apply_interface hx) m.once hall hj rfl (c := (j, (q.name j).getD ""))
    (fun a => by
      have e : RtAttr.apply q (.oif j) a = _ := RouteAttrs.oif_used hs a
      rw [e]) {}
  obtain ⟨e1, e2⟩ := Prod.mk.inj e
  exact ⟨applyAttrs_noSkip hall _, e1, e2, hall⟩

theorem vars_gateway {g : InAddr} (hg : .gateway g ∈ m.attrs)
    (hall : ∀ k, .oif k ∈ m.attrs → ¬ q.Skipped k) :
    (applyAttrs q m.attrs {}).hasGateway = true ∧ (applyAttrs q m.attrs {}).gateway = g := by
  have e := applyAttrs_set (q := q) (f := fun a : RouteAttrs => (a.hasGateway, a.gateway))
    (fun x a hx => apply_gateway hx) m.once hall hg rfl (c := (true, g)) (fun _ => rfl) {}
  exact Prod.mk.inj e

/-- the metric, `0` if there is none -/
theorem vars_metric (hall : ∀ k, .oif k ∈ m.attrs → ¬ q.Skipped k) :
    .priority (applyAttrs q m.attrs {}).metric ∈ m.attrs ∨
      (∀ x, .priority x ∉ m.attrs) ∧ (applyAttrs q m.attrs {}).metric = 0 := by
  by_cases hx : ∃ x, .priority x ∈ m.attrs
  · obtain ⟨x, hx⟩ := hx
    have e := applyAttrs_set (q := q) (f := RouteAttrs.metric) (fun y a hy => apply_metric hy) m.once
      hall hx rfl (c := x) (fun _ => rfl) {}
    rw [e]
    exact .inl hx
  · rw [not_exists] at hx
    refine .inr ⟨hx, ?_⟩
    refine applyAttrs_keep (f := RouteAttrs.metric) (fun y a hy => apply_metric hy) ?_ hall {}
    intro y hy ht
    cases y with
    | priority x => exact hx x hy
    | other type size h => exact h.2.2 ht
    | _ => cases ht

/-- a message has one metric -/
theorem metric_determined {j k : ℕ}
    (hj : .priority j ∈ m.attrs ∨ (∀ x, .priority x ∉ m.attrs) ∧ j = 0)
    (hk : .priority k ∈ m.attrs ∨ (∀ x, .priority x ∉ m.attrs) ∧ k = 0) : j = k := by
  rcases hj with hj | ⟨hno, hz⟩
  · rcases hk with hk | ⟨hno, -⟩
    · exact RtAttr.priority.inj (m.attr_unique hj hk rfl)
    · exact absurd hj (hno j)
  · rcases hk with hk | ⟨-, hz'⟩
    · exact absurd hk (hno k)
    · rw [hz, hz']

theorem exists_oif (hall : ∀ k, .oif k ∈ m.attrs → ¬ q.Skipped k)
    (hpos : 0 < (applyAttrs q m.attrs {}).ifindex) : ∃ j, .oif j ∈ m.attrs := by
  by_contra hno
  rw [not_exists] at hno
  have e := applyAttrs_keep (q := q) (f := fun a : RouteAttrs => (a.ifindex, a.ifname))
    (fun x a hx => apply_interface hx) (l := m.attrs) (fun y hy ht => by
      cases y with
      | oif j => exact hno j hy
      | other type size h => exact h.1 ht
      | _ => cases ht) hall {}
  rw [(Prod.mk.inj e).1] at hpos
  exact absurd hpos (by decide)

theorem exists_gateway (hall : ∀ k, .oif k ∈ m.attrs → ¬ q.Skipped k)
    (hgw : (applyAttrs q m.attrs {}).hasGateway = true) : ∃ g, .gateway g ∈ m.attrs := by
  by_contra hno
  rw [not_exists] at hno
  have e := applyAttrs_keep (q := q) (f := fun a : RouteAttrs => (a.hasGateway, a.gateway))
    (fun x a hx => apply_gateway hx) (l := m.attrs) (fun y hy ht => by
      cases y with
      | gateway g => exact hno g hy
      | other type size h => exact h.2.1 ht
      | _ => cases ht) hall {}
  rw [(Prod.mk.inj e).1] at hgw
  cases hgw

theorem Eligible.notSkipped (h : m.Eligible q i) : ¬ q.Skipped i.ifindex := by
  rintro (hp | hl | hp)
  · exact absurd h.pos (not_lt.mpr hp)
  · rw [h.notLoopback] at hl
    cases hl
  · rw [h.notPointToPoint] at hp
    cases hp

/-- an eligible route is taken unless a better one is known -/
theorem Eligible.consider (h : m.Eligible q i) (s : RouteScan) :
    s.consider q m = if i.metric ≤ s.bestMetric then
      { s with found := true, bestMetric := i.metric, info := i } else s := by
  obtain ⟨hskip, hidx, hname, hall⟩ := vars_interface h.oif h.notSkipped
  obtain ⟨hgw, hgaddr⟩ := vars_gateway h.gateway hall
  have hmetric := metric_determined (vars_metric hall) h.metric
  have hon : isLinkOnline q ((q.name i.ifindex).getD "") = true := h.name ▸ h.online
  unfold RouteScan.consider RouteScan.take
  rw [if_pos h.header, hskip, hidx, hname, hgw, hgaddr, hmetric, hon]
  by_cases hle : i.metric ≤ s.bestMetric
  · rw [if_neg Bool.false_ne_true, if_pos ⟨h.pos, rfl, hle⟩, if_pos hle, ← h.name]
    rfl
  · rw [if_neg Bool.false_ne_true, if_neg (fun hc => hle hc.2.2), if_neg hle]

/-- and no other message changes anything -/
theorem consider_of_not (h : ∀ i, ¬ m.Eligible q i) (s : RouteScan) : s.consider q m = s := by
  unfold RouteScan.consider
  split_ifs with hd
  swap
  · rfl
  unfold RouteScan.take
  split_ifs with hskip hc hon
  · rfl
  · rfl
  · obtain ⟨hpos, hgw, -⟩ := hc
    -- everything that an eligible route needs is there
    have hall : ∀ k, .oif k ∈ m.attrs → ¬ q.Skipped k := by
      intro k hk hs
      exact hskip (applyAttrs_skip hk hs {})
    obtain ⟨j, hj⟩ := exists_oif hall hpos
    obtain ⟨-, hidx, hname, -⟩ := vars_interface hj (hall j hj)
    obtain ⟨g, hg⟩ := exists_gateway hall hgw
    have hns := hall j hj
    unfold IfQueries.Skipped at hns
    rw [not_or, not_or, Bool.not_eq_true, Bool.not_eq_true] at hns
    refine absurd ?_ (h ⟨j, (q.name j).getD "", g, (applyAttrs q m.attrs {}).metric⟩)
    refine ⟨hd, hj, not_le.mp hns.1, hns.2.1, hns.2.2, hg, vars_metric hall, rfl, ?_⟩
    rw [hname] at hon
    simpa using hon
  · rfl

end RouteMsg

/-! ## the choice -/

/-- `i` is what the last of the eligible routes with the least metric says -/
def Chosen (q : IfQueries) (ms : List RouteMsg) (i : RouteInfo) : Prop :=
  ∃ pre m post, ms = pre ++ m :: post ∧ m.Eligible q i ∧
    (∀ m' ∈ ms, ∀ i', m'.Eligible q i' → i.metric ≤ i'.metric) ∧
    ∀ m' ∈ post, ∀ i', m'.Eligible q i' → i.metric < i'.metric

/-- a further message that is not eligible, or not as good -/
theorem Chosen.keep {ms : List RouteMsg} {i : RouteInfo} (h : Chosen q ms i) {m : RouteMsg}
    (hm : ∀ i', m.Eligible q i' → i.metric < i'.metric) : Chosen q (ms ++ [m]) i := by
  obtain ⟨pre, m0, post, rfl, h0, hmin, hpost⟩ := h
  refine ⟨pre, m0, post ++ [m], by simp, h0, ?_, ?_⟩
  · exact List.forall_mem_append.mpr
      ⟨hmin, List.forall_mem_singleton.mpr fun i' hi' => (hm i' hi').le⟩
  · exact List.forall_mem_append.mpr ⟨hpost, List.forall_mem_singleton.mpr hm⟩

theorem RouteMsg.Eligible.metric_le {m : RouteMsg} {i : RouteInfo} (h : m.Eligible q i) :
    i.metric ≤ 4294967295 := by
  rcases h.metric with hx | ⟨-, hz⟩
  · exact m.metric_le _ hx
  · rw [hz]
    exact Nat.zero_le _

theorem RouteMsg.Eligible.metric_unique {m : RouteMsg} {i j : RouteInfo} (hi : m.Eligible q i)
    (hj : m.Eligible q j) : i.metric = j.metric :=
  metric_determined hi.metric hj.metric

/-- one that is as good as all before -/
theorem Chosen.last {ms : List RouteMsg} {i : RouteInfo} {m : RouteMsg} (hm : m.Eligible q i)
    (hmin : ∀ m' ∈ ms, ∀ i', m'.Eligible q i' → i.metric ≤ i'.metric) : Chosen q (ms ++ [m]) i := by
  refine ⟨ms, m, [], rfl, hm, ?_, fun _ h => absurd h List.not_mem_nil⟩
  exact List.forall_mem_append.mpr
    ⟨hmin, List.forall_mem_singleton.mpr fun i' hi' => (hm.metric_unique hi').le⟩

/-- the running minimum: the state behind the messages `ms` -/
theorem foldl_consider (ms : List RouteMsg) (info : RouteInfo) :
    (ms.foldl (RouteScan.consider q) ⟨4294967295, false, false, info⟩ =
        ⟨4294967295, false, false, info⟩ ∧ ∀ m ∈ ms, ∀ i, ¬ m.Eligible q i) ∨
      ((ms.foldl (RouteScan.consider q) ⟨4294967295, false, false, info⟩).found = true ∧
        (ms.foldl (RouteScan.consider q) ⟨4294967295, false, false, info⟩).bestMetric =
          (ms.foldl (RouteScan.consider q) ⟨4294967295, false, false, info⟩).info.metric ∧
        Chosen q ms (ms.foldl (RouteScan.consider q) ⟨4294967295, false, false, info⟩).info) := by
  induction ms using List.reverseRecOn with
  | nil => exact .inl ⟨rfl, fun _ h => absurd h List.not_mem_nil⟩
  | append_singleton ms m ih =>
    rw [List.foldl_append, List.foldl_cons, List.foldl_nil]
    by_cases he : ∃ i, m.Eligible q i
    · obtain ⟨i, hi⟩ := he
      right
      rw [hi.consider]
      rcases ih with ⟨hs, hno⟩ | ⟨hfound, hbest, hch⟩
      · -- the first eligible route
        rw [hs, if_pos hi.metric_le]
        exact ⟨rfl, rfl, Chosen.last hi fun m' hm' i' hi' => absurd hi' (hno m' hm' i')⟩
      · split_ifs with hle
        · obtain ⟨pre, m0, post, -, -, hmin, -⟩ := hch
          rw [hbest] at hle
          exact ⟨rfl, rfl, Chosen.last hi fun m' hm' i' hi' => hle.trans (hmin m' hm' i' hi')⟩
        · refine ⟨hfound, hbest, hch.keep fun i' hi' => ?_⟩
          rw [hbest, not_le, hi.metric_unique hi'] at hle
          exact hle
    · rw [not_exists] at he
      rw [RouteMsg.consider_of_not he]
      rcases ih with ⟨hs, hno⟩ | ⟨hfound, hbest, hch⟩
      · exact .inl ⟨hs, List.forall_mem_append.mpr ⟨hno, List.forall_mem_singleton.mpr he⟩⟩
      · exact .inr ⟨hfound, hbest, hch.keep fun i' hi' => absurd hi' (he i')⟩

/-- the same message, but for the order of its attributes -/
structure RouteMsg.SameButOrder (m m' : RouteMsg) : Prop where
  type : m'.type = m.type
  family : m'.family = m.family
  dstLen : m'.dstLen = m.dstLen
  table : m'.table = m.table
  scope : m'.scope = m.scope
  rtType : m'.rtType = m.rtType
  attrs : m'.attrs.Perm m.attrs

theorem RouteMsg.SameButOrder.symm {m m' : RouteMsg} (h : m.SameButOrder m') : m'.SameButOrder m :=
  ⟨h.type.symm, h.family.symm, h.dstLen.symm, h.table.symm, h.scope.symm, h.rtType.symm,
    h.attrs.symm⟩

theorem RouteMsg.SameButOrder.eligible {m m' : RouteMsg} (h : m.SameButOrder m') {i : RouteInfo}
    (hi : m.Eligible q i) : m'.Eligible q i where
  header := ⟨h.type.trans hi.header.type, h.family.trans hi.header.family,
    h.table.trans hi.header.table, h.dstLen.trans hi.header.dstLen, h.rtType.trans hi.header.rtType,
    h.scope ▸ hi.header.scope⟩
  oif := h.attrs.mem_iff.mpr hi.oif
  pos := hi.pos
  notLoopback := hi.notLoopback
  notPointToPoint := hi.notPointToPoint
  gateway := h.attrs.mem_iff.mpr hi.gateway
  metric := by
    rcases hi.metric with hx | ⟨hno, hz⟩
    · exact .inl (h.attrs.mem_iff.mpr hx)
    · exact .inr ⟨fun x hx => hno x (h.attrs.mem_iff.mp hx), hz⟩
  name := hi.name
  online := hi.online

theorem RouteMsg.SameButOrder.consider {m m' : RouteMsg} (h : m.SameButOrder m') (s : RouteScan) :
    s.consider q m' = s.consider q m := by
  by_cases he : ∃ i, m.Eligible q i
  · obtain ⟨i, hi⟩ := he
    rw [hi.consider, (h.eligible hi).consider]
  · rw [not_exists] at he
    rw [RouteMsg.consider_of_not he, RouteMsg.consider_of_not fun i hi => he i (h.symm.eligible hi)]

theorem foldl_consider_order {ms ms' : List RouteMsg}
    (h : List.Forall₂ RouteMsg.SameButOrder ms ms') (s : RouteScan) :
    ms'.foldl (RouteScan.consider q) s = ms.foldl (RouteScan.consider q) s := by
  induction h generalizing s with
  | nil => rfl
  | cons hm _ ih => rw [List.foldl_cons, List.foldl_cons, hm.consider, ih]

/-- **The default route.**  For messages that end with `NLMSG_DONE`, however they are split over the
buffers, the function returns `0` if and only if one of them is an eligible route, and then reports
the last of those with the least metric; otherwise it returns `ENODEV`.  The order of the attributes
in the messages does not matter. -/
theorem route_selection (q : IfQueries) (recvs : List Recv) (msgs : List RouteMsg)
    (hs : RouteStream recvs msgs) (info : RouteInfo) : ∃ code found,
    (∃ k, ∀ fuel ≥ k, getNetlinkRouteInfo q fuel afInet 0 0 recvs info = some (code, found)) ∧
    (code = 0 ↔ ∃ m ∈ msgs, ∃ i, m.Eligible q i) ∧
    (code = 0 → Chosen q msgs found) ∧
    (code ≠ 0 → code = errNodev) ∧
    ∀ recvs' msgs', RouteStream recvs' msgs' → List.Forall₂ RouteMsg.SameButOrder msgs msgs' →
      ∃ k, ∀ fuel ≥ k, getNetlinkRouteInfo q fuel afInet 0 0 recvs' info = some (code, found) := by
  have hrun : ∀ recvs' msgs', RouteStream recvs' msgs' →
      List.Forall₂ RouteMsg.SameButOrder msgs msgs' → ∃ k, ∀ fuel ≥ k,
        getNetlinkRouteInfo q fuel afInet 0 0 recvs' info =
          some (msgs.foldl (RouteScan.consider q) ⟨4294967295, false, false, info⟩).answer := by
    intro recvs' msgs' hs' ho
    refine ⟨msgs'.length + 1, fun fuel hf => ?_⟩
    rw [getNetlinkRouteInfo_stream hs' info fuel hf, foldl_consider_order ho]
  have hself : List.Forall₂ RouteMsg.SameButOrder msgs msgs :=
    List.forall₂_same.mpr fun _ _ => ⟨rfl, rfl, rfl, rfl, rfl, rfl, .refl _⟩
  refine ⟨_, _, hrun recvs msgs hs hself, ?_, ?_, ?_, hrun⟩
  all_goals
    rcases foldl_consider (q := q) msgs info with ⟨e, hno⟩ | ⟨hfound, -, hch⟩
  · rw [e]
    refine iff_of_false (show errNodev ≠ 0 by decide) ?_
    rintro ⟨m, hm, i, hi⟩
    exact hno m hm i hi
  · rw [hfound]
    obtain ⟨pre, m, post, e, hm, -⟩ := hch
    refine iff_of_true rfl ⟨m, ?_, _, hm⟩
    rw [e]
    simp
  · rw [e]
    exact fun hc => absurd hc (show errNodev ≠ 0 by decide)
  · exact fun _ => hch
  · rw [e]
    exact fun _ => rfl
  · rw [hfound]
    exact fun hc => absurd rfl hc

end

/-- a default route by interface `2` with metric `100` -/
def ethMsg : RouteMsg where
  type := 24
  family := 2
  dstLen := 0
  table := 254
  scope := 0
  rtType := 1
  attrs := [.oif 2, .gateway 0x0100000a, .priority 100]
  goesOn := by decide
  once := by decide
  metric_le := by simp

/-- and one by interface `3`, with an attribute more and without a metric -/
def wlanMsg : RouteMsg where
  type := 24
  family := 2
  dstLen := 0
  table := 254
  scope := 0
  rtType := 1
  attrs := [.other 15 1 (by decide), .gateway 0x0101000a, .oif 3]
  goesOn := by decide
  once := by decide
  metric_le := by simp

def ethBytes : List UInt8 :=
  [52, 0, 0, 0, 24, 0, 2, 0, 1, 0, 0, 0, 0, 0, 0, 0,
   2, 0, 0, 0, 254, 3, 0, 1, 0, 0, 0, 0,
   8, 0, 4, 0, 2, 0, 0, 0, 8, 0, 5, 0, 10, 0, 0, 1, 8, 0, 6, 0, 100, 0, 0, 0]

def wlanBytes : List UInt8 :=
  [52, 0, 0, 0, 24, 0, 2, 0, 1, 0, 0, 0, 0, 0, 0, 0,
   2, 0, 0, 0, 254, 3, 0, 1, 0, 0, 0, 0,
   5, 0, 15, 0, 254, 0, 0, 0, 8, 0, 5, 0, 10, 0, 1, 1, 8, 0, 4, 0, 3, 0, 0, 0,
   20, 0, 0, 0, 3, 0, 2, 0, 1, 0, 0, 0, 0, 0, 0, 0, 0, 0, 0, 0]

/-- one buffer for each message, and `NLMSG_DONE` in the second -/
def twoRecvs : List Recv :=
  [.got (fun i => ethBytes.getD i 0) 52, .got (fun i => wlanBytes.getD i 0) 72]

def homeQueries : IfQueries where
  loopback := fun _ => false
  pointToPoint := fun _ => false
  name := fun i => if i = 2 then some "eth0" else some "wlan0"
  online := fun _ => true

theorem route_selection_two : RouteStream twoRecvs [ethMsg, wlanMsg] ∧
    ∃ found, (∃ k, ∀ fuel ≥ k,
        getNetlinkRouteInfo homeQueries fuel afInet 0 0 twoRecvs ⟨0, "", 0, 0⟩ = some (0, found)) ∧
      Chosen homeQueries [ethMsg, wlanMsg] found := by
  have h1 : RouteMsg.form.Packed (fun i => ethBytes.getD i 0) 52 (fun nlh => nlh = 52) 0 [ethMsg] := by
    refine ⟨by decide, by decide, by decide, ⟨by decide, by decide, by decide, by decide, by decide,
      by decide, ?_⟩, rfl⟩
    exact ⟨⟨by decide, by decide, by decide⟩, by decide, ⟨by decide, by decide, by decide⟩, by decide,
      ⟨by decide, by decide, by decide⟩, by decide, show (_ : ℤ) < 4 by decide⟩
  have h2 : RouteMsg.form.Packed (fun i => wlanBytes.getD i 0) 72
      (EndsAt (fun i => wlanBytes.getD i 0) 72) 0 [wlanMsg] := by
    refine ⟨by decide, by decide, by decide, ⟨by decide, by decide, by decide, by decide, by decide,
      by decide, ?_⟩, by decide, by decide, by decide⟩
    exact ⟨⟨by decide, by decide, trivial⟩, by decide, ⟨by decide, by decide, by decide⟩, by decide,
      ⟨by decide, by decide, by decide⟩, by decide, show (_ : ℤ) < 4 by decide⟩
  have hs : RouteStream twoRecvs [ethMsg, wlanMsg] := .more (by decide) h1 (.done (by decide) h2)
  have he : ethMsg.Eligible homeQueries ⟨2, "eth0", 0x0100000a, 100⟩ :=
    ⟨by decide, by simp [ethMsg], by decide, rfl, rfl, by simp [ethMsg], by simp [ethMsg], by decide,
      by decide⟩
  obtain ⟨code, found, hrun, hzero, hch, -, -⟩ :=
    route_selection homeQueries twoRecvs [ethMsg, wlanMsg] hs ⟨0, "", 0, 0⟩
  have h0 : code = 0 := hzero.mpr ⟨ethMsg, by simp, _, he⟩
  subst h0
  exact ⟨hs, found, hrun, hch rfl⟩

end QuicVpn
