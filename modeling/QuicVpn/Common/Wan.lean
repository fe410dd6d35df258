import QuicVpn.Common.NetlinkAddr
import QuicVpn.Common.NetlinkRoute

/-!
# The interface to the outside (`detect_default_wan`)

Both engines look for the interface of the default route before they do anything else.  They ask the
kernel three times: for the routes, for the addresses of the interface of the best one, and for that
interface itself.

* `getNetlinkLinkInfo`   the third question;
* `detectDefaultWanNet`  the function, which fills `session->wan`;
* `Chosen.unique`        the reported route is determined by the messages;
* `wan_detected`         what is in `session->wan`, and when.
-/

set_option linter.unusedSectionVars false

namespace QuicVpn
open Conc Conc.Reads

def iflaAddress : ℕ := 1
def iflaMtu : ℕ := 4

/-- `netlink_link_info_t` -/
structure LinkInfo where
  mtu : ℕ := 0
  mac : List UInt8 := List.replicate 6 0

/-- `memcpy` of six bytes -/
def sixBytes (i : ℕ) : Reads (List UInt8) :=
  fun mem => ((List.range 6).map fun j => mem (i + j), (List.range 6).map fun j => i + j)

def linkAttr (rta : ℕ) (v : LinkInfo) : Reads (Bool × LinkInfo) := do
  let type ← u16 (rta + 2)
  if type = iflaMtu then do
    let mtu ← u32 (rta + 4)
    pure (false, { v with mtu := mtu })
  else if type = iflaAddress then do
    let len ← u16 rta
    -- `RTA_PAYLOAD`
    if len < 4 + 6 then pure (false, v)
    else do
      let mac ← sixBytes (rta + 4)
      pure (false, { v with mac := mac })
  else pure (false, v)

/-- one question to the kernel: the `errno` of `socket` and `send`, and the answers of `recv` -/
structure Query where
  socket : ℕ
  send : ℕ
  recvs : List Recv

/-- `get_netlink_link_info`; `none` if the answer never comes -/
def getNetlinkLinkInfo (ifindex : ℤ) (a : Query) (info : LinkInfo) : Option (ℕ × LinkInfo) :=
  if ifindex ≤ 0 then some (22, info)
  else if a.socket ≠ 0 then some (a.socket, {})
  else if a.send ≠ 0 then some (a.send, {})
  else
    match a.recvs with
    | [] => none
    | .failed errno :: _ => some (errno, {})
    | .got mem len :: _ =>
      if len < 16 ∨ le32 mem 0 < 16 ∨ len < le32 mem 0 then some (errNodev, {})
      else if le16 mem 4 ≠ rtmNewlink then some (errNodev, {})
      else some (0, (rtaLoop linkAttr mem 32 (nlmsgPayload (le32 mem 0) 32) {}).1)

/-- `net_iface_t` -/
structure NetIface where
  ifindex : ℤ
  ifname : String
  ip : InAddr
  ipStr : String
  mask : InAddr
  gateway : InAddr

/-- the answers of the kernel to the three questions; the last two are about an interface -/
structure WanEnv where
  route : Query
  addr : ℤ → Query
  link : ℤ → Query
  malloc : Bool
  /-- what is on the stack -/
  routeInfo : RouteInfo
  addrInfo : AddrScan
  linkInfo : LinkInfo

/-- `detect_default_wan`: what it returns and what `session->wan` is set to -/
def detectDefaultWanNet (q : IfQueries) (fuel : ℕ) (e : WanEnv) : Option (ℤ × Option NetIface) :=
  match getNetlinkRouteInfo q fuel afInet e.route.socket e.route.send e.route.recvs e.routeInfo with
  | none => none
  | some (code, route) =>
    if code ≠ 0 then some (ecanceled, none)
    else
      let a := e.addr route.ifindex
      match getNetlinkAddrInfo fuel afInet route.ifindex a.socket a.send a.recvs e.addrInfo with
      | none => none
      | some (code, addr) =>
        if code ≠ 0 then some (ecanceled, none)
        else
          match getNetlinkLinkInfo route.ifindex (e.link route.ifindex) e.linkInfo with
          | none => none
          | some (code, _) =>
            if code ≠ 0 then some (ecanceled, none)
            else if e.malloc = false then some (enomem, none)
            else some (0, some ⟨route.ifindex, route.ifname, addr.ip, addr.ipStr, addr.mask, route.gateway⟩)

/-! ## the best route -/

section
variable {q : IfQueries} {ms : List RouteMsg} {i j : RouteInfo}

theorem RouteMsg.Eligible.unique {m : RouteMsg} (hi : m.Eligible q i) (hj : m.Eligible q j) : i = j := by
  have hoif : i.ifindex = j.ifindex := RtAttr.oif.inj (RouteMsg.attr_unique hi.oif hj.oif rfl)
  have hgw : i.gateway = j.gateway := RtAttr.gateway.inj (RouteMsg.attr_unique hi.gateway hj.gateway rfl)
  have hname : i.ifname = j.ifname := by rw [hi.name, hj.name, hoif]
  have hmetric := hi.metric_unique hj
  cases i
  cases j
  simp_all

/-- of two routes with the least metric the later one is chosen -/
theorem Chosen.unique (hi : Chosen q ms i) (hj : Chosen q ms j) : i = j := by
  obtain ⟨pre, m, post, rfl, hm, hmin, hpost⟩ := hi
  obtain ⟨pre', m', post', e, hm', hmin', hpost'⟩ := hj
  have hij : j.metric ≤ i.metric := hmin' m (by simp) i hm
  have hji : i.metric ≤ j.metric := hmin m' (by rw [e]; simp) j hm'
  rcases List.append_eq_append_iff.mp e with ⟨c, hc, hd⟩ | ⟨c, hc, hd⟩
  · cases c with
    | nil =>
      obtain ⟨rfl, -⟩ := List.cons_eq_cons.mp hd
      exact hm.unique hm'
    | cons x c =>
      -- the second lies behind the first
      obtain ⟨-, hp⟩ := List.cons_eq_cons.mp hd
      have hlt := hpost m' (by rw [hp]; simp) j hm'
      omega
  · cases c with
    | nil =>
      obtain ⟨rfl, -⟩ := List.cons_eq_cons.mp hd
      exact hm.unique hm'
    | cons x c =>
      obtain ⟨-, hp⟩ := List.cons_eq_cons.mp hd
      have hlt := hpost' m (by rw [hp]; simp) i hm
      omega

end

theorem Chosen.ifindex_pos {q : IfQueries} {routes : List RouteMsg} {i : RouteInfo}
    (h : Chosen q routes i) : 0 < i.ifindex := by
  obtain ⟨_, _, _, _, hm, _⟩ := h
  exact hm.pos

/-- what `get_netlink_route_info` makes of a dump -/
theorem getNetlinkRouteInfo_cases (q : IfQueries) {a : Query} (ha : a.socket = 0 ∧ a.send = 0)
    {routes : List RouteMsg} (hs : RouteStream a.recvs routes) (info : RouteInfo) : ∃ code route,
    (∀ fuel > routes.length,
      getNetlinkRouteInfo q fuel afInet a.socket a.send a.recvs info = some (code, route)) ∧
    (code = 0 ∧ Chosen q routes route ∨ code ≠ 0 ∧ route = info ∧ ∀ i, ¬ Chosen q routes i) := by
  have hrun : ∀ fuel > routes.length,
      getNetlinkRouteInfo q fuel afInet a.socket a.send a.recvs info =
        some (routes.foldl (RouteScan.consider q) ⟨4294967295, false, false, info⟩).answer := by
    intro fuel hf
    rw [ha.1, ha.2]
    exact getNetlinkRouteInfo_stream hs info fuel hf
  rcases foldl_consider (q := q) routes info with ⟨hst, hno⟩ | ⟨hfound, -, hch⟩
  · rw [hst] at hrun
    refine ⟨errNodev, info, hrun, .inr ⟨by decide, rfl, ?_⟩⟩
    rintro i ⟨pre, m, post, rfl, hm, -⟩
    exact hno m (by simp) i hm
  · generalize routes.foldl (RouteScan.consider q) ⟨4294967295, false, false, info⟩ = st at *
    have hans : st.answer = (0, st.info) := by
      unfold RouteScan.answer
      rw [hfound]
      rfl
    rw [hans] at hrun
    exact ⟨0, st.info, hrun, .inl ⟨rfl, hch⟩⟩

/-! ## the three answers -/

/-- the kernel answers with these dumps; the third answer is left open -/
structure WanEnv.Answers (e : WanEnv) (routes : List RouteMsg) (addrs : ℤ → List AddrMsg) : Prop where
  route : e.route.socket = 0 ∧ e.route.send = 0
  routes : RouteStream e.route.recvs routes
  addr : ∀ i, (e.addr i).socket = 0 ∧ (e.addr i).send = 0
  addrs : ∀ i, AddrMsg.form.Dump (e.addr i).recvs (addrs i)
  /-- a failing `recv` has its `errno` -/
  link : ∀ i, ∃ r rest, (e.link i).recvs = r :: rest ∧ r ≠ .failed 0

/-- the third answer begins with a whole `RTM_NEWLINK` -/
def Query.SaysLink (a : Query) : Prop :=
  a.socket = 0 ∧ a.send = 0 ∧ ∃ mem len rest, a.recvs = .got mem len :: rest ∧
    16 ≤ le32 mem 0 ∧ le32 mem 0 ≤ len ∧ le16 mem 4 = rtmNewlink

section
variable {e : WanEnv} {routes : List RouteMsg} {addrs : ℤ → List AddrMsg}

/-- the third answer: the interface is there, or an error -/
theorem WanEnv.Answers.link_cases (h : e.Answers routes addrs) {i : ℤ} (hpos : 0 < i) : ∃ code info,
    getNetlinkLinkInfo i (e.link i) e.linkInfo = some (code, info) ∧
      (code = 0 ↔ (e.link i).SaysLink) := by
  obtain ⟨r, rest, hrecv, hr⟩ := h.link i
  unfold getNetlinkLinkInfo
  rw [if_neg (not_le.mpr hpos)]
  by_cases h1 : (e.link i).socket = 0
  swap
  · rw [if_pos h1]
    exact ⟨_, _, rfl, iff_of_false h1 fun hs => h1 hs.1⟩
  by_cases h2 : (e.link i).send = 0
  swap
  · rw [if_neg (not_not.mpr h1), if_pos h2]
    exact ⟨_, _, rfl, iff_of_false h2 fun hs => h2 hs.2.1⟩
  rw [if_neg (not_not.mpr h1), if_neg (not_not.mpr h2), hrecv]
  cases r with
  | failed errno =>
    refine ⟨errno, {}, rfl, iff_of_false (fun h0 => hr (congrArg _ h0)) ?_⟩
    rintro ⟨-, -, mem, len, rest', he, -⟩
    rw [hrecv] at he
    cases he
  | got mem len =>
    have htells : (e.link i).SaysLink ↔ 16 ≤ le32 mem 0 ∧ le32 mem 0 ≤ len ∧ le16 mem 4 = rtmNewlink := by
      constructor
      · rintro ⟨-, -, mem', len', rest', he, hs⟩
        rw [hrecv] at he
        cases he
        exact hs
      · exact fun hs => ⟨h1, h2, mem, len, rest, hrecv, hs⟩
    rw [htells]
    dsimp only
    split_ifs with hsmall htype
    · exact ⟨_, _, rfl, iff_of_false (by decide) (by omega)⟩
    · exact ⟨_, _, rfl, iff_of_false (by decide) fun hs => htype hs.2.2⟩
    · exact ⟨_, _, rfl, iff_of_true rfl ⟨by omega, by omega, not_not.mp htype⟩⟩

/-- the first answer: the chosen route, or an error -/
theorem WanEnv.Answers.route_cases (q : IfQueries) (h : e.Answers routes addrs) : ∃ code route,
    (∀ fuel > routes.length, getNetlinkRouteInfo q fuel afInet e.route.socket e.route.send e.route.recvs
      e.routeInfo = some (code, route)) ∧
    (code = 0 ∧ Chosen q routes route ∨ code ≠ 0 ∧ ∀ i, ¬ Chosen q routes i) := by
  obtain ⟨code, route, hrun, hcase⟩ := getNetlinkRouteInfo_cases q h.route h.routes e.routeInfo
  exact ⟨code, route, hrun, hcase.imp_right fun hno => ⟨hno.1, hno.2.2⟩⟩

/-- the second answer: the first usable address, or an error -/
theorem WanEnv.Answers.addr_cases (h : e.Answers routes addrs) {i : ℤ} (hpos : 0 < i) : ∃ code info,
    (∀ fuel > (addrs i).length, getNetlinkAddrInfo fuel afInet i (e.addr i).socket (e.addr i).send
      (e.addr i).recvs e.addrInfo = some (code, info)) ∧
    (code = 0 ∧ AddrMsg.Chosen (addrs i) i info ∨
      code ≠ 0 ∧ ∀ m ∈ addrs i, ∀ ip, ¬ m.Usable i ip) := by
  have hrun : ∀ fuel > (addrs i).length, getNetlinkAddrInfo fuel afInet i (e.addr i).socket (e.addr i).send
      (e.addr i).recvs e.addrInfo = _ := fun fuel hf => getNetlinkAddrInfo_dump hpos (h.addr i) (h.addrs i) hf
  rcases AddrMsg.scan_consider (addrs i) i with ⟨hs, hno⟩ | ⟨info, hs, -, -, hch⟩
  · refine ⟨errNodev, { done := true }, fun fuel hf => ?_, .inr ⟨by decide, hno⟩⟩
    rw [hrun fuel hf, hs]
    rfl
  · refine ⟨0, info, fun fuel hf => ?_, .inl ⟨rfl, hch⟩⟩
    rw [hrun fuel hf, hs]
    rfl

end

/-- the three questions are answered with a route, an address and an interface, and there is memory -/
structure WanEnv.Found (q : IfQueries) (e : WanEnv) (routes : List RouteMsg) (addrs : ℤ → List AddrMsg)
    (i : RouteInfo) : Prop where
  route : Chosen q routes i
  addr : ∃ m ∈ addrs i.ifindex, ∃ ip, m.Usable i.ifindex ip
  link : (e.link i.ifindex).SaysLink
  malloc : e.malloc = true

/-- what `session->wan` is then -/
def NetIface.Describes (w : NetIface) (q : IfQueries) (routes : List RouteMsg)
    (addrs : ℤ → List AddrMsg) : Prop :=
  ∃ i a, Chosen q routes i ∧ AddrMsg.Chosen (addrs i.ifindex) i.ifindex a ∧
    w = ⟨i.ifindex, i.ifname, a.ip, inetNtop a.ip, a.mask, i.gateway⟩

section
variable {q : IfQueries} {e : WanEnv} {fuel code : ℕ} {route : RouteInfo} {info : AddrScan}

theorem detectDefaultWanNet_noRoute (hroute : getNetlinkRouteInfo q fuel afInet e.route.socket e.route.send
      e.route.recvs e.routeInfo = some (code, route)) (hc : code ≠ 0) :
    detectDefaultWanNet q fuel e = some (ecanceled, none) := by
  unfold detectDefaultWanNet
  rw [hroute]
  exact if_pos hc

theorem detectDefaultWanNet_noAddr (hroute : getNetlinkRouteInfo q fuel afInet e.route.socket e.route.send
      e.route.recvs e.routeInfo = some (0, route))
    (haddr : getNetlinkAddrInfo fuel afInet route.ifindex (e.addr route.ifindex).socket
      (e.addr route.ifindex).send (e.addr route.ifindex).recvs e.addrInfo = some (code, info))
    (hc : code ≠ 0) : detectDefaultWanNet q fuel e = some (ecanceled, none) := by
  unfold detectDefaultWanNet
  rw [hroute]
  dsimp only
  rw [if_neg (not_not.mpr rfl), haddr]
  exact if_pos hc

theorem detectDefaultWanNet_addr (hroute : getNetlinkRouteInfo q fuel afInet e.route.socket e.route.send
      e.route.recvs e.routeInfo = some (0, route))
    (haddr : getNetlinkAddrInfo fuel afInet route.ifindex (e.addr route.ifindex).socket
      (e.addr route.ifindex).send (e.addr route.ifindex).recvs e.addrInfo = some (0, info))
    {linfo : LinkInfo}
    (hlink : getNetlinkLinkInfo route.ifindex (e.link route.ifindex) e.linkInfo = some (code, linfo)) :
    detectDefaultWanNet q fuel e =
      if code ≠ 0 then some (ecanceled, none)
      else if e.malloc = false then some (enomem, none)
      else some (0, some ⟨route.ifindex, route.ifname, info.ip, info.ipStr, info.mask, route.gateway⟩) := by
  unfold detectDefaultWanNet
  rw [hroute]
  dsimp only
  rw [if_neg (not_not.mpr rfl), haddr]
  dsimp only
  rw [if_neg (not_not.mpr rfl), hlink]

end

/-- **The interface to the outside.**  Once the kernel has answered with its dumps, `session->wan` is set
just when there is a default route that may be used, its interface has a usable address and says that it is
there, and `malloc` succeeds.  It is then the interface, name and gateway of the best route, and the
first usable address of that interface with its text and its mask. -/
theorem wan_detected (q : IfQueries) (e : WanEnv) (routes : List RouteMsg) (addrs : ℤ → List AddrMsg)
    (h : e.Answers routes addrs) : ∃ r wan,
    (∃ k, ∀ fuel ≥ k, detectDefaultWanNet q fuel e = some (r, wan)) ∧
    (wan.isSome = true ↔ r = 0) ∧ (r = 0 ↔ ∃ i, WanEnv.Found q e routes addrs i) ∧
    ∀ w, wan = some w → w.Describes q routes addrs := by
  have refused : ∀ (r : ℤ) (k : ℕ), r ≠ 0 → (∀ fuel > k, detectDefaultWanNet q fuel e = some (r, none)) →
      (¬ ∃ i, WanEnv.Found q e routes addrs i) → ∃ r wan,
      (∃ k, ∀ fuel ≥ k, detectDefaultWanNet q fuel e = some (r, wan)) ∧
      (wan.isSome = true ↔ r = 0) ∧ (r = 0 ↔ ∃ i, WanEnv.Found q e routes addrs i) ∧
      ∀ w, wan = some w → w.Describes q routes addrs := fun r k hr hrun hno =>
    ⟨r, none, ⟨k + 1, fun fuel hf => hrun fuel hf⟩, iff_of_false Bool.false_ne_true hr,
      iff_of_false hr hno, fun w hw => absurd hw (Option.some_ne_none w).symm⟩
  obtain ⟨code, route, hroute, ⟨rfl, hch⟩ | ⟨hne, hno⟩⟩ := h.route_cases q
  · have hfound : ∀ i, WanEnv.Found q e routes addrs i → WanEnv.Found q e routes addrs route :=
      fun i hi => hi.route.unique hch ▸ hi
    obtain ⟨code2, info, haddr, hcase⟩ := h.addr_cases hch.ifindex_pos
    rcases hcase with ⟨rfl, hinfo⟩ | ⟨hne2, hnone⟩
    · obtain ⟨code3, linfo, hlink, hok⟩ := h.link_cases hch.ifindex_pos
      have hrun : ∀ fuel > routes.length + (addrs route.ifindex).length, detectDefaultWanNet q fuel e =
          if code3 ≠ 0 then some (ecanceled, none)
          else if e.malloc = false then some (enomem, none)
          else some (0, some ⟨route.ifindex, route.ifname, info.ip, info.ipStr, info.mask, route.gateway⟩) := by
        intro fuel hf
        exact detectDefaultWanNet_addr (hroute fuel (by omega)) (haddr fuel (by omega)) hlink
      by_cases h3 : code3 = 0
      · cases hm : e.malloc with
        | true =>
          have huse : ∃ m ∈ addrs route.ifindex, ∃ ip, m.Usable route.ifindex ip := by
            obtain ⟨_, m, _, hms, _, hu, _⟩ := id hinfo
            exact ⟨m, hms ▸ List.mem_append_right _ List.mem_cons_self, _, hu⟩
          have hstr : info.ipStr = inetNtop info.ip := by
            obtain ⟨_, _, _, _, _, _, htold⟩ := id hinfo
            exact htold.ipStr
          refine ⟨0, some ⟨route.ifindex, route.ifname, info.ip, info.ipStr, info.mask, route.gateway⟩,
            ⟨_, fun fuel hf => (hrun fuel hf).trans ?_⟩, iff_of_true rfl rfl,
            iff_of_true rfl ⟨route, hch, huse, hok.mp h3, hm⟩, ?_⟩
          · rw [if_neg (not_not.mpr h3), hm, if_neg Bool.true_eq_false.mp]
          · intro w hw
            refine ⟨route, info, hch, hinfo, ?_⟩
            rw [← Option.some.inj hw, hstr]
        | false =>
          refine refused enomem _ (by decide) (fun fuel hf => (hrun fuel hf).trans ?_) ?_
          · rw [if_neg (not_not.mpr h3), hm, if_pos rfl]
          · rintro ⟨i, hi⟩
            exact Bool.false_ne_true (hm.symm.trans hi.malloc)
      · refine refused ecanceled _ (by decide) (fun fuel hf => (hrun fuel hf).trans (if_pos h3)) ?_
        rintro ⟨i, hi⟩
        exact h3 (hok.mpr (hfound i hi).link)
    · refine refused ecanceled (routes.length + (addrs route.ifindex).length) (by decide)
        (fun fuel hf => ?_) ?_
      · exact detectDefaultWanNet_noAddr (hroute fuel (by omega)) (haddr fuel (by omega)) hne2
      · rintro ⟨i, hi⟩
        obtain ⟨m, hm, ip, hu⟩ := (hfound i hi).addr
        exact hnone m hm ip hu
  · refine refused ecanceled routes.length (by decide)
      (fun fuel hf => detectDefaultWanNet_noRoute (hroute fuel hf) hne) ?_
    rintro ⟨i, hi⟩
    exact hno i hi.route

/-- the default route of `ethMsg`, and the end of the dump -/
def homeRouteBytes : List UInt8 :=
  ethBytes ++ [20, 0, 0, 0, 3, 0, 2, 0, 1, 0, 0, 0, 0, 0, 0, 0, 0, 0, 0, 0]

/-- an `RTM_NEWLINK` without attributes -/
def homeLinkBytes : List UInt8 := [32, 0, 0, 0, 16, 0, 0, 0] ++ List.replicate 24 0

def homeEnv : WanEnv where
  route := ⟨0, 0, [.got (fun i => homeRouteBytes.getD i 0) 72]⟩
  addr := fun _ => ⟨0, 0, [.got (fun i => homeAddrBytes.getD i 0) 68]⟩
  link := fun _ => ⟨0, 0, [.got (fun i => homeLinkBytes.getD i 0) 32]⟩
  malloc := true
  routeInfo := ⟨0, "", 0, 0⟩
  addrInfo := {}
  linkInfo := {}

theorem ethMsg_chosen : Chosen homeQueries [ethMsg] ⟨2, "eth0", 0x0100000a, 100⟩ := by
  have he : ethMsg.Eligible homeQueries ⟨2, "eth0", 0x0100000a, 100⟩ :=
    ⟨by decide, by simp [ethMsg], by decide, rfl, rfl, by simp [ethMsg], by simp [ethMsg], by decide,
      by decide⟩
  exact ⟨[], ethMsg, [], rfl, he, List.forall_mem_singleton.mpr fun i hi => (he.metric_unique hi).le,
    fun m hm => absurd hm List.not_mem_nil⟩

theorem wan_detected_home : WanEnv.Answers homeEnv [ethMsg] (fun _ => [homeAddr]) ∧
    ∃ w, (∃ k, ∀ fuel ≥ k, detectDefaultWanNet homeQueries fuel homeEnv = some (0, some w)) ∧
      w.Describes homeQueries [ethMsg] fun _ => [homeAddr] := by
  have hroutes : RouteStream homeEnv.route.recvs [ethMsg] := by
    refine .done (by decide) ⟨by decide, by decide, by decide, ⟨by decide, by decide, by decide, by decide,
      by decide, by decide, ?_⟩, by decide, by decide, by decide⟩
    exact ⟨⟨by decide, by decide, by decide⟩, by decide, ⟨by decide, by decide, by decide⟩, by decide,
      ⟨by decide, by decide, by decide⟩, by decide, show (_ : ℤ) < 4 by decide⟩
  have h : WanEnv.Answers homeEnv [ethMsg] fun _ => [homeAddr] :=
    ⟨⟨rfl, rfl⟩, hroutes, fun _ => ⟨rfl, rfl⟩, fun _ => homeAddr_dump,
      fun _ => ⟨_, _, rfl, Recv.noConfusion⟩⟩
  have hf : WanEnv.Found homeQueries homeEnv [ethMsg] (fun _ => [homeAddr]) ⟨2, "eth0", 0x0100000a, 100⟩ :=
    ⟨ethMsg_chosen, ⟨homeAddr, List.mem_singleton_self _, _, homeAddr_usable⟩,
      ⟨rfl, rfl, _, _, _, rfl, by decide⟩, rfl⟩
  obtain ⟨r, wan, hrun, hset, hzero, hw⟩ :=
    wan_detected homeQueries homeEnv [ethMsg] (fun _ => [homeAddr]) h
  have h0 : r = 0 := hzero.mpr ⟨_, hf⟩
  subst h0
  obtain ⟨w, rfl⟩ := Option.isSome_iff_exists.mp (hset.mpr rfl)
  exact ⟨h, w, hrun, hw w rfl⟩

end QuicVpn
