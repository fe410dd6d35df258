import QuicVpn.Lib.Reads
import QuicVpn.Common.InAddr

/-!
# Netlink messages (`net_iface.c`)

The answers of the kernel are read in place: a message is found by adding up the aligned lengths of
the messages before it, and so is an attribute of a message.  The macros of the Linux headers are
applied to the types that the program gives them.

* `nlmsgLoop`               `for (; NLMSG_OK(nlh, (size_t)len); nlh = NLMSG_NEXT(nlh, len))`; it need
                            not end, so it has fuel;
* `rtaLoop`                 `for (; RTA_OK(rta, rta_len); rta = RTA_NEXT(rta, rta_len))`; it ends;
* `routeMsg`, `addrMsg`, `eventMsg`   the bodies of the three message loops;
* `getNetlinkRouteInfo`     the search for the default route.

What the program asks about an interface while it reads is a parameter (`IfQueries`).
-/

set_option linter.unusedSectionVars false

namespace QuicVpn
open Conc Conc.Reads

/-! ## the macros -/

/-- `NLMSG_ALIGN` and `RTA_ALIGN` of an unsigned value of 32 bits -/
def align4 (n : ℕ) : ℕ := (n + 3) % 2 ^ 32 / 4 * 4

/-- 32 bits as an `int` -/
def asInt (x : ℕ) : ℤ := if x < 2 ^ 31 then x else (x : ℤ) - 2 ^ 32

/-- `NLMSG_PAYLOAD`, assigned to an `int`; `space` is the room of both headers -/
def nlmsgPayload (n space : ℕ) : ℤ := asInt ((n + 2 ^ 32 - space) % 2 ^ 32)

theorem align4_le {n : ℕ} (h : n < 2 ^ 31) : n ≤ align4 n := by
  unfold align4
  omega

theorem nlmsgPayload_eq {n space : ℕ} (hs : space ≤ 2 ^ 31) (hn : n < 2 ^ 31) :
    nlmsgPayload n space = (n : ℤ) - space := by
  unfold nlmsgPayload asInt
  by_cases h : space ≤ n
  · have e : (n + 2 ^ 32 - space) % 2 ^ 32 = n - space := by omega
    rw [e, if_pos (by omega)]
    omega
  · have e : (n + 2 ^ 32 - space) % 2 ^ 32 = n + 2 ^ 32 - space := by omega
    rw [e, if_neg (by omega)]
    omega

def s32 (i : ℕ) : Reads ℤ := do
  let x ← u32 i
  pure (asInt x)

/-- the loop over the attributes; the body tells whether it leaves the loop -/
def rtaLoop {α : Type} (body : ℕ → α → Reads (Bool × α)) (mem : ℕ → UInt8) (rta : ℕ) (rtaLen : ℤ)
    (a : α) : α × List ℕ :=
  -- `RTA_OK`: the length is looked at only if there is room for a header
  if h : 4 ≤ rtaLen then
    if hn : 4 ≤ le16 mem rta ∧ (le16 mem rta : ℤ) ≤ rtaLen then
      let r := body rta a mem
      if r.1.1 then (r.1.2, [rta, rta + 1] ++ r.2)
      else
        let rest := rtaLoop body mem (rta + align4 (le16 mem rta)) (rtaLen - align4 (le16 mem rta)) r.1.2
        (rest.1, [rta, rta + 1] ++ r.2 ++ rest.2)
    else (a, [rta, rta + 1])
  else (a, [])
termination_by rtaLen.toNat
decreasing_by
  have hlt := le16_lt mem rta
  unfold align4
  omega

/-- the same as a part of a body -/
def attrs {α : Type} (body : ℕ → α → Reads (Bool × α)) (rta : ℕ) (rtaLen : ℤ) (a : α) : Reads α :=
  fun mem => rtaLoop body mem rta rtaLen a

@[simp] theorem val_attrs {α : Type} (body : ℕ → α → Reads (Bool × α)) (rta : ℕ) (rtaLen : ℤ) (a : α)
    (mem : ℕ → UInt8) : (attrs body rta rtaLen a).val mem = (rtaLoop body mem rta rtaLen a).1 := rfl

/-- the loop over the messages of a buffer; `len` is what `(size_t)` makes of the rest -/
def nlmsgLoop {σ : Type} (body : ℕ → ℕ → σ → Reads (Bool × σ)) (mem : ℕ → UInt8) :
    ℕ → ℕ → BitVec 64 → σ → Option (σ × List ℕ)
  | 0, _, _, _ => none
  | fuel + 1, nlh, len, s =>
    -- `NLMSG_OK`
    if len.toNat < 16 then some (s, [])
    else if ¬ (16 ≤ le32 mem nlh ∧ le32 mem nlh ≤ len.toNat) then
      some (s, [nlh, nlh + 1, nlh + 2, nlh + 3])
    else
      let r := body nlh (le32 mem nlh) s mem
      let read := [nlh, nlh + 1, nlh + 2, nlh + 3] ++ r.2
      if r.1.1 then some (r.1.2, read)
      else
        -- `NLMSG_NEXT`
        let step := align4 (le32 mem nlh)
        (nlmsgLoop body mem fuel (nlh + step) (len - BitVec.ofNat 64 step) r.1.2).map
          fun rest => (rest.1, read ++ rest.2)

/-! ## one turn of the loops -/

/-- the room for an attribute, as `RTA_OK` tells it -/
def RtaOk (mem : ℕ → UInt8) (rta : ℕ) (rtaLen : ℤ) : Prop :=
  4 ≤ rtaLen ∧ 4 ≤ le16 mem rta ∧ (le16 mem rta : ℤ) ≤ rtaLen

section
variable {α : Type} {mem : ℕ → UInt8} {rta : ℕ} {rtaLen : ℤ}

theorem rtaLoop_end (body : ℕ → α → Reads (Bool × α)) (h : ¬ RtaOk mem rta rtaLen) (a : α) :
    (rtaLoop body mem rta rtaLen a).1 = a := by
  rw [rtaLoop]
  split_ifs with h4 hn
  · exact absurd ⟨h4, hn⟩ h
  · rfl
  · rfl

theorem attrs_turn (body : ℕ → α → Reads (Bool × α)) (h : RtaOk mem rta rtaLen) (a : α) :
    attrs body rta rtaLen a mem =
      if ((body rta a).val mem).1 = true then
        (((body rta a).val mem).2, [rta, rta + 1] ++ (body rta a).touched mem)
      else
        let rest := attrs body (rta + align4 (le16 mem rta)) (rtaLen - align4 (le16 mem rta))
          ((body rta a).val mem).2
        (rest.val mem, [rta, rta + 1] ++ (body rta a).touched mem ++ rest.touched mem) := by
  unfold attrs
  rw [rtaLoop, dif_pos h.1, dif_pos h.2]
  rfl

end

/-- a message with a header, and not longer than the rest of the buffer -/
def HeaderOk (mem : ℕ → UInt8) (len nlh : ℕ) : Prop :=
  nlh + 16 ≤ len ∧ 16 ≤ le32 mem nlh ∧ nlh + le32 mem nlh ≤ len

section
variable {σ : Type} {mem : ℕ → UInt8} {len : ℕ}

theorem toNat_rest {nlh : ℕ} (hl : len ≤ 8192) : (BitVec.ofNat 64 (len - nlh)).toNat = len - nlh := by
  rw [BitVec.toNat_ofNat]
  exact Nat.mod_eq_of_lt (by omega)

/-- one turn of the loop at a sound message -/
theorem nlmsgLoop_turn (body : ℕ → ℕ → σ → Reads (Bool × σ)) {nlh : ℕ} (hl : len ≤ 8192)
    (h : HeaderOk mem len nlh) (fuel : ℕ) (s : σ) :
    nlmsgLoop body mem (fuel + 1) nlh (BitVec.ofNat 64 (len - nlh)) s =
      if ((body nlh (le32 mem nlh) s).val mem).1 then
        some (((body nlh (le32 mem nlh) s).val mem).2,
          [nlh, nlh + 1, nlh + 2, nlh + 3] ++ (body nlh (le32 mem nlh) s).touched mem)
      else
        (nlmsgLoop body mem fuel (nlh + align4 (le32 mem nlh))
          (BitVec.ofNat 64 (len - nlh) - BitVec.ofNat 64 (align4 (le32 mem nlh)))
          ((body nlh (le32 mem nlh) s).val mem).2).map fun rest => (rest.1,
            [nlh, nlh + 1, nlh + 2, nlh + 3] ++ (body nlh (le32 mem nlh) s).touched mem ++ rest.2) := by
  obtain ⟨h16, hn, hfit⟩ := h
  rw [nlmsgLoop, toNat_rest hl, if_neg (by omega), if_neg (not_not.mpr ⟨hn, by omega⟩)]
  rfl

/-- the rest behind a message whose padding is inside -/
theorem rest_sub {nlh n : ℕ} (hl : len ≤ 8192) (h : nlh + n ≤ len) :
    BitVec.ofNat 64 (len - nlh) - BitVec.ofNat 64 n = BitVec.ofNat 64 (len - (nlh + n)) := by
  rw [← Nat.sub_sub]
  apply BitVec.eq_of_toNat_eq
  simp only [BitVec.toNat_sub, BitVec.toNat_ofNat]
  omega

end

/-! ## the constants of the headers -/

def afInet : ℕ := 2
def nlmsgError : ℕ := 2
def nlmsgDone : ℕ := 3
def rtmNewlink : ℕ := 16
def rtmDellink : ℕ := 17
def rtmNewaddr : ℕ := 20
def rtmNewroute : ℕ := 24
def rtmDelroute : ℕ := 25
def rtTableMain : ℕ := 254
def rtnUnicast : ℕ := 1
def rtScopeLink : ℕ := 253
def rtScopeHost : ℕ := 254
def rtaOif : ℕ := 4
def rtaGateway : ℕ := 5
def rtaPriority : ℕ := 6
def ifaAddress : ℕ := 1
def ifaLocal : ℕ := 2
def ifaBroadcast : ℕ := 4

/-- `ENODEV` -/
def errNodev : ℕ := 19

/-- `EAFNOSUPPORT` -/
def errAfnosupport : ℕ := 97

/-! ## routes -/

/-- what the kernel answers about an interface, and about a name -/
structure IfQueries where
  loopback : ℤ → Bool
  pointToPoint : ℤ → Bool
  /-- `if_indextoname` -/
  name : ℤ → Option String
  online : String → Bool

section
variable (q : IfQueries)

def netlinkIsLoopback (ifindex : ℤ) : Bool := if ifindex ≤ 0 then true else q.loopback ifindex

def netlinkIsPointtopoint (ifindex : ℤ) : Bool :=
  if ifindex ≤ 0 then true else q.pointToPoint ifindex

def isLinkOnline (ifname : String) : Bool := if ifname = "" then false else q.online ifname

/-- `netlink_route_info_t` -/
structure RouteInfo where
  ifindex : ℤ
  ifname : String
  gateway : InAddr
  metric : ℕ
  deriving DecidableEq

/-- the variables of the attribute loop -/
structure RouteAttrs where
  ifname : String := ""
  ifindex : ℤ := 0
  metric : ℕ := 0
  hasGateway : Bool := false
  skipInterface : Bool := false
  gateway : InAddr := 0
  deriving DecidableEq

/-- those of the message loops -/
structure RouteScan where
  bestMetric : ℕ
  found : Bool
  done : Bool
  info : RouteInfo

/-- `case RTA_OIF` -/
def RouteAttrs.oif (ifindex : ℤ) (a : RouteAttrs) : Bool × RouteAttrs :=
  let a := { a with ifindex := ifindex }
  if netlinkIsLoopback q ifindex || netlinkIsPointtopoint q ifindex then
    (true, { a with skipInterface := true })
  else (false, { a with ifname := (q.name ifindex).getD "" })

def routeAttr (rta : ℕ) (a : RouteAttrs) : Reads (Bool × RouteAttrs) := do
  let type ← u16 (rta + 2)
  if type = rtaOif then do
    let ifindex ← s32 (rta + 4)
    pure (a.oif q ifindex)
  else if type = rtaGateway then do
    let gateway ← u32 (rta + 4)
    pure (false, { a with gateway := BitVec.ofNat 32 gateway, hasGateway := true })
  else if type = rtaPriority then do
    let metric ← u32 (rta + 4)
    pure (false, { a with metric := metric })
  else pure (false, a)

/-- the tests of the `rtmsg` -/
def routeWanted (rt : ℕ) : Reads Bool := do
  let family ← u8 rt
  if family ≠ afInet then pure false
  else do
    let table ← u8 (rt + 4)
    if table ≠ rtTableMain then pure false
    else do
      let dstLen ← u8 (rt + 1)
      if dstLen ≠ 0 then pure false
      else do
        let type ← u8 (rt + 7)
        if type ≠ rtnUnicast then pure false
        else do
          let scope ← u8 (rt + 6)
          pure (decide (¬ (scope = rtScopeHost ∨ scope = rtScopeLink)))

/-- what is done with the attributes of a route -/
def RouteScan.take (s : RouteScan) (a : RouteAttrs) : RouteScan :=
  if a.skipInterface then s
  else if a.ifindex > 0 ∧ a.hasGateway = true ∧ a.metric ≤ s.bestMetric then
    if !isLinkOnline q a.ifname then s
    else { s with found := true, bestMetric := a.metric,
                  info := ⟨a.ifindex, a.ifname, a.gateway, a.metric⟩ }
  else s

/-- the body of the message loop of `get_netlink_route_info` -/
def routeMsg (nlh n : ℕ) (s : RouteScan) : Reads (Bool × RouteScan) := do
  let type ← u16 (nlh + 4)
  if type = nlmsgDone ∨ type = nlmsgError then pure (true, { s with done := true })
  else if type ≠ rtmNewroute then pure (false, s)
  else do
    let wanted ← routeWanted (nlh + 16)
    if !wanted then pure (false, s)
    else do
      let a ← attrs (routeAttr q) (nlh + 28) (nlmsgPayload n 28) {}
      pure (false, s.take q a)

/-- the answer of `recv` -/
inductive Recv where
  | failed (errno : ℕ)
  | got (mem : ℕ → UInt8) (len : ℕ)

/-- `while (!done)`; without another answer `recv` does not return -/
def routeRecvLoop (fuel : ℕ) : List Recv → RouteScan → Option (ℕ × RouteInfo)
  | [], _ => none
  | .failed errno :: _, s => some (errno, s.info)
  | .got mem len :: l, s =>
    match nlmsgLoop (routeMsg q) mem fuel 0 (BitVec.ofNat 64 len) s with
    | none => none
    | some (s, _) =>
      if s.done then some (if s.found then 0 else errNodev, s.info)
      else routeRecvLoop fuel l s

/-- `get_netlink_route_info`; `socket` and `send` are the `errno` of these calls, `0` for success -/
def getNetlinkRouteInfo (fuel af socket send : ℕ) (recvs : List Recv) (info : RouteInfo) :
    Option (ℕ × RouteInfo) :=
  if af ≠ afInet then some (errAfnosupport, info)
  else if socket ≠ 0 then some (socket, info)
  else if send ≠ 0 then some (send, info)
  else routeRecvLoop q fuel recvs ⟨4294967295, false, false, info⟩

end

/-! ## addresses -/

/-- the variables of the attribute loop -/
structure AddrAttrs where
  localIp : InAddr := 0
  bcastIp : InAddr := 0

/-- `netlink_addr_info_t`, and the flags of the message loops -/
structure AddrScan where
  ip : InAddr := 0
  ipStr : String := ""
  mask : InAddr := 0
  bcast : InAddr := 0
  prefixlen : ℕ := 0
  found : Bool := false
  done : Bool := false

def addrAttr (rta : ℕ) (a : AddrAttrs) : Reads (Bool × AddrAttrs) := do
  let type ← u16 (rta + 2)
  if type = ifaLocal then do
    let ip ← u32 (rta + 4)
    pure (false, { a with localIp := BitVec.ofNat 32 ip })
  else if type = ifaAddress then
    if a.localIp = 0 then do
      let ip ← u32 (rta + 4)
      pure (false, { a with localIp := BitVec.ofNat 32 ip })
    else pure (false, a)
  else if type = ifaBroadcast then do
    let ip ← u32 (rta + 4)
    pure (false, { a with bcastIp := BitVec.ofNat 32 ip })
  else pure (false, a)

/-- the address is found -/
def AddrScan.take (s : AddrScan) (a : AddrAttrs) (prefixlen : ℕ) : AddrScan :=
  let mask :=
    if 0 < prefixlen ∧ prefixlen ≤ 32 then htonl (prefixMask prefixlen)
    else if prefixlen = 0 then 0 else s.mask
  let bcast :=
    if a.bcastIp ≠ 0 then a.bcastIp else if mask ≠ 0 then a.localIp ||| ~~~mask else s.bcast
  { s with ip := a.localIp, ipStr := inetNtop a.localIp, mask := mask, bcast := bcast,
           prefixlen := prefixlen, found := true, done := true }

/-- the body of the message loop of `get_netlink_addr_info` -/
def addrMsg (ifindex : ℤ) (nlh n : ℕ) (s : AddrScan) : Reads (Bool × AddrScan) := do
  let type ← u16 (nlh + 4)
  if type = nlmsgDone ∨ type = nlmsgError then pure (true, { s with done := true })
  else if type ≠ rtmNewaddr then pure (false, s)
  else do
    let index ← u32 (nlh + 20)
    if (index : ℤ) ≠ ifindex % 2 ^ 32 then pure (false, s)
    else do
      let family ← u8 (nlh + 16)
      if family ≠ afInet then pure (false, s)
      else do
        let scope ← u8 (nlh + 19)
        if scope = rtScopeHost then pure (false, s)
        else do
          let a ← attrs addrAttr (nlh + 24) (nlmsgPayload n 24) {}
          if a.localIp ≠ 0 then do
            let prefixlen ← u8 (nlh + 17)
            pure (true, s.take a prefixlen)
          else pure (false, s)

/-! ## events -/

/-- `IFF_UP` and `IFF_RUNNING` are set -/
def upAndRunning (flags : ℕ) : Bool := flags.testBit 0 && flags.testBit 6

/-- the body of the message loop of `process_netlink_event`; the state is `wan_changed` -/
def eventMsg (wanIfindex : ℤ) (nlh _n : ℕ) (changed : Bool) : Reads (Bool × Bool) := do
  let type ← u16 (nlh + 4)
  if type = rtmNewroute ∨ type = rtmDelroute then do
    let family ← u8 (nlh + 16)
    if family ≠ afInet then pure (false, changed)
    else do
      let table ← u8 (nlh + 20)
      if table ≠ rtTableMain then pure (false, changed)
      else do
        let dstLen ← u8 (nlh + 17)
        pure (false, if dstLen = 0 then true else changed)
  else if type = rtmNewlink ∨ type = rtmDellink then do
    let index ← s32 (nlh + 20)
    if index = wanIfindex then do
      let flags ← u32 (nlh + 24)
      pure (false, if upAndRunning flags then changed else true)
    else pure (false, changed)
  else pure (false, changed)

end QuicVpn
