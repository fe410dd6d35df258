import QuicVpn.Common.Wan
import QuicVpn.Lib.History

/-!
# Watching the default route (`monitor_wan_changes`)

The monitor subscribes to the events of the kernel and asks again for the best route whenever an event
could have changed it.  The kernel changes its routes and interfaces at any time and appends its events
to the socket, one buffer for each `recv`; events for which the socket has no room are dropped, and a
`recv` fails instead.

* `processNetlinkEvent`, `Monitor.reevaluate`   the parts of the loop;
* `Watch.step`         the `recv` of the loop, its questions and its assignment, each a step of its own
                       next to the changes in the kernel;
* `EventMsg.triggers`  an event that makes the monitor ask again;
* `Watch.UpToDate`     with no such event in the socket, the monitor has the best route, or has it in
                       hand, or is about to ask for it;
* `monitor_upToDate_iff`   so it is exactly as long as no change of the best route goes without one.

One dump is answered from one state of the kernel, with what is asked about the interfaces in it; what
the kernel does before and behind it are steps of its own.
-/

set_option linter.unusedSectionVars false

namespace QuicVpn
open Conc Conc.Reads

/-! ## the functions -/

/-- `process_netlink_event` -/
def processNetlinkEvent (fuel : ℕ) (wanIfindex : ℤ) : Recv → Option Bool
  | .failed _ => some false
  | .got mem len =>
    (nlmsgLoop (eventMsg wanIfindex) mem fuel 0 (BitVec.ofNat 64 len) false).map Prod.fst

/-- the local variables of `monitor_wan_changes` -/
structure Monitor where
  route : RouteInfo
  addr : AddrScan
  link : LinkInfo

/-- the answers to the questions of one turn -/
structure Answers where
  route : Query
  addr : ℤ → Query
  link : ℤ → Query

def routeZero : RouteInfo := ⟨0, "", 0, 0⟩

/-- the address and the link of an interface, into cleared records -/
def Answers.interface (fuel : ℕ) (a : Answers) (route : RouteInfo) : Option Monitor :=
  (getNetlinkAddrInfo fuel afInet route.ifindex (a.addr route.ifindex).socket
      (a.addr route.ifindex).send (a.addr route.ifindex).recvs {}).bind fun addr =>
    (getNetlinkLinkInfo route.ifindex (a.link route.ifindex) {}).map fun link =>
      ⟨route, addr.2, link.2⟩

/-- the initial query of `monitor_wan_changes` -/
def Monitor.start (q : IfQueries) (fuel : ℕ) (a : Answers) : Option Monitor :=
  (getNetlinkRouteInfo q fuel afInet a.route.socket a.route.send a.route.recvs routeZero).bind fun r =>
    if r.1 = 0 then a.interface fuel r.2 else some ⟨r.2, {}, {}⟩

/-- the body of the loop, once an event has called for it -/
def Monitor.reevaluate (q : IfQueries) (fuel : ℕ) (a : Answers) (m : Monitor) : Option Monitor :=
  (getNetlinkRouteInfo q fuel afInet a.route.socket a.route.send a.route.recvs routeZero).bind fun r =>
    if r.1 = 0 then
      if r.2.ifindex ≠ m.route.ifindex ∨ r.2.gateway ≠ m.route.gateway then a.interface fuel r.2
      else some m
    else if m.route.ifindex ≠ 0 then some { m with route := routeZero }
    else some m

/-! ## events -/

/-- a message to the subscribers -/
inductive EventMsg where
  | route (family table dstLen : ℕ)
  | link (index : ℤ) (flags : ℕ)
  | other (type : ℕ) (h : type ≠ rtmNewroute ∧ type ≠ rtmDelroute ∧ type ≠ rtmNewlink ∧ type ≠ rtmDellink)

namespace EventMsg

def Lies (mem : ℕ → UInt8) (nlh : ℕ) : EventMsg → Prop
  | .route family table dstLen =>
    (le16 mem (nlh + 4) = rtmNewroute ∨ le16 mem (nlh + 4) = rtmDelroute) ∧
      (mem (nlh + 16)).toNat = family ∧ (mem (nlh + 20)).toNat = table ∧ (mem (nlh + 17)).toNat = dstLen
  | .link index flags =>
    (le16 mem (nlh + 4) = rtmNewlink ∨ le16 mem (nlh + 4) = rtmDellink) ∧
      asInt (le32 mem (nlh + 20)) = index ∧ le32 mem (nlh + 24) = flags
  | .other type _ => le16 mem (nlh + 4) = type

def form : MsgForm EventMsg where
  room := 16
  At := Lies
  sixteen_le := le_refl 16

/-- a default route has come or gone, or the interface of the current one is down -/
def triggers (wanIfindex : ℤ) : EventMsg → Bool
  | .route family table dstLen => decide (family = afInet ∧ table = rtTableMain ∧ dstLen = 0)
  | .link index flags => decide (index = wanIfindex) && !upAndRunning flags
  | .other _ _ => false

theorem eventMsg_val {mem : ℕ → UInt8} {wanIfindex : ℤ} {nlh n : ℕ} {m : EventMsg} (h : m.Lies mem nlh)
    (changed : Bool) :
    (eventMsg wanIfindex nlh n changed).val mem = (false, changed || m.triggers wanIfindex) := by
  unfold eventMsg
  rw [val_bind, val_u16]
  cases m with
  | route family table dstLen =>
    obtain ⟨ht, hf, htab, hd⟩ := h
    have e : triggers wanIfindex (.route family table dstLen) =
        decide (family = afInet ∧ table = rtTableMain ∧ dstLen = 0) := rfl
    rw [if_pos ht, val_bind, val_u8, hf, e]
    by_cases h1 : family = afInet
    · rw [if_neg (not_not.mpr h1), val_bind, val_u8, htab]
      by_cases h2 : table = rtTableMain
      · rw [if_neg (not_not.mpr h2), val_bind, val_u8, hd, val_pure]
        by_cases h3 : dstLen = 0
        · rw [if_pos h3, decide_eq_true ⟨h1, h2, h3⟩, Bool.or_true]
        · rw [if_neg h3, decide_eq_false fun hc => h3 hc.2.2, Bool.or_false]
      · rw [if_pos h2, decide_eq_false fun hc => h2 hc.2.1, Bool.or_false, val_pure]
    · rw [if_pos h1, decide_eq_false fun hc => h1 hc.1, Bool.or_false, val_pure]
  | link index flags =>
    obtain ⟨ht, hi, hfl⟩ := h
    have hnot : ¬ (le16 mem (nlh + 4) = rtmNewroute ∨ le16 mem (nlh + 4) = rtmDelroute) := by
      rcases ht with ht | ht <;> rw [ht] <;> decide
    rw [if_neg hnot, if_pos ht, val_bind]
    show (if asInt (le32 mem (nlh + 20)) = wanIfindex then _ else _ : Reads (Bool × Bool)).val mem = _
    have e : triggers wanIfindex (.link index flags) =
        (decide (index = wanIfindex) && !upAndRunning flags) := rfl
    rw [hi, e]
    by_cases h1 : index = wanIfindex
    · rw [if_pos h1, val_bind, val_u32, hfl, val_pure, decide_eq_true h1]
      cases upAndRunning flags with
      | true => rw [if_pos rfl, Bool.not_true, Bool.and_false, Bool.or_false]
      | false => rw [if_neg Bool.false_ne_true, Bool.not_false, Bool.and_true, Bool.or_true]
    · rw [if_neg h1, decide_eq_false h1, Bool.false_and, Bool.or_false, val_pure]
  | other type hne =>
    have ht : le16 mem (nlh + 4) = type := h
    rw [ht, if_neg (not_or.mpr ⟨hne.1, hne.2.1⟩), if_neg (not_or.mpr ⟨hne.2.2.1, hne.2.2.2⟩), val_pure]
    exact congrArg (Prod.mk false) (Bool.or_false _).symm

end EventMsg

/-- the messages of a buffer are folded -/
theorem processNetlinkEvent_packed {mem : ℕ → UInt8} {len : ℕ} {ms : List EventMsg} (hl : len ≤ 8192)
    (h : EventMsg.form.Packed mem len (fun nlh => nlh = len) 0 ms) {fuel : ℕ} (hf : ms.length < fuel)
    (wanIfindex : ℤ) :
    processNetlinkEvent fuel wanIfindex (.got mem len) = some (ms.any (EventMsg.triggers wanIfindex)) := by
  obtain ⟨k, hk⟩ := Nat.exists_eq_add_of_lt hf
  have hfold := scan_fold (g := fun (changed : Bool) m => (false, changed || m.triggers wanIfindex))
    (fun _ _ => rfl) ms false
  have hany : ∀ b, ms.foldl (fun changed m => changed || m.triggers wanIfindex) b =
      (b || ms.any (EventMsg.triggers wanIfindex)) := by
    clear hfold h hf hk
    induction ms with
    | nil => exact fun b => (Bool.or_false b).symm
    | cons m ms ih =>
      intro b
      rw [List.foldl_cons, ih, List.any_cons, Bool.or_assoc]
  have hdoes : EventMsg.form.Does mem (eventMsg wanIfindex)
      (fun (changed : Bool) m => (false, changed || m.triggers wanIfindex)) :=
    fun _ _ s hm _ => EventMsg.eventMsg_val hm s
  obtain ⟨nlh, -, rfl, e⟩ :=
    nlmsgLoop_passes hdoes hl h (Nat.zero_le _) (k + 1) (congrArg Prod.fst hfold)
  rw [hfold, hany, Bool.false_or, nlmsgLoop_atEnd, Nat.sub_zero, ← Nat.add_assoc, ← hk] at e
  exact e

/-! ## the monitor and the kernel -/

/-- the interface and the gateway of the best route -/
def bestRoute (q : IfQueries) (routes : List RouteMsg) : Option (ℤ × InAddr) :=
  let s := routes.foldl (RouteScan.consider q) ⟨4294967295, false, false, routeZero⟩
  if s.found then some (s.info.ifindex, s.info.gateway) else none

/-- what the monitor has -/
def Monitor.tracked (m : Monitor) : Option (ℤ × InAddr) :=
  if m.route.ifindex = 0 then none else some (m.route.ifindex, m.route.gateway)

/-- where `monitor_wan_changes` is -/
inductive WatchPoint where
  /-- the listener is open, and the initial query has not been made -/
  | starting
  /-- before or in `process_netlink_event` -/
  | listening
  /-- it has returned `true` -/
  | asking
  /-- the answers are there, and the tracked state has not been updated -/
  | asked (m : Monitor)

structure Watch where
  /-- what the kernel says about interfaces, and the routes of its main table -/
  queries : IfQueries
  routes : List RouteMsg
  /-- what is in the socket, one list for each `recv` -/
  pending : List (List EventMsg)
  /-- `current_route`, `current_addr` and `current_link` -/
  monitor : Monitor
  point : WatchPoint

inductive WatchAct where
  /-- the kernel changes, and these of its events get into the socket, as one buffer -/
  | change (queries : IfQueries) (routes : List RouteMsg) (events : List EventMsg)
  /-- the monitor gets the first buffer -/
  | recv (fuel : ℕ) (mem : ℕ → UInt8) (len : ℕ)
  /-- `recv` fails -/
  | failed (fuel errno : ℕ)
  /-- the monitor asks, and gets these answers -/
  | query (fuel : ℕ) (answers : Answers)
  /-- and takes them over -/
  | assign

namespace Watch

/-- what `process_netlink_event` has returned decides whether the monitor asks -/
def heard (s : Watch) (changed : Bool) : Watch :=
  if changed then { s with point := .asking } else s

def step (s : Watch) : WatchAct → Option Watch
  | .change queries routes events =>
    some { s with queries := queries, routes := routes, pending := s.pending ++ [events] }
  | .recv fuel mem len =>
    match s.point, s.pending with
    | .listening, _ :: rest =>
      (processNetlinkEvent fuel s.monitor.route.ifindex (.got mem len)).map
        ({ s with pending := rest } : Watch).heard
    | _, _ => none
  | .failed fuel errno =>
    match s.point with
    | .listening => (processNetlinkEvent fuel s.monitor.route.ifindex (.failed errno)).map s.heard
    | _ => none
  | .query fuel answers =>
    match s.point with
    | .starting => (Monitor.start s.queries fuel answers).map fun m => { s with point := .asked m }
    | .asking =>
      (s.monitor.reevaluate s.queries fuel answers).map fun m => { s with point := .asked m }
    | _ => none
  | .assign =>
    match s.point with
    | .asked m => some { s with monitor := m, point := .listening }
    | _ => none

/-- what the monitor will have at its next `recv`, unless it asks before it -/
def next (s : Watch) : Option Monitor :=
  match s.point with
  | .starting | .asking => none
  | .listening => some s.monitor
  | .asked m => some m

/-- some event in the socket will make the monitor ask again, when it has `m` -/
def Waiting (s : Watch) (m : Monitor) : Prop :=
  ∃ e ∈ s.pending.flatten, e.triggers m.route.ifindex = true

def UpToDate (s : Watch) : Prop :=
  ∀ m, s.next = some m → ¬ s.Waiting m → m.tracked = bestRoute s.queries s.routes

/-- the kernel answers: the buffer holds the events, and the routes come as a dump -/
def Answered (s : Watch) : WatchAct → Prop
  | .recv fuel mem len =>
    ∀ events rest, s.pending = events :: rest → len ≤ 8192 ∧ events.length < fuel ∧
      EventMsg.form.Packed mem len (fun nlh => nlh = len) 0 events
  | .query fuel answers =>
    (answers.route.socket = 0 ∧ answers.route.send = 0) ∧
      RouteStream answers.route.recvs s.routes ∧ s.routes.length < fuel
  | _ => True

/-- a change of the best route is announced, unless the monitor has yet to ask for it -/
def Announced (s : Watch) : WatchAct → Prop
  | .change queries routes events =>
    ∀ m, s.next = some m → bestRoute s.queries s.routes = bestRoute queries routes ∨
      ∃ e ∈ s.pending.flatten ++ events, e.triggers m.route.ifindex = true
  | _ => True

end Watch

/-- the best route is the chosen one -/
theorem bestRoute_of_chosen {q : IfQueries} {routes : List RouteMsg} {i : RouteInfo}
    (h : Chosen q routes i) : bestRoute q routes = some (i.ifindex, i.gateway) := by
  unfold bestRoute
  rcases foldl_consider (q := q) routes routeZero with ⟨-, hno⟩ | ⟨hfound, -, hch⟩
  · obtain ⟨pre, m, post, rfl, hm, -⟩ := h
    exact absurd hm (hno m (by simp) i)
  · dsimp only
    rw [if_pos hfound, hch.unique h]

theorem bestRoute_of_not {q : IfQueries} {routes : List RouteMsg} (h : ∀ i, ¬ Chosen q routes i) :
    bestRoute q routes = none := by
  unfold bestRoute
  rcases foldl_consider (q := q) routes routeZero with ⟨hs, -⟩ | ⟨-, -, hch⟩
  · dsimp only
    rw [hs]
    rfl
  · exact absurd hch (h _)

section
variable {q : IfQueries} {fuel : ℕ} {a : Answers} {m m' : Monitor} {routes : List RouteMsg}

theorem Answers.interface_route {route : RouteInfo} (h : a.interface fuel route = some m) :
    m.route = route := by
  obtain ⟨addr, -, h⟩ := Option.bind_eq_some_iff.mp h
  obtain ⟨link, -, rfl⟩ := Option.map_eq_some_iff.mp h
  rfl

/-- the initial query -/
theorem Monitor.start_tracked (ha : a.route.socket = 0 ∧ a.route.send = 0)
    (hs : RouteStream a.route.recvs routes) (hf : routes.length < fuel)
    (h : Monitor.start q fuel a = some m) : m.tracked = bestRoute q routes := by
  obtain ⟨code, route, hrun, hcase⟩ := getNetlinkRouteInfo_cases q ha hs routeZero
  unfold Monitor.start at h
  rw [hrun fuel hf, Option.bind_some] at h
  dsimp only at h
  unfold Monitor.tracked
  rcases hcase with ⟨rfl, hch⟩ | ⟨hne, rfl, hno⟩
  · rw [if_pos rfl] at h
    rw [Answers.interface_route h, if_neg hch.ifindex_pos.ne', bestRoute_of_chosen hch]
  · rw [if_neg hne] at h
    rw [← Option.some.inj h, bestRoute_of_not hno]
    rfl

/-- asking again -/
theorem Monitor.reevaluate_tracked (ha : a.route.socket = 0 ∧ a.route.send = 0)
    (hs : RouteStream a.route.recvs routes) (hf : routes.length < fuel)
    (h : m.reevaluate q fuel a = some m') : m'.tracked = bestRoute q routes := by
  obtain ⟨code, route, hrun, hcase⟩ := getNetlinkRouteInfo_cases q ha hs routeZero
  unfold Monitor.reevaluate at h
  rw [hrun fuel hf, Option.bind_some] at h
  dsimp only at h
  unfold Monitor.tracked
  rcases hcase with ⟨rfl, hch⟩ | ⟨hne, rfl, hno⟩
  · rw [if_pos rfl] at h
    rw [bestRoute_of_chosen hch]
    by_cases hsame : route.ifindex ≠ m.route.ifindex ∨ route.gateway ≠ m.route.gateway
    · rw [if_pos hsame] at h
      rw [Answers.interface_route h, if_neg hch.ifindex_pos.ne']
    · rw [if_neg hsame] at h
      rw [not_or, not_not, not_not] at hsame
      rw [← Option.some.inj h, ← hsame.1, ← hsame.2, if_neg hch.ifindex_pos.ne']
  · rw [if_neg hne] at h
    rw [bestRoute_of_not hno]
    by_cases h0 : m.route.ifindex = 0
    · rw [if_neg (not_not.mpr h0)] at h
      rw [← Option.some.inj h, if_pos h0]
    · rw [if_pos h0] at h
      rw [← Option.some.inj h]
      rfl

end

namespace Watch

section
variable {s s' : Watch} {a : WatchAct} {m : Monitor}

theorem change_waiting {queries : IfQueries} {routes : List RouteMsg} {events : List EventMsg} :
    Waiting { s with queries := queries, routes := routes, pending := s.pending ++ [events] } m ↔
      ∃ e ∈ s.pending.flatten ++ events, e.triggers m.route.ifindex = true := by
  unfold Waiting
  rw [List.flatten_append, List.flatten_singleton]

/-- a `recv` that calls for nothing leaves the monitor as it was -/
theorem recv_upToDate {fuel len : ℕ} {mem : ℕ → UInt8} (hi : s.UpToDate)
    (hd : s.Answered (.recv fuel mem len)) (hs : s.step (.recv fuel mem len) = some s') :
    s'.UpToDate := by
  cases hpt : s.point with
  | listening =>
    cases hp : s.pending with
    | nil =>
      rw [step, hpt, hp] at hs
      exact absurd hs (Option.some_ne_none s').symm
    | cons events rest =>
      obtain ⟨hl, hfe, hpk⟩ := hd events rest hp
      rw [step, hpt, hp] at hs
      obtain ⟨changed, hc, rfl⟩ := Option.map_eq_some_iff.mp hs
      rw [processNetlinkEvent_packed hl hpk hfe] at hc
      cases hc
      intro m hm hw
      by_cases ht : events.any (EventMsg.triggers s.monitor.route.ifindex) = true
      · rw [heard, if_pos ht] at hm
        exact absurd hm (Option.some_ne_none m).symm
      · rw [heard, if_neg ht] at hm hw ⊢
        obtain rfl : s.monitor = m := Option.some.inj hm
        refine hi s.monitor (by rw [next, hpt]) ?_
        rintro ⟨e, he, htr⟩
        rw [hp, List.flatten_cons, List.mem_append] at he
        rcases he with he | he
        · exact ht (List.any_eq_true.mpr ⟨e, he, htr⟩)
        · exact hw ⟨e, he, htr⟩
  | starting | asking | asked m =>
    rw [step, hpt] at hs
    exact absurd hs (Option.some_ne_none s').symm

/-- what has been asked for is the best route of the kernel at that time -/
theorem query_upToDate {fuel : ℕ} {answers : Answers} (hd : s.Answered (.query fuel answers))
    (hs : s.step (.query fuel answers) = some s') : s'.UpToDate := by
  obtain ⟨hq, hr, hf⟩ := hd
  cases hpt : s.point with
  | starting =>
    rw [step, hpt] at hs
    obtain ⟨m, hm, rfl⟩ := Option.map_eq_some_iff.mp hs
    intro m' hm' _
    obtain rfl : m = m' := Option.some.inj hm'
    exact Monitor.start_tracked hq hr hf hm
  | asking =>
    rw [step, hpt] at hs
    obtain ⟨m, hm, rfl⟩ := Option.map_eq_some_iff.mp hs
    intro m' hm' _
    obtain rfl : m = m' := Option.some.inj hm'
    exact Monitor.reevaluate_tracked hq hr hf hm
  | listening | asked m =>
    rw [step, hpt] at hs
    exact absurd hs (Option.some_ne_none s').symm

/-- what is in hand stays so when it is taken over -/
theorem assign_upToDate (hi : s.UpToDate) (hs : s.step .assign = some s') : s'.UpToDate := by
  cases hpt : s.point with
  | asked m =>
    rw [step, hpt] at hs
    cases hs
    intro m' hm' hw
    obtain rfl : m = m' := Option.some.inj hm'
    exact hi m (by rw [next, hpt]) hw
  | starting | listening | asking =>
    rw [step, hpt] at hs
    exact absurd hs (Option.some_ne_none s').symm

theorem step_upToDate (hi : s.UpToDate) (hd : s.Answered a) (hc : s.Announced a)
    (hs : s.step a = some s') : s'.UpToDate := by
  cases a with
  | change queries routes events =>
    cases hs
    intro m hm hw
    rw [change_waiting] at hw
    have hold : ¬ s.Waiting m := fun ⟨e, he, ht⟩ => hw ⟨e, List.mem_append_left _ he, ht⟩
    exact (hi m hm hold).trans ((hc m hm).resolve_right hw)
  | recv fuel mem len => exact recv_upToDate hi hd hs
  | failed fuel errno =>
    cases hpt : s.point with
    | listening =>
      rw [step, hpt] at hs
      cases hs
      exact hi
    | starting | asking | asked m =>
      rw [step, hpt] at hs
      exact absurd hs (Option.some_ne_none s').symm
  | query fuel answers => exact query_upToDate hd hs
  | assign => exact assign_upToDate hi hs

theorem step_stale (hi : s.UpToDate) (hc : ¬ s.Announced a) (hs : s.step a = some s') :
    ¬ s'.UpToDate := by
  cases a with
  | change queries routes events =>
    cases hs
    obtain ⟨m, hm⟩ := not_forall.mp hc
    obtain ⟨hm, hno⟩ := Classical.not_imp.mp hm
    obtain ⟨hbest, hno⟩ := not_or.mp hno
    have hold : ¬ s.Waiting m := fun ⟨e, he, ht⟩ => hno ⟨e, List.mem_append_left _ he, ht⟩
    intro hu
    exact hbest ((hi m hm hold).symm.trans (hu m hm (change_waiting.not.mpr hno)))
  | recv fuel mem len => exact absurd trivial hc
  | failed fuel errno => exact absurd trivial hc
  | query fuel answers => exact absurd trivial hc
  | assign => exact absurd trivial hc

end

end Watch

/-- **The monitor follows the kernel.**  From the opening of its socket on and along any run in which the
kernel answers what it is asked, the monitor has the best route, has it in hand or is about to ask for
it, whenever no event is in the socket that would make it ask again; and this holds in all states of the
run if and only if no change of the best route comes without such an event, unless the monitor has yet
to ask. -/
theorem monitor_upToDate_iff {s u : Watch} (h0 : s.point = .starting) {l : List WatchAct}
    (h : exec Watch.step s l = some u) (hd : Along Watch.step Watch.Answered s l) :
    Always Watch.step Watch.UpToDate s l ↔ Along Watch.step Watch.Announced s l := by
  have hs : s.UpToDate := by
    intro m hm
    rw [Watch.next, h0] at hm
    exact absurd hm (Option.some_ne_none m).symm
  exact always_iff_along_given (fun _ hi => hi) (fun _ _ _ => Watch.step_upToDate)
    (fun _ _ _ hi _ => Watch.step_stale hi) hs h hd

/-- a dump without routes -/
def emptyAnswers : Answers where
  route := ⟨0, 0, [.got (fun i => [20, 0, 0, 0, 3, 0].getD i 0) 20]⟩
  addr := fun _ => ⟨0, 0, []⟩
  link := fun _ => ⟨0, 0, []⟩

/-- the monitor of a host without a default route, before its initial query -/
def lonelyWatch : Watch := ⟨homeQueries, [], [], ⟨routeZero, {}, {}⟩, .starting⟩

/-- with its answer in hand -/
def lonelyAsked : Watch := { lonelyWatch with point := .asked lonelyWatch.monitor }

/-- a default route comes up between the answer to the initial query and its assignment -/
def comesUp (events : List EventMsg) : List WatchAct :=
  [.query 1 emptyAnswers, .change homeQueries [ethMsg] events, .assign]

/-- with its event in the socket the monitor is never behind; without, it is -/
theorem monitor_upToDate_iff_comesUp :
    Always Watch.step Watch.UpToDate lonelyWatch (comesUp [.route 2 254 0]) ∧
    ¬ Always Watch.step Watch.UpToDate lonelyWatch (comesUp []) := by
  have hr : RouteStream emptyAnswers.route.recvs [] :=
    .done (by decide) ⟨by decide, by decide, by decide⟩
  have hrun : ∀ events, exec Watch.step lonelyWatch (comesUp events) =
      some ⟨homeQueries, [ethMsg], [events], lonelyWatch.monitor, .listening⟩ := fun _ => rfl
  have hd : ∀ events, Along Watch.step Watch.Answered lonelyWatch (comesUp events) := fun _ =>
    ⟨⟨⟨rfl, rfl⟩, hr, Nat.zero_lt_one⟩, fun _ _ =>
      ⟨trivial, fun _ _ => ⟨trivial, fun _ _ => trivial⟩⟩⟩
  constructor
  · refine (monitor_upToDate_iff rfl (hrun _) (hd _)).mpr ⟨trivial, fun s hs => ⟨?_, ?_⟩⟩
    · intro m hm
      exact .inr ⟨_, List.mem_append_right _ (List.mem_singleton_self _), rfl⟩
    · exact fun _ _ => ⟨trivial, fun _ _ => trivial⟩
  · intro hall
    obtain ⟨hc, -⟩ := ((monitor_upToDate_iff rfl (hrun _) (hd _)).mp hall).2 lonelyAsked rfl
    rcases hc lonelyWatch.monitor rfl with h1 | ⟨e, hmem, -⟩
    · have hnone : bestRoute lonelyAsked.queries lonelyAsked.routes = none := rfl
      rw [hnone, bestRoute_of_chosen ethMsg_chosen] at h1
      exact absurd h1.symm (Option.some_ne_none _)
    · exact absurd hmem List.not_mem_nil

end QuicVpn
