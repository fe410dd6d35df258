import QuicVpn.Common.Basic
import QuicVpn.Lib.Exec
import Mathlib.Data.List.Count

/-!
# Who closes the connection

`MsQuicConnectionStart` opens the connection and closes it where a later call fails; the handler of
SHUTDOWN_COMPLETE closes it; `MsQuicShutdown` closes it where `MsQuic->ConnectionHandle` is set.
The engine's thread runs the first and the last, a worker of MsQuic the second.

MsQuic reports SHUTDOWN_COMPLETE once for a connection, at any moment or from inside the first
`ConnectionClose`, which returns when the handler is not running any more.

* `ClientConn.step`      the sections of the three functions, each access of the handle on its own;
* `ClientConn.Sound`     what holds in every run;
* `ClientConn.Single`    one call of `ConnectionClose` is made or due;
* `ClientConn.Doubled`   two are made or due;
* `ClientConn.Cleared`   the thread reads its argument of `ConnectionClose` only after the handler
                         has cleared it;
* `connection_closed_once_iff`   exactly then the handle is closed once.
-/

set_option linter.unusedSectionVars false

namespace QuicVpn
open Conc

/-- which function of the engine's thread closes -/
inductive Closer where
  | start
  | shutdown
  deriving DecidableEq, Repr

/-- where the engine's thread is: at the calls of `MsQuicConnectionStart`, in its wait, between the
two functions, at the test of `MsQuicShutdown`; then in either function before the read of
`MsQuic->ConnectionHandle`, before the call with the value read, in the call -/
inductive EnginePt (H : Type) where
  | connectionOpen
  | setLocalAddress
  | setRemoteAddress
  | connectionStart
  | waiting
  | returned (r : ℤ)
  | test
  | read (c : Closer)
  | call (c : Closer) (a : Option H)
  | closing (c : Closer)
  | done
  deriving DecidableEq, Repr

/-- where the handler of SHUTDOWN_COMPLETE is; assertions and `state_sync_set` are one section -/
inductive HandlerPt where
  | notYet
  | entered
  | asserted
  | cleared
  | finished
  deriving DecidableEq, Repr

def HandlerPt.running : HandlerPt → Bool
  | .entered | .asserted | .cleared => true
  | _ => false

/-- the handler has still to clear `MsQuic->ConnectionHandle` -/
def HandlerPt.before : HandlerPt → Bool
  | .cleared | .finished => false
  | _ => true

/-- the calls of `ConnectionClose` the handler has still to make -/
def HandlerPt.due : HandlerPt → ℕ
  | .finished => 0
  | _ => 1

/-- SHUTDOWN_COMPLETE is delivered unless it has been already -/
def HandlerPt.deliver : HandlerPt → HandlerPt
  | .notYet => .entered
  | p => p

/-- the engine's `MsQuic` context with the two threads; `conn` is the handle `ConnectionOpen`
returned, `closes` are the arguments of the calls of `ConnectionClose` -/
structure ClientConn (H : Type) where
  api : Bool
  handle : Option H
  main : EnginePt H
  handler : HandlerPt
  conn : Option H
  closes : List (Option H)
  deriving DecidableEq, Repr

/-- a call of the engine's thread with its outcome, the arrival of SHUTDOWN_COMPLETE, a section of
its handler -/
inductive CloseAct (H : Type) where
  | connectionOpen (r : Option H)
  | setParam (ok : Bool)
  | connectionStart (ok : Bool)
  | waited (ok : Bool)
  | shutdown
  | test
  | readHandle
  | connectionClose
  | closeReturn
  | shutdownComplete
  | checkHandle
  | clearHandle
  | closeParam
  deriving DecidableEq, Repr

section
variable {H : Type}

def ClientConn.step (s : ClientConn H) : CloseAct H → Option (ClientConn H)
  | .connectionOpen r =>
    match s.main with
    | .connectionOpen =>
      if s.api then
        match r with
        | none => some { s with main := .returned econnaborted }
        | some h => some { s with handle := some h, conn := some h, main := .setLocalAddress }
      else none
    | _ => none
  | .setParam ok =>
    match s.main with
    | .setLocalAddress => some { s with main := if ok then .setRemoteAddress else .read .start }
    | .setRemoteAddress => some { s with main := if ok then .connectionStart else .read .start }
    | _ => none
  | .connectionStart ok =>
    match s.main with
    | .connectionStart => some { s with main := if ok then .waiting else .read .start }
    | _ => none
  | .waited ok =>
    match s.main with
    | .waiting => some { s with main := .returned (if ok then 0 else etimedout) }
    | _ => none
  | .shutdown =>
    match s.main with
    -- also without a `MsQuicConnectionStart`, where an earlier part of `setup_msquic` has failed
    | .connectionOpen | .returned _ => some { s with main := .test }
    | _ => none
  | .test =>
    match s.main with
    | .test => some { s with
        main := if s.api = true ∧ s.handle.isSome = true then .read .shutdown else .done }
    | _ => none
  | .readHandle =>
    match s.main with
    | .read c => some { s with main := .call c s.handle }
    | _ => none
  | .connectionClose =>
    match s.main with
    | .call c a => some { s with
        closes := a :: s.closes, main := .closing c
        -- a close of the connection reports SHUTDOWN_COMPLETE, a close of NULL nothing
        handler := if a.isSome then s.handler.deliver else s.handler }
    | _ => none
  | .closeReturn =>
    match s.main with
    | .closing c =>
      if s.handler.running then none
      else match c with
        | .start => some { s with handle := none, main := .returned econnaborted }
        | .shutdown => some { s with main := .done }
    | _ => none
  | .shutdownComplete =>
    if s.conn.isSome = true ∧ s.handler = .notYet then some { s with handler := .entered } else none
  | .checkHandle =>
    match s.handler with
    -- `assert(MsQuic->ConnectionHandle)` ends the process where it fails
    | .entered => if s.handle.isSome then some { s with handler := .asserted } else none
    | _ => none
  | .clearHandle =>
    match s.handler with
    | .asserted => some { s with handle := none, handler := .cleared }
    | _ => none
  | .closeParam =>
    match s.handler with
    | .cleared => some { s with closes := s.conn :: s.closes, handler := .finished }
    | _ => none

/-- the zeroed context of `MsQuicCreate`, after `MsQuicRegister` has set `Api` or not -/
def ClientConn.init (api : Bool) : ClientConn H := ⟨api, none, .connectionOpen, .notYet, none, []⟩

/-! ## what a step can do -/

/-- the points before any `ConnectionClose` of this function, `ConnectionOpen` apart -/
def EnginePt.calm : EnginePt H → Bool
  | .setLocalAddress | .setRemoteAddress | .connectionStart | .waiting => true
  | .returned _ | .test | .read _ => true
  | _ => false

/-- the points at which `ConnectionOpen` has returned a handle -/
def EnginePt.opened : EnginePt H → Bool
  | .connectionOpen | .returned _ | .test | .done => false
  | _ => true

inductive ClientConn.Move (s : ClientConn H) : CloseAct H → ClientConn H → Prop where
  | openFailed (hm : s.main = .connectionOpen) :
    Move s (.connectionOpen none) { s with main := .returned econnaborted }
  | opened (h : H) (hm : s.main = .connectionOpen) (ha : s.api = true) :
    Move s (.connectionOpen (some h))
      { s with handle := some h, conn := some h, main := .setLocalAddress }
  | unopened (hm : s.main = .connectionOpen) : Move s .shutdown { s with main := .test }
  | go {a : CloseAct H} {p : EnginePt H} (ha : a ≠ .readHandle) (hm : s.main.calm = true)
      (hp : p.calm = true)
      (ho : p.opened = true → s.main.opened = true ∨ s.handle.isSome = true) :
    Move s a { s with main := p }
  | nothing (hm : s.main = .test) (hn : s.api = true → s.handle = none) :
    Move s .test { s with main := .done }
  | read (c : Closer) (hm : s.main = .read c) :
    Move s .readHandle { s with main := .call c s.handle }
  | call (c : Closer) (h : H) (hm : s.main = .call c (some h)) :
    Move s .connectionClose
      { s with closes := some h :: s.closes, main := .closing c, handler := s.handler.deliver }
  | callNull (c : Closer) (hm : s.main = .call c none) :
    Move s .connectionClose { s with closes := none :: s.closes, main := .closing c }
  | failed (hm : s.main = .closing .start) (hr : s.handler.running = false) :
    Move s .closeReturn { s with handle := none, main := .returned econnaborted }
  | ended (hm : s.main = .closing .shutdown) (hr : s.handler.running = false) :
    Move s .closeReturn { s with main := .done }
  | enter (hc : s.conn.isSome = true) (hh : s.handler = .notYet) :
    Move s .shutdownComplete { s with handler := .entered }
  | check (hh : s.handler = .entered) : Move s .checkHandle { s with handler := .asserted }
  | clear (hh : s.handler = .asserted) :
    Move s .clearHandle { s with handle := none, handler := .cleared }
  | close (hh : s.handler = .cleared) :
    Move s .closeParam { s with closes := s.conn :: s.closes, handler := .finished }

theorem ClientConn.step_move {s s' : ClientConn H} {a : CloseAct H} (hs : s.step a = some s') :
    s.Move a s' := by
  cases a with
  | connectionOpen r =>
    simp only [ClientConn.step] at hs
    split at hs
    case h_2 => exact absurd hs (Option.some_ne_none s').symm
    next hm =>
      split at hs
      case isFalse => exact absurd hs (Option.some_ne_none s').symm
      next ha =>
        cases r with
        | none => exact Option.some.inj hs ▸ .openFailed hm
        | some h => exact Option.some.inj hs ▸ .opened h hm ha
  | setParam ok =>
    simp only [ClientConn.step] at hs
    split at hs
    case h_3 => exact absurd hs (Option.some_ne_none s').symm
    all_goals
      next hm =>
        refine Option.some.inj hs ▸ .go nofun (by rw [hm]; rfl) ?_
          fun _ => Or.inl (by rw [hm]; rfl)
        cases ok <;> rfl
  | connectionStart ok =>
    simp only [ClientConn.step] at hs
    split at hs
    case h_2 => exact absurd hs (Option.some_ne_none s').symm
    next hm =>
      refine Option.some.inj hs ▸ .go nofun (by rw [hm]; rfl) ?_
        fun _ => Or.inl (by rw [hm]; rfl)
      cases ok <;> rfl
  | waited ok =>
    simp only [ClientConn.step] at hs
    split at hs
    case h_2 => exact absurd hs (Option.some_ne_none s').symm
    next hm =>
      exact Option.some.inj hs ▸ .go nofun (by rw [hm]; rfl) rfl
        fun ho => absurd ho Bool.false_ne_true
  | shutdown =>
    simp only [ClientConn.step] at hs
    split at hs
    case h_3 => exact absurd hs (Option.some_ne_none s').symm
    · next hm => exact Option.some.inj hs ▸ .unopened hm
    · next hm =>
      exact Option.some.inj hs ▸ .go nofun (by rw [hm]; rfl) rfl
        fun ho => absurd ho Bool.false_ne_true
  | test =>
    simp only [ClientConn.step] at hs
    split at hs
    case h_2 => exact absurd hs (Option.some_ne_none s').symm
    next hm =>
      by_cases hc : s.api = true ∧ s.handle.isSome = true
      · rw [if_pos hc] at hs
        exact Option.some.inj hs ▸ .go nofun (by rw [hm]; rfl) rfl fun _ => Or.inr hc.2
      · rw [if_neg hc] at hs
        refine Option.some.inj hs ▸ .nothing hm fun ha => ?_
        exact Option.not_isSome_iff_eq_none.mp fun hh => hc ⟨ha, hh⟩
  | readHandle =>
    simp only [ClientConn.step] at hs
    split at hs
    case h_2 => exact absurd hs (Option.some_ne_none s').symm
    next c hm => exact Option.some.inj hs ▸ .read c hm
  | connectionClose =>
    simp only [ClientConn.step] at hs
    split at hs
    case h_2 => exact absurd hs (Option.some_ne_none s').symm
    next c a hm =>
      cases a with
      | none => exact Option.some.inj hs ▸ .callNull c hm
      | some h => exact Option.some.inj hs ▸ .call c h hm
  | closeReturn =>
    simp only [ClientConn.step] at hs
    split at hs
    case h_2 => exact absurd hs (Option.some_ne_none s').symm
    next c hm =>
      split at hs
      case isTrue => exact absurd hs (Option.some_ne_none s').symm
      next hr =>
        have hr := Bool.not_eq_true _ ▸ hr
        cases c with
        | start => exact Option.some.inj hs ▸ .failed hm hr
        | shutdown => exact Option.some.inj hs ▸ .ended hm hr
  | shutdownComplete =>
    simp only [ClientConn.step] at hs
    split at hs
    case isFalse => exact absurd hs (Option.some_ne_none s').symm
    next hc => exact Option.some.inj hs ▸ .enter hc.1 hc.2
  | checkHandle =>
    simp only [ClientConn.step] at hs
    split at hs
    case h_2 => exact absurd hs (Option.some_ne_none s').symm
    next hh =>
      split at hs
      case isFalse => exact absurd hs (Option.some_ne_none s').symm
      exact Option.some.inj hs ▸ .check hh
  | clearHandle =>
    simp only [ClientConn.step] at hs
    split at hs
    case h_2 => exact absurd hs (Option.some_ne_none s').symm
    next hh => exact Option.some.inj hs ▸ .clear hh
  | closeParam =>
    simp only [ClientConn.step] at hs
    split at hs
    case h_2 => exact absurd hs (Option.some_ne_none s').symm
    next hh => exact Option.some.inj hs ▸ .close hh

/-! ## every run -/

/-- the points at which this function has closed, or found nothing to close -/
def EnginePt.past : EnginePt H → Bool
  | .closing _ | .done => true
  | _ => false

/-- what holds in every run, however the calls end and whenever SHUTDOWN_COMPLETE arrives -/
structure ClientConn.Sound (s : ClientConn H) : Prop where
  fresh : s.conn = none → s.handler = .notYet
  first : s.main = .connectionOpen → s.conn = none
  opened : s.main.opened = true → s.conn.isSome = true
  noApi : s.api = false → s.conn = none
  held : s.handler.before = true → s.handle = s.conn
  gone : s.handler.before = false → s.handle = none
  arg : ∀ c h, s.main = .call c (some h) → s.conn = some h
  null : ∀ c, s.main = .call c none → s.handler.before = false
  past : s.main.past = true → s.conn.isSome = true → s.handler ≠ .notYet

theorem ClientConn.init_sound (api : Bool) : (ClientConn.init api : ClientConn H).Sound where
  fresh _ := rfl
  first _ := rfl
  opened h := absurd h Bool.false_ne_true
  noApi _ := rfl
  held _ := rfl
  gone _ := rfl
  arg := nofun
  null := nofun
  past h := absurd h Bool.false_ne_true

variable {s s' : ClientConn H} {a : CloseAct H}

/-- a handle can only be that of the connection -/
theorem ClientConn.Sound.isSome (hi : s.Sound) (hh : s.handle.isSome = true) :
    s.conn.isSome = true := by
  by_contra hc
  have hn : s.conn = none := Option.not_isSome_iff_eq_none.mp hc
  have hb : s.handler.before = true := by
    rw [hi.fresh hn]
    rfl
  rw [hi.held hb] at hh
  exact hc hh

/-- where the handle is gone, the handler has been there -/
theorem ClientConn.Sound.cleared (hi : s.Sound) (hh : s.handle = none) (hc : s.conn.isSome = true) :
    s.handler.before = false := by
  by_contra hb
  rw [← hi.held (Bool.not_eq_false _ ▸ hb), hh] at hc
  exact Bool.false_ne_true hc

theorem HandlerPt.ne_notYet {p : HandlerPt} (hp : p.before = false) : p ≠ .notYet := by
  rintro rfl
  exact Bool.false_ne_true hp.symm

theorem HandlerPt.deliver_before (p : HandlerPt) : p.deliver.before = p.before := by
  cases p <;> rfl

theorem HandlerPt.deliver_ne (p : HandlerPt) : p.deliver ≠ .notYet := by
  cases p <;> exact HandlerPt.noConfusion

theorem HandlerPt.deliver_due (p : HandlerPt) : p.deliver.due = p.due := by
  cases p <;> rfl

/-- a handler that has begun and is not running is over -/
theorem HandlerPt.eq_finished {p : HandlerPt} (hn : p ≠ .notYet) (hr : p.running = false) :
    p = .finished := by
  cases p with
  | notYet => exact absurd rfl hn
  | finished => rfl
  | _ => exact absurd hr.symm Bool.false_ne_true

theorem EnginePt.calm_ne {p : EnginePt H} (hp : p.calm = true) :
    p ≠ .connectionOpen ∧ (∀ c a, p ≠ .call c a) ∧ p.past = false := by
  cases p with
  | connectionOpen => exact absurd hp Bool.false_ne_true
  | call => exact absurd hp Bool.false_ne_true
  | closing => exact absurd hp Bool.false_ne_true
  | done => exact absurd hp Bool.false_ne_true
  | _ => exact ⟨nofun, nofun, rfl⟩

theorem ClientConn.step_sound (hi : s.Sound) (hs : s.step a = some s') : s'.Sound := by
  have hm := ClientConn.step_move hs
  cases hm with
  | openFailed hm =>
    exact ⟨hi.fresh, nofun, nofun, hi.noApi, hi.held, hi.gone, nofun, nofun, nofun⟩
  | opened h hm ha =>
    have hn : s.handler.before = true := by
      rw [hi.fresh (hi.first hm)]
      rfl
    exact ⟨nofun, nofun, fun _ => rfl, fun h => absurd (h.symm.trans ha) Bool.false_ne_true,
      fun _ => rfl, fun hb => absurd (hb.symm.trans hn) Bool.false_ne_true, nofun, nofun, nofun⟩
  | unopened hm => exact ⟨hi.fresh, nofun, nofun, hi.noApi, hi.held, hi.gone, nofun, nofun, nofun⟩
  | @go _ p ha hm hp ho =>
    obtain ⟨hp1, hp2, hp3⟩ := EnginePt.calm_ne hp
    refine ⟨hi.fresh, fun h => absurd h hp1, fun h => ?_, hi.noApi, hi.held, hi.gone,
      fun c h hc => absurd hc (hp2 c _), fun c hc => absurd hc (hp2 c _),
      fun h => absurd (hp3.symm.trans h) Bool.false_ne_true⟩
    rcases ho h with h | h
    · exact hi.opened h
    · exact hi.isSome h
  | nothing hm hn =>
    refine ⟨hi.fresh, nofun, nofun, hi.noApi, hi.held, hi.gone, nofun, nofun, fun _ hc => ?_⟩
    have ha : s.api = true := by
      by_contra ha
      rw [hi.noApi (Bool.not_eq_true _ ▸ ha)] at hc
      exact Bool.false_ne_true hc
    exact HandlerPt.ne_notYet (hi.cleared (hn ha) hc)
  | read c hm =>
    have hc : s.conn.isSome = true := hi.opened (by rw [hm]; rfl)
    refine ⟨hi.fresh, nofun, fun _ => hc, hi.noApi, hi.held, hi.gone, fun c' h he => ?_,
      fun c' he => ?_, nofun⟩
    · have hh : s.handle = some h := (EnginePt.call.inj he).2
      by_cases hb : s.handler.before = true
      · exact (hi.held hb).symm.trans hh
      · exact absurd (hh.symm.trans (hi.gone (Bool.not_eq_true _ ▸ hb))) (Option.some_ne_none h)
    · exact hi.cleared (EnginePt.call.inj he).2 hc
  | call c h hm =>
    have hc : s.conn.isSome = true := hi.opened (by rw [hm]; rfl)
    exact ⟨fun hn => absurd hc (by rw [hn]; exact Bool.false_ne_true), nofun, fun _ => hc, hi.noApi,
      fun hb => hi.held (HandlerPt.deliver_before _ ▸ hb),
      fun hb => hi.gone (HandlerPt.deliver_before _ ▸ hb), nofun, nofun,
      fun _ _ => HandlerPt.deliver_ne _⟩
  | callNull c hm =>
    have hc : s.conn.isSome = true := hi.opened (by rw [hm]; rfl)
    exact ⟨hi.fresh, nofun, fun _ => hc, hi.noApi, hi.held, hi.gone, nofun, nofun,
      fun _ _ => HandlerPt.ne_notYet (hi.null c hm)⟩
  | failed hm hr =>
    have hc : s.conn.isSome = true := hi.opened (by rw [hm]; rfl)
    have hf : s.handler = .finished := HandlerPt.eq_finished (hi.past (by rw [hm]; rfl) hc) hr
    refine ⟨hi.fresh, nofun, nofun, hi.noApi, fun hb => ?_, fun _ => rfl, nofun, nofun, nofun⟩
    rw [hf] at hb
    exact absurd hb Bool.false_ne_true
  | ended hm hr =>
    exact ⟨hi.fresh, nofun, nofun, hi.noApi, hi.held, hi.gone, nofun, nofun,
      fun _ hc => hi.past (by rw [hm]; rfl) hc⟩
  | enter hc hh =>
    have hb : s.handler.before = true := by rw [hh]; rfl
    exact ⟨fun hn => absurd hc (by rw [hn]; exact Bool.false_ne_true), hi.first, hi.opened,
      hi.noApi, fun _ => hi.held hb, nofun, hi.arg,
      fun c he => absurd ((hi.null c he).symm.trans hb) Bool.false_ne_true,
      fun _ _ => HandlerPt.noConfusion⟩
  | check hh =>
    have hb : s.handler.before = true := by rw [hh]; rfl
    exact ⟨fun hn => HandlerPt.noConfusion (hh.symm.trans (hi.fresh hn)), hi.first, hi.opened,
      hi.noApi, fun _ => hi.held hb, nofun, hi.arg,
      fun c he => absurd ((hi.null c he).symm.trans hb) Bool.false_ne_true,
      fun _ _ => HandlerPt.noConfusion⟩
  | clear hh =>
    exact ⟨fun hn => HandlerPt.noConfusion (hh.symm.trans (hi.fresh hn)), hi.first, hi.opened,
      hi.noApi, nofun, fun _ => rfl, hi.arg, fun _ _ => rfl, fun _ _ => HandlerPt.noConfusion⟩
  | close hh =>
    have hb : s.handler.before = false := by rw [hh]; rfl
    exact ⟨fun hn => HandlerPt.noConfusion (hh.symm.trans (hi.fresh hn)), hi.first, hi.opened,
      hi.noApi, nofun, fun _ => hi.gone hb, hi.arg, fun _ _ => rfl,
      fun _ _ => HandlerPt.noConfusion⟩

/-- the assertion of the handler on `MsQuic->ConnectionHandle` never fails -/
theorem ClientConn.handler_assertion {api : Bool} {l : List (CloseAct H)} {u : ClientConn H}
    (h : exec ClientConn.step (ClientConn.init api) l = some u) (he : u.handler = .entered) :
    u.handle.isSome = true := by
  have hi : u.Sound :=
    exec_inv (fun _ _ _ hi hs => ClientConn.step_sound hi hs) (ClientConn.init_sound api) h
  have hc : u.conn ≠ none := fun hn => HandlerPt.noConfusion (he.symm.trans (hi.fresh hn))
  rw [hi.held (by rw [he]; rfl)]
  exact Option.isSome_iff_ne_none.mpr hc

/-! ## one close, or two -/

section
variable [DecidableEq H]

/-- the calls of `ConnectionClose` with `h` that were made, and that of the handler -/
def ClientConn.total (s : ClientConn H) (h : H) : ℕ := s.closes.count (some h) + s.handler.due

/-- one call is made or due, and the engine's thread has no handle in hand -/
structure ClientConn.Single (s : ClientConn H) : Prop where
  sound : s.Sound
  empty : ∀ c h, s.main ≠ .call c (some h)
  unclosed : s.conn = none → ∀ h, some h ∉ s.closes
  one : ∀ h, s.conn = some h → s.total h = 1

/-- the engine's thread has the handle in hand, or both have closed it or are about to -/
structure ClientConn.Doubled (s : ClientConn H) : Prop where
  sound : s.Sound
  two : ∃ h, s.conn = some h ∧ ((∃ c, s.main = .call c (some h)) ∧ 1 ≤ s.total h ∨
    s.handler ≠ .notYet ∧ 2 ≤ s.total h)

/-- the argument of `ConnectionClose` is read after the handler has cleared it -/
def ClientConn.Cleared (s : ClientConn H) (a : CloseAct H) : Prop :=
  a = .readHandle → s.handle = none

instance (s : ClientConn H) (a : CloseAct H) : Decidable (s.Cleared a) :=
  inferInstanceAs (Decidable (_ → _))

theorem ClientConn.init_single (api : Bool) : (ClientConn.init api : ClientConn H).Single :=
  ⟨ClientConn.init_sound api, nofun, fun _ _ => List.not_mem_nil, nofun⟩

theorem ClientConn.step_conn {h : H} (hi : s.Sound) (hc : s.conn = some h)
    (hs : s.step a = some s') : s'.conn = some h := by
  have hm := ClientConn.step_move hs
  cases hm with
  | opened h' hm ha => exact absurd (hc.symm.trans (hi.first hm)) (Option.some_ne_none h)
  | _ => exact hc

theorem ClientConn.step_ne_notYet (hn : s.handler ≠ .notYet) (hs : s.step a = some s') :
    s'.handler ≠ .notYet := by
  have hm := ClientConn.step_move hs
  cases hm with
  | call => exact HandlerPt.deliver_ne _
  | enter => exact HandlerPt.noConfusion
  | check => exact HandlerPt.noConfusion
  | clear => exact HandlerPt.noConfusion
  | close => exact HandlerPt.noConfusion
  | _ => exact hn

/-- the calls made and due change only where the thread closes the handle it has in hand -/
theorem ClientConn.step_total {h : H} (hi : s.Sound) (hc : s.conn = some h)
    (hs : s.step a = some s') :
    s'.total h = s.total h ∧ (∀ c, s.main = .call c (some h) → s'.main = s.main) ∨
      (∃ c, s.main = .call c (some h)) ∧ s'.handler ≠ .notYet ∧ s'.total h = s.total h + 1 := by
  have hm := ClientConn.step_move hs
  unfold ClientConn.total
  cases hm with
  | openFailed hm => exact Or.inl ⟨rfl, fun c he => nomatch hm.symm.trans he⟩
  | opened h' hm ha => exact absurd (hc.symm.trans (hi.first hm)) (Option.some_ne_none h)
  | unopened hm => exact Or.inl ⟨rfl, fun c he => nomatch hm.symm.trans he⟩
  | go ha hm hp ho => exact Or.inl ⟨rfl, fun c he => absurd he ((EnginePt.calm_ne hm).2.1 c _)⟩
  | nothing hm hn => exact Or.inl ⟨rfl, fun c he => nomatch hm.symm.trans he⟩
  | read c hm => exact Or.inl ⟨rfl, fun c he => nomatch hm.symm.trans he⟩
  | call c h' hm =>
    obtain rfl : h = h' := Option.some.inj (hc.symm.trans (hi.arg c h' hm))
    refine Or.inr ⟨⟨c, hm⟩, HandlerPt.deliver_ne _, ?_⟩
    simp only [List.count_cons_self, HandlerPt.deliver_due]
    omega
  | callNull c hm =>
    refine Or.inl ⟨?_, fun c' he => nomatch hm.symm.trans he⟩
    simp only [List.count_cons_of_ne (Option.some_ne_none h).symm]
  | failed hm hr => exact Or.inl ⟨rfl, fun c he => nomatch hm.symm.trans he⟩
  | ended hm hr => exact Or.inl ⟨rfl, fun c he => nomatch hm.symm.trans he⟩
  | enter hc hh => exact Or.inl ⟨by rw [hh]; rfl, fun _ _ => rfl⟩
  | check hh => exact Or.inl ⟨by rw [hh]; rfl, fun _ _ => rfl⟩
  | clear hh => exact Or.inl ⟨by rw [hh]; rfl, fun _ _ => rfl⟩
  | close hh =>
    -- the call that was due has been made
    refine Or.inl ⟨?_, fun _ _ => rfl⟩
    rw [hc, hh]
    simp only [List.count_cons_self, HandlerPt.due]

/-- while the thread reads only what the handler has cleared, one call is made or due -/
theorem ClientConn.step_single (hi : s.Single) (hC : s.Cleared a) (hs : s.step a = some s') :
    s'.Single := by
  have hone : ∀ h, s.conn = some h → s'.total h = 1 := by
    intro h hc
    rcases ClientConn.step_total hi.sound hc hs with ⟨ht, -⟩ | ⟨⟨c, hm⟩, -⟩
    · exact ht.trans (hi.one h hc)
    · exact absurd hm (hi.empty c h)
  have hsound := ClientConn.step_sound hi.sound hs
  have hm := ClientConn.step_move hs
  cases hm with
  | openFailed => exact ⟨hsound, nofun, hi.unclosed, hone⟩
  | opened h hm ha =>
    have hc : s.conn = none := hi.sound.first hm
    refine ⟨hsound, nofun, nofun, fun h' _ => ?_⟩
    show s.closes.count (some h') + s.handler.due = 1
    rw [List.count_eq_zero_of_not_mem (hi.unclosed hc h'), hi.sound.fresh hc]
    rfl
  | unopened => exact ⟨hsound, nofun, hi.unclosed, hone⟩
  | go ha hm hp ho => exact ⟨hsound, fun c h => (EnginePt.calm_ne hp).2.1 c _, hi.unclosed, hone⟩
  | nothing => exact ⟨hsound, nofun, hi.unclosed, hone⟩
  | read c hm =>
    refine ⟨hsound, fun c' h he => ?_, hi.unclosed, hone⟩
    have hh : s.handle = some h := (EnginePt.call.inj he).2
    exact Option.some_ne_none h (hh.symm.trans (hC rfl))
  | call c h hm => exact absurd hm (hi.empty c h)
  | callNull c hm =>
    have hc : s.conn.isSome = true := hi.sound.opened (by rw [hm]; rfl)
    exact ⟨hsound, nofun, fun hn => absurd hc (by simp [show s.conn = none from hn]), hone⟩
  | failed => exact ⟨hsound, nofun, hi.unclosed, hone⟩
  | ended => exact ⟨hsound, nofun, hi.unclosed, hone⟩
  | enter => exact ⟨hsound, hi.empty, hi.unclosed, hone⟩
  | check => exact ⟨hsound, hi.empty, hi.unclosed, hone⟩
  | clear => exact ⟨hsound, hi.empty, hi.unclosed, hone⟩
  | close hh =>
    exact ⟨hsound, hi.empty, fun hn => HandlerPt.noConfusion (hh.symm.trans (hi.sound.fresh hn)),
      hone⟩

/-- a handle that is read before it is cleared is closed twice -/
theorem ClientConn.uncleared_doubled (hi : s.Single) (hC : ¬ s.Cleared a)
    (hs : s.step a = some s') : s'.Doubled := by
  have hsound := ClientConn.step_sound hi.sound hs
  simp only [ClientConn.Cleared, not_forall] at hC
  obtain ⟨rfl, hh⟩ := hC
  obtain ⟨h, hh⟩ := Option.ne_none_iff_exists'.mp hh
  have hm := ClientConn.step_move hs
  cases hm with
  | go ha => exact absurd rfl ha
  | read c hm =>
    have hc : s.conn = some h := hsound.arg c h (congrArg (EnginePt.call c) hh)
    have hcall : EnginePt.call c s.handle = .call c (some h) := congrArg (EnginePt.call c) hh
    exact ⟨hsound, h, hc, Or.inl ⟨⟨c, hcall⟩, Nat.le_of_eq (hi.one h hc).symm⟩⟩

theorem ClientConn.step_doubled (hd : s.Doubled) (hs : s.step a = some s') : s'.Doubled := by
  obtain ⟨hi, h, hc, htwo⟩ := hd
  have hc' : s'.conn = some h := ClientConn.step_conn hi hc hs
  refine ⟨ClientConn.step_sound hi hs, h, hc', ?_⟩
  rcases htwo with ⟨⟨c, hm⟩, ht⟩ | ⟨hn, ht⟩
  · rcases ClientConn.step_total hi hc hs with ⟨he, hmain⟩ | ⟨-, hn, he⟩
    · exact Or.inl ⟨⟨c, (hmain c hm).trans hm⟩, by omega⟩
    · exact Or.inr ⟨hn, by omega⟩
  · have hn' := ClientConn.step_ne_notYet hn hs
    rcases ClientConn.step_total hi hc hs with ⟨he, -⟩ | ⟨-, -, he⟩
    · exact Or.inr ⟨hn', by omega⟩
    · exact Or.inr ⟨hn', by omega⟩

/-- every handle `ConnectionOpen` returned has been closed once -/
def ClientConn.ClosedOnce (s : ClientConn H) : Prop :=
  ∀ h, s.conn = some h → s.closes.count (some h) = 1

theorem ClientConn.Single.closedOnce (hi : s.Single) (hm : s.main = .done)
    (hr : s.handler.running = false) : s.ClosedOnce := by
  intro h hc
  have hn : s.handler ≠ .notYet := hi.sound.past (by rw [hm]; rfl) (by rw [hc]; rfl)
  have ht := hi.one h hc
  rw [ClientConn.total, HandlerPt.eq_finished hn hr] at ht
  exact ht

theorem ClientConn.Doubled.not_closedOnce (hd : s.Doubled) (hm : s.main = .done)
    (hr : s.handler.running = false) : ¬ s.ClosedOnce := by
  obtain ⟨-, h, hc, ⟨⟨c, hcall⟩, -⟩ | ⟨hn, ht⟩⟩ := hd
  · exact nomatch hm.symm.trans hcall
  · intro hone
    rw [ClientConn.total, hone h hc, HandlerPt.eq_finished hn hr] at ht
    exact absurd ht (by decide)

/-- **The connection's handle is closed once** in a run of `MsQuicConnectionStart`, `MsQuicShutdown`
and the handler of SHUTDOWN_COMPLETE, whichever calls fail and whenever the event arrives, exactly
when the engine's thread reads the argument of a `ConnectionClose` only after the handler has
cleared `MsQuic->ConnectionHandle`. -/
theorem connection_closed_once_iff {api : Bool} {l : List (CloseAct H)} {u : ClientConn H}
    (h : exec ClientConn.step (ClientConn.init api) l = some u) (hm : u.main = .done)
    (hr : u.handler.running = false) :
    u.ClosedOnce ↔ Along ClientConn.step ClientConn.Cleared (ClientConn.init api) l :=
  exec_iff_along (fun _ _ _ hi hC hs => ClientConn.step_single hi hC hs)
    (fun _ _ _ hi hC hs => ClientConn.uncleared_doubled hi hC hs)
    (fun _ _ _ hd hs => ClientConn.step_doubled hd hs) (ClientConn.init_single api) h
    (fun hi => hi.closedOnce hm hr) (fun hd => hd.not_closedOnce hm hr)

end

end

/-! ## runs -/

/-- `MsQuicConnectionStart` with success -/
def connectionStartCalls : List (CloseAct ℕ) :=
  [.connectionOpen (some 7), .setParam true, .setParam true, .connectionStart true, .waited true]

/-- the handler of SHUTDOWN_COMPLETE -/
def shutdownCompleteSections : List (CloseAct ℕ) := [.checkHandle, .clearHandle, .closeParam]

/-- the peer shuts the connection down before the client does: it is closed once -/
theorem connection_closed_once_by_peer : ∃ u, exec ClientConn.step (ClientConn.init true)
    (connectionStartCalls ++ .shutdownComplete :: shutdownCompleteSections ++ [.shutdown, .test]) =
      some u ∧ u.main = .done ∧ u.handler.running = false ∧ u.ClosedOnce := by
  have hrun : exec ClientConn.step (ClientConn.init true) (connectionStartCalls ++
      .shutdownComplete :: shutdownCompleteSections ++ [.shutdown, .test]) =
        some ⟨true, none, .done, .finished, some 7, [some 7]⟩ := rfl
  exact ⟨_, hrun, rfl, rfl, (connection_closed_once_iff hrun rfl rfl).mpr (by decide)⟩

/-- the client shuts the connection down: `MsQuicShutdown` and the handler it runs both close it -/
theorem connection_closed_twice_by_shutdown : ∃ u, exec ClientConn.step (ClientConn.init true)
    (connectionStartCalls ++ [.shutdown, .test, .readHandle, .connectionClose] ++
      shutdownCompleteSections ++ [.closeReturn]) = some u ∧
      u.main = .done ∧ u.handler.running = false ∧ u.closes.count (some 7) = 2 ∧ ¬ u.ClosedOnce :=
  ⟨⟨true, none, .done, .finished, some 7, [some 7, some 7]⟩, rfl, rfl, rfl, rfl,
    fun hone => absurd (hone 7 rfl) (by decide)⟩

end QuicVpn
