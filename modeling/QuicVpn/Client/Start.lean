import QuicVpn.Common.StateSync
import QuicVpn.Lib.Exec

/-!
# Starting the connection and the control stream

`setup_msquic` of the client runs `MsQuicConnectionStart` and then `MsQuicStreamStart`.  Both issue an
operation that MsQuic reports on from a thread of its own, write the intermediate state once the call
has returned, and wait for the callback to write the final one; the callbacks write on CONNECTED,
START_COMPLETE and the two SHUTDOWN_COMPLETEs.  The two are one protocol (`Channel`), at other state
variables and with other names for the three states.

* `Channel.step`      the sections of a start function and of the callback events;
* `Setup.step`        the two start functions, one after the other, with all the events;
* `Channel.Told`      the state variable tells what the events said, and no timeout is reported for
                      an operation that succeeded before the wait began;
* `told_iff`          this holds along a run exactly as long as the intermediate state is written
                      before the events, and no wait begins after both of them.
-/

set_option linter.unusedSectionVars false

namespace QuicVpn
open Conc

/-- `connection_state_t` -/
inductive ConnectionState where
  | sessionConnecting
  | sessionConnected
  | sessionDisconnected
  deriving DecidableEq, Repr

/-- `stream_state_t` -/
inductive StreamState where
  | streamOpening
  | streamOpen
  | streamClosed
  deriving DecidableEq, Repr

/-! ## one start function with its events -/

/-- the values a start function and the callback write to the state variable -/
structure Names (σ : Type) where
  busy : σ
  reached : σ
  lost : σ
  busy_ne_reached : busy ≠ reached
  busy_ne_lost : busy ≠ lost
  lost_ne_reached : lost ≠ reached

/-- where the start function is: before the call that starts the operation, in it, after it, after
the write of the intermediate state, asleep in its wait, or at its end -/
inductive Stage where
  | idle
  | calling
  | called
  | entering
  | asleep
  | returned (r : ℤ)
  deriving DecidableEq, Repr

/-- the events handled so far.  A success event can only follow `started`; after `refused`, when the
call or START_COMPLETE has reported a failure, there is only SHUTDOWN_COMPLETE, which is the last
one. -/
inductive Heard where
  | silent
  | started
  | up
  | refused
  | down (wasUp : Bool)
  deriving DecidableEq, Repr

/-- the success event has been handled -/
def Heard.succeeded : Heard → Bool
  | .up => true
  | .down wasUp => wasUp
  | _ => false

theorem Heard.succeeded_iff (h : Heard) : h.succeeded = true ↔ h = .up ∨ h = .down true := by
  cases h with
  | down wasUp => cases wasUp <;> decide
  | _ => decide

/-- the operation has been issued, and is not over -/
def Heard.live : Heard → Bool
  | .silent => false
  | .down _ => false
  | _ => true

/-- the state variable, the start function and the events; `early` notes whether the success event
had been handled when the wait began -/
structure Channel (σ : Type) where
  state : σ
  stage : Stage
  heard : Heard
  early : Bool
  deriving DecidableEq, Repr

inductive ChannelAct where
  | ret
  | set
  | enter (clock : Bool)
  | wake (rc : ℤ)
  | up
  | down
  deriving DecidableEq, Repr

section
variable {σ : Type} [DecidableEq σ] (n : Names σ)

/-- a start function reports every failure of its wait as a timeout -/
def afterWait : Option ℤ → Stage
  | none => .asleep
  | some r => .returned (if r ≠ 0 then etimedout else 0)

theorem afterWait_ne_idle (r : Option ℤ) : afterWait r ≠ .idle := by
  cases r with
  | none => exact Stage.noConfusion
  | some r => exact Stage.noConfusion

def Channel.step (c : Channel σ) : ChannelAct → Option (Channel σ)
  | .ret => if c.stage = .calling then some { c with stage := .called } else none
  | .set =>
    if c.stage = .called then
      some { c with state := (stateSyncSet c.state n.busy).1, stage := .entering }
    else none
  | .enter clock =>
    if c.stage = .entering then
      some { c with stage := afterWait (stateSyncWaitMsAbort c.state n.reached n.lost clock)
                    early := c.heard.succeeded }
    else none
  | .wake rc =>
    if c.stage = .asleep then
      some { c with stage := afterWait (stateSyncWaitMsAbortWake c.state n.reached n.lost rc) }
    else none
  | .up =>
    if c.heard = .started then
      some { c with state := (stateSyncSet c.state n.reached).1, heard := .up }
    else none
  | .down =>
    if c.heard.live then
      some { c with state := (stateSyncSet c.state n.lost).1, heard := .down c.heard.succeeded }
    else none

/-- the state variable tells what the events said: the success from its event to SHUTDOWN_COMPLETE,
and the loss from then on; and no timeout is reported for an early success -/
structure Channel.Told (c : Channel σ) : Prop where
  reached : c.heard = .up → c.state = n.reached
  lost : ∀ b, c.heard = .down b → c.state = n.lost
  noTimeout : c.early = true → c.stage ≠ .returned etimedout

/-- the intermediate state is not written after the success event or SHUTDOWN_COMPLETE, and the wait
does not begin after both of them -/
def Channel.Orderly (c : Channel σ) : ChannelAct → Prop
  | .set => c.heard ≠ .up ∧ ∀ b, c.heard ≠ .down b
  | .enter _ => c.heard ≠ .down true
  | _ => True

instance (c : Channel σ) : ∀ a, Decidable (c.Orderly a)
  | .set => inferInstanceAs (Decidable (c.heard ≠ .up ∧ ∀ b, c.heard ≠ .down b))
  | .enter _ => inferInstanceAs (Decidable (c.heard ≠ .down true))
  | .ret => inferInstanceAs (Decidable True)
  | .wake _ => inferInstanceAs (Decidable True)
  | .up => inferInstanceAs (Decidable True)
  | .down => inferInstanceAs (Decidable True)

/-- what an orderly run keeps: there are no events before the start function has issued the
operation, and an early success has made it return at once -/
structure Channel.Inv (c : Channel σ) : Prop where
  silent : c.stage = .idle → c.heard = .silent
  reached : c.heard = .up → c.state = n.reached
  lost : ∀ b, c.heard = .down b → c.state = n.lost
  early : c.early = true → c.stage = .returned 0

variable {n} {c c' : Channel σ}

theorem Channel.Inv.told (h : c.Inv n) : c.Told n where
  reached := h.reached
  lost := h.lost
  noTimeout he := by
    rw [h.early he]
    decide

/-- a start function that has not returned was not early -/
theorem Channel.Inv.not_early (h : c.Inv n) {g : Stage} (hs : c.stage = g) (hg : g ≠ .returned 0) :
    c.early ≠ true :=
  fun he => hg (hs.symm.trans (h.early he))

theorem Channel.set_inv (h : c.Inv n) (ho : c.Orderly .set) (hs : c.step n .set = some c') :
    c'.Inv n := by
  simp only [Channel.step, Option.ite_none_right_eq_some, Option.some.injEq] at hs
  obtain ⟨hst, rfl⟩ := hs
  exact ⟨fun e => (by cases e), fun e => absurd e ho.1, fun b e => absurd e (ho.2 b),
    fun e => absurd e (h.not_early hst Stage.noConfusion)⟩

theorem Channel.enter_inv {clock : Bool} (h : c.Inv n) (ho : c.Orderly (.enter clock))
    (hs : c.step n (.enter clock) = some c') : c'.Inv n := by
  simp only [Channel.step, Option.ite_none_right_eq_some, Option.some.injEq] at hs
  obtain ⟨-, rfl⟩ := hs
  refine ⟨fun e => absurd e (afterWait_ne_idle _), h.reached, h.lost, fun he => ?_⟩
  have hup : c.heard = .up := ((Heard.succeeded_iff _).mp he).resolve_right ho
  show afterWait (stateSyncWaitMsAbort c.state n.reached n.lost clock) = .returned 0
  rw [h.reached hup, stateSyncWaitMsAbort_target]
  rfl

/-- an orderly step keeps the invariant -/
theorem Channel.step_inv {a : ChannelAct} (h : c.Inv n) (ho : c.Orderly a)
    (hs : c.step n a = some c') : c'.Inv n := by
  cases a with
  | set => exact Channel.set_inv h ho hs
  | enter clock => exact Channel.enter_inv h ho hs
  | ret =>
    simp only [Channel.step, Option.ite_none_right_eq_some, Option.some.injEq] at hs
    obtain ⟨hst, rfl⟩ := hs
    exact ⟨fun e => (by cases e), h.reached, h.lost,
      fun e => absurd e (h.not_early hst Stage.noConfusion)⟩
  | wake rc =>
    simp only [Channel.step, Option.ite_none_right_eq_some, Option.some.injEq] at hs
    obtain ⟨hst, rfl⟩ := hs
    exact ⟨fun e => absurd e (afterWait_ne_idle _), h.reached, h.lost,
      fun e => absurd e (h.not_early hst Stage.noConfusion)⟩
  | up =>
    simp only [Channel.step, Option.ite_none_right_eq_some, Option.some.injEq] at hs
    obtain ⟨hst, rfl⟩ := hs
    exact ⟨fun e => absurd (hst.symm.trans (h.silent e)) Heard.noConfusion,
      fun _ => stateSyncSet_fst _ _, fun b e => (by cases e), h.early⟩
  | down =>
    simp only [Channel.step, Option.ite_none_right_eq_some, Option.some.injEq] at hs
    obtain ⟨hlive, rfl⟩ := hs
    refine ⟨fun e => ?_, fun e => (by cases e), fun _ _ => stateSyncSet_fst _ _, h.early⟩
    rw [h.silent e] at hlive
    cases hlive

/-- a step that is not orderly is seen at once -/
theorem Channel.step_bad {a : ChannelAct} (h : c.Inv n) (ho : ¬ c.Orderly a)
    (hs : c.step n a = some c') : ¬ c'.Told n := by
  intro ht
  cases a with
  | set =>
    simp only [Channel.step, Option.ite_none_right_eq_some, Option.some.injEq] at hs
    obtain ⟨-, rfl⟩ := hs
    have hbusy : (stateSyncSet c.state n.busy).1 = n.busy := stateSyncSet_fst _ _
    apply ho
    refine ⟨fun e => ?_, fun b e => ?_⟩
    · exact n.busy_ne_reached (hbusy.symm.trans (ht.reached e))
    · exact n.busy_ne_lost (hbusy.symm.trans (ht.lost b e))
  | enter clock =>
    simp only [Channel.step, Option.ite_none_right_eq_some, Option.some.injEq] at hs
    obtain ⟨-, rfl⟩ := hs
    apply ho
    intro e
    -- the wait finds the loss, and its failure is reported as a timeout
    apply ht.noTimeout ((Heard.succeeded_iff _).mpr (.inr e))
    show afterWait (stateSyncWaitMsAbort c.state n.reached n.lost clock) = .returned etimedout
    rw [h.lost true e, stateSyncWaitMsAbort_abort n.lost_ne_reached]
    rfl
  | ret => exact ho trivial
  | wake rc => exact ho trivial
  | up => exact ho trivial
  | down => exact ho trivial

end

/-! ## the two start functions -/

def connectionNames : Names ConnectionState where
  busy := .sessionConnecting
  reached := .sessionConnected
  lost := .sessionDisconnected
  busy_ne_reached := by decide
  busy_ne_lost := by decide
  lost_ne_reached := by decide

def streamNames : Names StreamState where
  busy := .streamOpening
  reached := .streamOpen
  lost := .streamClosed
  busy_ne_reached := by decide
  busy_ne_lost := by decide
  lost_ne_reached := by decide

/-- `con_state` and `stream_state` with the thread that runs `setup_msquic` -/
structure Setup where
  con : Channel ConnectionState
  stream : Channel StreamState
  deriving DecidableEq, Repr

/-- as `session_create` leaves them -/
def Setup.init : Setup where
  con := ⟨.sessionDisconnected, .idle, .silent, false⟩
  stream := ⟨.streamClosed, .idle, .silent, false⟩

/-- `connectionStart ok` and `streamStart ok` are the first part of the two functions, up to the call
that starts the operation, whose result will be `ok`; `startFailed` is a START_COMPLETE that reports
a failure -/
inductive SetupAct where
  | connectionStart (ok : Bool)
  | con (a : ChannelAct)
  | streamStart (ok : Bool)
  | stream (a : ChannelAct)
  | startFailed
  deriving DecidableEq, Repr

def Setup.step (s : Setup) : SetupAct → Option Setup
  | .connectionStart ok =>
    if s.con.stage = .idle then
      if ok then some { s with con := { s.con with stage := .calling, heard := .started } }
      else
        some { s with con := { s.con with stage := .returned econnaborted, heard := .refused } }
    else none
  | .con a => (s.con.step connectionNames a).map fun c => { s with con := c }
  | .streamStart ok =>
    -- `setup_msquic` only goes on after a success of `MsQuicConnectionStart`
    if s.con.stage = .returned 0 ∧ s.stream.stage = .idle then
      if s.con.state = .sessionConnected then
        if ok then some { s with stream := { s.stream with stage := .calling, heard := .started } }
        else
          some { s with stream := { s.stream with
            state := (stateSyncSet s.stream.state .streamClosed).1
            stage := .returned econnaborted, heard := .refused } }
      else some { s with stream := { s.stream with stage := .returned econnaborted } }
    else none
  | .stream a => (s.stream.step streamNames a).map fun c => { s with stream := c }
  | .startFailed =>
    if s.stream.heard = .started then
      some { s with stream := { s.stream with
        state := (stateSyncSet s.stream.state .streamClosed).1, heard := .refused } }
    else none

def Setup.Told (s : Setup) : Prop := s.con.Told connectionNames ∧ s.stream.Told streamNames

def Setup.Orderly (s : Setup) : SetupAct → Prop
  | .con a => s.con.Orderly a
  | .stream a => s.stream.Orderly a
  | _ => True

instance (s : Setup) : ∀ a, Decidable (s.Orderly a)
  | .con a => inferInstanceAs (Decidable (s.con.Orderly a))
  | .stream a => inferInstanceAs (Decidable (s.stream.Orderly a))
  | .connectionStart _ => inferInstanceAs (Decidable True)
  | .streamStart _ => inferInstanceAs (Decidable True)
  | .startFailed => inferInstanceAs (Decidable True)

def Setup.Inv (s : Setup) : Prop := s.con.Inv connectionNames ∧ s.stream.Inv streamNames

theorem Setup.init_inv : Setup.init.Inv := by
  refine ⟨⟨fun _ => rfl, fun e => ?_, fun b e => ?_, fun e => ?_⟩,
    ⟨fun _ => rfl, fun e => ?_, fun b e => ?_, fun e => ?_⟩⟩
  all_goals cases e

section
variable {σ : Type} [DecidableEq σ] {n : Names σ} {c : Channel σ}

/-- a start function leaves `idle` before any event -/
theorem Channel.Inv.leave_idle (h : c.Inv n) (hs : c.stage = .idle) {state : σ} {stage : Stage}
    {heard : Heard} (hst : stage ≠ .idle) (hup : heard ≠ .up) (hdown : ∀ b, heard ≠ .down b) :
    Channel.Inv n ⟨state, stage, heard, c.early⟩ := by
  refine ⟨fun e => absurd e hst, fun e => absurd e hup, fun b e => absurd e (hdown b), fun e => ?_⟩
  exact absurd e (h.not_early hs Stage.noConfusion)

end

theorem Setup.step_inv {s s' : Setup} {a : SetupAct} (h : s.Inv) (ho : s.Orderly a)
    (hs : s.step a = some s') : s'.Inv := by
  cases a with
  | con a =>
    obtain ⟨c, hc, rfl⟩ := Option.map_eq_some_iff.mp hs
    exact ⟨Channel.step_inv h.1 ho hc, h.2⟩
  | stream a =>
    obtain ⟨c, hc, rfl⟩ := Option.map_eq_some_iff.mp hs
    exact ⟨h.1, Channel.step_inv h.2 ho hc⟩
  | connectionStart ok =>
    simp only [Setup.step, Option.ite_none_right_eq_some] at hs
    obtain ⟨hidle, hs⟩ := hs
    cases ok with
    | true =>
      cases hs
      exact ⟨h.1.leave_idle hidle Stage.noConfusion Heard.noConfusion
        fun _ => Heard.noConfusion, h.2⟩
    | false =>
      cases hs
      exact ⟨h.1.leave_idle hidle Stage.noConfusion Heard.noConfusion
        fun _ => Heard.noConfusion, h.2⟩
  | streamStart ok =>
    simp only [Setup.step, Option.ite_none_right_eq_some] at hs
    obtain ⟨⟨-, hidle⟩, hs⟩ := hs
    by_cases hcon : s.con.state = .sessionConnected
    · rw [if_pos hcon] at hs
      cases ok with
      | true =>
        cases hs
        exact ⟨h.1, h.2.leave_idle hidle Stage.noConfusion Heard.noConfusion
          fun _ => Heard.noConfusion⟩
      | false =>
        cases hs
        exact ⟨h.1, h.2.leave_idle hidle Stage.noConfusion Heard.noConfusion
          fun _ => Heard.noConfusion⟩
    · rw [if_neg hcon] at hs
      cases hs
      have hsil := h.2.silent hidle
      exact ⟨h.1, h.2.leave_idle hidle Stage.noConfusion (by rw [hsil]; exact Heard.noConfusion)
        (by rw [hsil]; exact fun _ => Heard.noConfusion)⟩
  | startFailed =>
    simp only [Setup.step, Option.ite_none_right_eq_some, Option.some.injEq] at hs
    obtain ⟨hst, rfl⟩ := hs
    refine ⟨h.1, fun e => absurd (hst.symm.trans (h.2.silent e)) Heard.noConfusion, fun e => ?_,
      fun b e => ?_, h.2.early⟩
    all_goals cases e

theorem Setup.step_bad {s s' : Setup} {a : SetupAct} (h : s.Inv) (ho : ¬ s.Orderly a)
    (hs : s.step a = some s') : ¬ s'.Told := by
  intro ht
  cases a with
  | con a =>
    obtain ⟨c, hc, rfl⟩ := Option.map_eq_some_iff.mp hs
    exact Channel.step_bad h.1 ho hc ht.1
  | stream a =>
    obtain ⟨c, hc, rfl⟩ := Option.map_eq_some_iff.mp hs
    exact Channel.step_bad h.2 ho hc ht.2
  | connectionStart ok => exact ho trivial
  | streamStart ok => exact ho trivial
  | startFailed => exact ho trivial

/-- **Connection and stream status.**  Along every run of the two start functions with the callback
events, the state variables tell what the events said and no early success ends in a timeout, if and
only if the steps of the run are orderly. -/
theorem told_iff (l : List SetupAct) (s : Setup) (hs : exec Setup.step Setup.init l = some s) :
    Always Setup.step Setup.Told Setup.init l ↔ Along Setup.step Setup.Orderly Setup.init l :=
  always_iff_along (I := Setup.Inv) (fun _ h => ⟨h.1.told, h.2.told⟩) (fun _ _ _ => Setup.step_inv)
    (fun _ _ _ => Setup.step_bad) Setup.init_inv hs

/-- both operations succeed, each before its wait begins, and are shut down later -/
def startUp : List SetupAct :=
  [.connectionStart true, .con .ret, .con .set, .con .up, .con (.enter true), .streamStart true,
   .stream .ret, .stream .set, .stream .up, .stream (.enter true), .stream .down, .con .down]

theorem told_startUp : Always Setup.step Setup.Told Setup.init startUp := by
  obtain ⟨s, hs⟩ := Option.isSome_iff_exists.mp
    (show (exec Setup.step Setup.init startUp).isSome = true by decide)
  exact (told_iff startUp s hs).mpr (by decide)

/-- CONNECTED is handled before `ConnectionStart` has returned -/
def fastServer : List SetupAct :=
  [.connectionStart true, .con .up, .con .ret, .con .set, .con (.enter true), .con (.wake 110)]

/-- a connection that has come up is reported as a timeout, and its state stays at connecting; and
SHUTDOWN_COMPLETE is lost in the same way -/
theorem told_overwritten :
    (∃ s, exec Setup.step Setup.init fastServer = some s ∧ s.con.heard = .up ∧
      s.con.state = .sessionConnecting ∧ s.con.early = true ∧ s.con.stage = .returned etimedout ∧
      ¬ s.Told) ∧
    ∃ s, exec Setup.step Setup.init [.connectionStart true, .con .down, .con .ret, .con .set] = some s ∧
      s.con.heard = .down false ∧ s.con.state = .sessionConnecting ∧ ¬ s.Told := by
  have h1 : (exec Setup.step Setup.init fastServer).map (fun s => s.con) =
      some ⟨.sessionConnecting, .returned etimedout, .up, true⟩ := by decide
  have h2 : (exec Setup.step Setup.init
      [.connectionStart true, .con .down, .con .ret, .con .set]).map (fun s => s.con) =
      some ⟨.sessionConnecting, .entering, .down false, false⟩ := by decide
  refine ⟨?_, ?_⟩
  · obtain ⟨s, hs, e⟩ := Option.map_eq_some_iff.mp h1
    refine ⟨s, hs, by rw [e], by rw [e], by rw [e], by rw [e], fun ht => ?_⟩
    have := ht.1.reached (by rw [e])
    rw [e] at this
    cases this
  · obtain ⟨s, hs, e⟩ := Option.map_eq_some_iff.mp h2
    refine ⟨s, hs, by rw [e], by rw [e], fun ht => ?_⟩
    have := ht.1.lost false (by rw [e])
    rw [e] at this
    cases this

end QuicVpn
