import QuicVpn.Lib.History

/-!
# The headless client (`vpn_client_headless.c`)

`main` creates the engine thread, waits on a condition variable for the outcome of `vpn_engine_start`,
and then for SIGINT or SIGTERM; it clears `vpn_engine_running`, joins the thread and cleans up.  The
thread sets `vpn_engine_running` after it has reported the start, and leaves when it finds it cleared.

A section under `vpn_engine_start_lock` is one step.  `vpn_engine_start` and `vpn_engine_cleanup`
return; at its label `err`, the first calls the second, with the session or, if `session_create` has
failed, with NULL.

* `headless_exit`        how the process ends: a thread that was made is cleaned up after once, by
                         itself when the start fails, and otherwise by `main` when the thread is gone;
* `headless_stops_iff`   the process can still end exactly as long as `main` has not cleared
                         `vpn_engine_running` before the thread set it.
-/

set_option linter.unusedSectionVars false

namespace QuicVpn
open Conc

/-- where `main` is -/
inductive MainPt where
  | create
  /-- before the lock, and at the test of `vpn_engine_start_done` -/
  | check
  /-- in `pthread_cond_wait` -/
  | asleep
  | unlocked (success : Bool)
  | joinFailed
  | sigwait
  | clear
  | join
  | cleanup
  | exited (code : ℕ)
  deriving DecidableEq, Repr

/-- where `engine_thread_routine` is -/
inductive WorkerPt where
  | unborn
  | starting
  /-- at `err` in `vpn_engine_start`; `session` is whether there is one -/
  | err (session : Bool)
  | report
  | raise
  | loop
  | ended
  deriving DecidableEq, Repr

/-- who calls `vpn_engine_cleanup` -/
inductive Cleaner where
  | main
  | engine
  deriving DecidableEq, Repr

/-- how the calls of `vpn_engine_start` go, up to its return or its label `err` -/
inductive EngineStart where
  | session
  /-- `session_create` returns NULL -/
  | noSession
  /-- a later call fails -/
  | failed
  deriving DecidableEq, Repr

structure Headless where
  main : MainPt
  worker : WorkerPt
  /-- `vpn_engine_ctx` is not NULL -/
  ctx : Bool
  done : Bool
  success : Bool
  running : Bool
  /-- the calls of `vpn_engine_cleanup`, with whether the session was not NULL -/
  cleanups : List (Cleaner × Bool)
  deriving DecidableEq, Repr

inductive HeadlessAct where
  /-- the next step of `main`; `ok` is whether `pthread_create` succeeds -/
  | main (ok : Bool)
  /-- `pthread_cond_wait` returns without a signal -/
  | wake
  /-- the next step of the thread; `r` is how `vpn_engine_start` goes -/
  | worker (r : EngineStart)
  deriving DecidableEq, Repr

def Headless.init : Headless := ⟨.create, .unborn, false, false, false, false, []⟩

/-- `pthread_cond_signal` -/
def MainPt.signalled : MainPt → MainPt
  | .asleep => .check
  | p => p

def Headless.mainStep (s : Headless) (ok : Bool) : Option Headless :=
  match s.main with
  | .create =>
    if ok then some { s with main := .check, worker := .starting }
    else some { s with main := .exited 1 }
  | .check => some { s with main := if s.done then .unlocked s.success else .asleep }
  | .asleep => none
  | .unlocked true => some { s with main := .sigwait }
  | .unlocked false => some { s with main := .joinFailed }
  | .joinFailed => if s.worker = .ended then some { s with main := .exited 1 } else none
  | .sigwait => some { s with main := .clear }
  | .clear => some { s with main := .join, running := false }
  | .join => if s.worker = .ended then some { s with main := .cleanup } else none
  | .cleanup => some { s with main := .exited 0, cleanups := (.main, s.ctx) :: s.cleanups }
  | .exited _ => none

def Headless.workerStep (s : Headless) (r : EngineStart) : Option Headless :=
  match s.worker with
  | .unborn => none
  | .starting =>
    match r with
    | .session => some { s with worker := .report, ctx := true }
    | .noSession => some { s with worker := .err false }
    | .failed => some { s with worker := .err true }
  | .err session =>
    some { s with worker := .report, ctx := false, cleanups := (.engine, session) :: s.cleanups }
  | .report =>
    some { s with
      worker := if s.ctx then .raise else .ended
      done := true
      success := s.ctx
      main := s.main.signalled }
  | .raise => some { s with worker := .loop, running := true }
  | .loop => some { s with worker := if s.running then .loop else .ended }
  | .ended => none

/-- the process has ended -/
def Headless.Over (s : Headless) : Prop := ∃ code, s.main = .exited code

instance (s : Headless) : Decidable s.Over :=
  match h : s.main with
  | .exited code => .isTrue ⟨code, h⟩
  | .create | .check | .asleep | .unlocked _ | .joinFailed | .sigwait | .clear | .join | .cleanup =>
    .isFalse fun ⟨_, e⟩ => MainPt.noConfusion (h.symm.trans e)

def Headless.step (s : Headless) (a : HeadlessAct) : Option Headless :=
  if s.Over then none
  else match a with
    | .main ok => s.mainStep ok
    | .wake => if s.main = .asleep then some { s with main := .check } else none
    | .worker r => s.workerStep r

/-- `main` clears `vpn_engine_running` only when the thread has set it -/
def ClearsAfterRaise (s : Headless) : HeadlessAct → Prop
  | .main _ => s.main = .clear → s.worker ≠ .raise
  | _ => True

instance (s : Headless) : ∀ a, Decidable (ClearsAfterRaise s a)
  | .main _ => inferInstanceAs (Decidable (s.main = .clear → s.worker ≠ .raise))
  | .wake => .isTrue trivial
  | .worker _ => .isTrue trivial

/-! ## the invariant -/

/-- the thread has left `vpn_engine_start` by `err`, after its call of `vpn_engine_cleanup` -/
def Headless.Failed (s : Headless) : Prop :=
  s.ctx = false ∧ (s.worker = .report ∨ s.worker = .ended)

/-- until `main` has called `vpn_engine_cleanup`, the thread has if and only if the start has failed -/
def Headless.Calls (s : Headless) : Prop :=
  s.main ≠ .exited 0 →
    (s.Failed → ∃ session, s.cleanups = [(.engine, session)]) ∧ (¬ s.Failed → s.cleanups = [])

/-- what the two threads have to do with each other while `main` is at a point -/
def MainPt.Allows (s : Headless) : MainPt → Prop
  | .create => s.worker = .unborn
  | .check => s.worker ≠ .unborn
  | .asleep => s.worker ≠ .unborn ∧ s.done = false
  | .unlocked b => s.done = true ∧ s.ctx = b
  | .joinFailed => s.done = true ∧ s.ctx = false
  | .sigwait => s.done = true ∧ s.ctx = true
  | .clear => s.done = true ∧ s.ctx = true
  | .join => s.done = true ∧ s.ctx = true
  | .cleanup => s.worker = .ended ∧ s.ctx = true
  | .exited code => (code = 0 ∧ s.worker = .ended ∧ s.cleanups = [(.main, true)]) ∨
      (code = 1 ∧ (s.worker = .unborn ∨ s.worker = .ended ∧ s.ctx = false))

/-- `vpn_engine_running` has not been cleared yet -/
def MainPt.early : MainPt → Bool
  | .create => true
  | .check => true
  | .asleep => true
  | .unlocked _ => true
  | .joinFailed => true
  | .sigwait => true
  | .clear => true
  | _ => false

/-- the thread has reported the start -/
def WorkerPt.reported : WorkerPt → Bool
  | .raise => true
  | .loop => true
  | .ended => true
  | _ => false

structure Headless.Inv (s : Headless) : Prop where
  allows : s.main.Allows s
  calls : s.Calls
  done : s.done = s.worker.reported
  success : s.done = true → s.success = s.ctx
  up : s.worker = .raise ∨ s.worker = .loop → s.ctx = true
  running : s.running = true → s.worker = .loop
  early : s.main.early = true →
    (s.worker = .loop → s.running = true) ∧ (s.worker = .ended → s.ctx = false)

/-! ## the steps -/

/-- what a step can do -/
inductive Headless.Move (s : Headless) : HeadlessAct → Headless → Prop where
  | create (hm : s.main = .create) :
    Move s (.main true) { s with main := .check, worker := .starting }
  | createFailed (hm : s.main = .create) : Move s (.main false) { s with main := .exited 1 }
  | seen {ok : Bool} (hm : s.main = .check) (hd : s.done = true) :
    Move s (.main ok) { s with main := .unlocked s.success }
  | wait {ok : Bool} (hm : s.main = .check) (hd : s.done = false) :
    Move s (.main ok) { s with main := .asleep }
  | started {ok : Bool} (hm : s.main = .unlocked true) :
    Move s (.main ok) { s with main := .sigwait }
  | failed {ok : Bool} (hm : s.main = .unlocked false) :
    Move s (.main ok) { s with main := .joinFailed }
  | joinFailed {ok : Bool} (hm : s.main = .joinFailed) (hw : s.worker = .ended) :
    Move s (.main ok) { s with main := .exited 1 }
  | signal {ok : Bool} (hm : s.main = .sigwait) : Move s (.main ok) { s with main := .clear }
  | clear {ok : Bool} (hm : s.main = .clear) :
    Move s (.main ok) { s with main := .join, running := false }
  | join {ok : Bool} (hm : s.main = .join) (hw : s.worker = .ended) :
    Move s (.main ok) { s with main := .cleanup }
  | cleanup {ok : Bool} (hm : s.main = .cleanup) :
    Move s (.main ok) { s with main := .exited 0, cleanups := (.main, s.ctx) :: s.cleanups }
  | wake (hm : s.main = .asleep) : Move s .wake { s with main := .check }
  | start (hw : s.worker = .starting) :
    Move s (.worker .session) { s with worker := .report, ctx := true }
  | noSession (hw : s.worker = .starting) :
    Move s (.worker .noSession) { s with worker := .err false }
  | startFailed (hw : s.worker = .starting) :
    Move s (.worker .failed) { s with worker := .err true }
  | err {r : EngineStart} {session : Bool} (hw : s.worker = .err session) :
    Move s (.worker r) { s with
      worker := .report, ctx := false, cleanups := (.engine, session) :: s.cleanups }
  | report {r : EngineStart} (hw : s.worker = .report) :
    Move s (.worker r) { s with
      worker := if s.ctx then .raise else .ended
      done := true
      success := s.ctx
      main := s.main.signalled }
  | raise {r : EngineStart} (hw : s.worker = .raise) :
    Move s (.worker r) { s with worker := .loop, running := true }
  | turn {r : EngineStart} (hw : s.worker = .loop) (hr : s.running = true) :
    Move s (.worker r) { s with worker := .loop }
  | leave {r : EngineStart} (hw : s.worker = .loop) (hr : s.running = false) :
    Move s (.worker r) { s with worker := .ended }

theorem Headless.mainStep_move {s s' : Headless} {ok : Bool} (hs : s.mainStep ok = some s') :
    s.Move (.main ok) s' := by
  cases hm : s.main with
  | create =>
    simp only [Headless.mainStep, hm] at hs
    cases ok with
    | true => exact Option.some.inj hs ▸ .create hm
    | false => exact Option.some.inj hs ▸ .createFailed hm
  | check =>
    simp only [Headless.mainStep, hm] at hs
    cases hd : s.done with
    | true =>
      have he : s' = { s with main := .unlocked s.success } := by
        rw [← Option.some.inj hs, if_pos hd]
      exact he ▸ .seen hm hd
    | false =>
      have he : s' = { s with main := .asleep } := by
        rw [← Option.some.inj hs, if_neg (by rw [hd]; exact Bool.false_ne_true)]
      exact he ▸ .wait hm hd
  | unlocked b =>
    cases b with
    | true =>
      simp only [Headless.mainStep, hm] at hs
      exact Option.some.inj hs ▸ .started hm
    | false =>
      simp only [Headless.mainStep, hm] at hs
      exact Option.some.inj hs ▸ .failed hm
  | joinFailed =>
    simp only [Headless.mainStep, hm, Option.ite_none_right_eq_some] at hs
    exact Option.some.inj hs.2 ▸ .joinFailed hm hs.1
  | sigwait =>
    simp only [Headless.mainStep, hm] at hs
    exact Option.some.inj hs ▸ .signal hm
  | clear =>
    simp only [Headless.mainStep, hm] at hs
    exact Option.some.inj hs ▸ .clear hm
  | join =>
    simp only [Headless.mainStep, hm, Option.ite_none_right_eq_some] at hs
    exact Option.some.inj hs.2 ▸ .join hm hs.1
  | cleanup =>
    simp only [Headless.mainStep, hm] at hs
    exact Option.some.inj hs ▸ .cleanup hm
  | asleep | exited _ =>
    simp only [Headless.mainStep, hm] at hs
    exact absurd hs (Option.some_ne_none s').symm

theorem Headless.workerStep_move {s s' : Headless} {r : EngineStart}
    (hs : s.workerStep r = some s') : s.Move (.worker r) s' := by
  cases hw : s.worker with
  | starting =>
    simp only [Headless.workerStep, hw] at hs
    cases r with
    | session => exact Option.some.inj hs ▸ .start hw
    | noSession => exact Option.some.inj hs ▸ .noSession hw
    | failed => exact Option.some.inj hs ▸ .startFailed hw
  | err session =>
    simp only [Headless.workerStep, hw] at hs
    exact Option.some.inj hs ▸ .err hw
  | report =>
    simp only [Headless.workerStep, hw] at hs
    exact Option.some.inj hs ▸ .report hw
  | raise =>
    simp only [Headless.workerStep, hw] at hs
    exact Option.some.inj hs ▸ .raise hw
  | loop =>
    simp only [Headless.workerStep, hw] at hs
    cases hr : s.running with
    | true =>
      have he : s' = { s with worker := .loop } := by
        rw [← Option.some.inj hs, if_pos hr]
      exact he ▸ .turn hw hr
    | false =>
      have he : s' = { s with worker := .ended } := by
        rw [← Option.some.inj hs, if_neg (by rw [hr]; exact Bool.false_ne_true)]
      exact he ▸ .leave hw hr
  | unborn | ended =>
    simp only [Headless.workerStep, hw] at hs
    exact absurd hs (Option.some_ne_none s').symm

theorem Headless.step_move {s s' : Headless} {a : HeadlessAct} (hs : s.step a = some s') :
    ¬ s.Over ∧ s.Move a s' := by
  unfold Headless.step at hs
  rw [Option.ite_none_left_eq_some] at hs
  refine ⟨hs.1, ?_⟩
  cases a with
  | main ok => exact Headless.mainStep_move hs.2
  | worker r => exact Headless.workerStep_move hs.2
  | wake =>
    obtain ⟨hm, he⟩ := Option.ite_none_right_eq_some.mp hs.2
    exact Option.some.inj he ▸ .wake hm

section
variable {s s' : Headless} {a : HeadlessAct}

theorem Headless.not_failed_of_ctx (hc : s.ctx = true) : ¬ s.Failed := by
  rintro ⟨he, -⟩
  exact absurd (hc.symm.trans he) Bool.false_ne_true.symm

theorem Headless.not_failed_of_worker {w : WorkerPt} (hw : s.worker = w) (h1 : w ≠ .report)
    (h2 : w ≠ .ended) : ¬ s.Failed := by
  rintro ⟨-, he | he⟩
  · exact h1 (hw.symm.trans he)
  · exact h2 (hw.symm.trans he)

/-- a start that has not failed has called nothing -/
theorem Headless.Inv.no_calls (h : s.Inv) (ho : ¬ s.Over) (hf : ¬ s.Failed) : s.cleanups = [] :=
  (h.calls fun e => ho ⟨0, e⟩).2 hf

/-- and it stays so -/
theorem Headless.Inv.calls_after (h : s.Inv) (ho : ¬ s.Over) (hf : ¬ s.Failed)
    (hc : s'.cleanups = s.cleanups) (hf' : ¬ s'.Failed) : s'.Calls :=
  fun _ => ⟨fun e => absurd e hf', fun _ => hc.trans (h.no_calls ho hf)⟩

/-- before the report, `main` is at its wait -/
theorem Headless.Inv.waiting (h : s.Inv) (ho : ¬ s.Over) (hw : s.worker ≠ .unborn)
    (hd : s.done = false) : s.main = .check ∨ s.main = .asleep := by
  have hA := h.allows
  have hnot : ¬ s.done = true := by
    rw [hd]
    exact Bool.false_ne_true
  cases hm : s.main with
  | create =>
    rw [hm] at hA
    exact absurd hA hw
  | check => exact Or.inl rfl
  | asleep => exact Or.inr rfl
  | unlocked _ | joinFailed | sigwait | clear | join =>
    rw [hm] at hA
    exact absurd hA.1 hnot
  | cleanup =>
    rw [hm] at hA
    have hend := h.done
    rw [hA.1, hd] at hend
    exact absurd hend Bool.false_ne_true
  | exited code => exact absurd ⟨code, hm⟩ ho

/-- a step of the thread before its report leaves `main` at its wait -/
theorem Headless.Inv.before_report (h : s.Inv) (ho : ¬ s.Over) {w : WorkerPt} (hw : s.worker = w)
    (h0 : w ≠ .unborn) (hrep : w.reported = false) (hl : w ≠ .loop) (hm : s'.main = s.main)
    (hd' : s'.done = s.done) (hr : s'.running = s.running) {w' : WorkerPt} (hw' : s'.worker = w')
    (h0' : w' ≠ .unborn) (hrep' : w'.reported = false) (hcalls : s'.Calls) : s'.Inv := by
  have hd : s.done = false := h.done.trans (by rw [hw, hrep])
  have hd0 : s'.done = false := hd'.trans hd
  have hnone : ∀ v : WorkerPt, v.reported = true → s'.worker ≠ v := by
    rintro v hv rfl
    rw [hw', hrep'] at hv
    exact Bool.false_ne_true hv
  have hwait : s'.main = .check ∨ s'.main = .asleep := by
    rw [hm]
    exact h.waiting ho (hw ▸ h0) hd
  refine ⟨?_, hcalls, ?_, fun e => absurd (hd0.symm.trans e) Bool.false_ne_true, fun e => ?_,
    fun e => ?_, fun _ => ⟨fun e => absurd e (hnone _ rfl), fun e => absurd e (hnone _ rfl)⟩⟩
  · have hborn : s'.worker ≠ .unborn := by
      rw [hw']
      exact h0'
    rcases hwait with e | e
    · rw [e]
      exact hborn
    · rw [e]
      exact ⟨hborn, hd0⟩
  · rw [hd0, hw', hrep']
  · rcases e with e | e
    · exact absurd e (hnone _ rfl)
    · exact absurd e (hnone _ rfl)
  · exact absurd (hw.symm.trans (h.running (hr.symm.trans e))) hl

/-- a step of the thread after the report changes nothing that `main` relies on -/
theorem Headless.Inv.allows_after (h : s.Inv) (ho : ¬ s.Over)
    (hw : s.worker = .raise ∨ s.worker = .loop) (hm : s'.main = s.main) (hd : s'.done = s.done)
    (hc : s'.ctx = s.ctx) (hw' : s'.worker ≠ .unborn) : s'.main.Allows s' := by
  have hA := h.allows
  rw [hm]
  cases e : s.main with
  | create =>
    rw [e] at hA
    rcases hw with hw | hw
    · exact WorkerPt.noConfusion (hA.symm.trans hw)
    · exact WorkerPt.noConfusion (hA.symm.trans hw)
  | check => exact hw'
  | asleep =>
    rw [e] at hA
    exact ⟨hw', hd.trans hA.2⟩
  | unlocked _ | joinFailed | sigwait | clear | join =>
    rw [e] at hA
    exact ⟨hd.trans hA.1, hc.trans hA.2⟩
  | cleanup =>
    rw [e] at hA
    rcases hw with hw | hw
    · exact WorkerPt.noConfusion (hA.1.symm.trans hw)
    · exact WorkerPt.noConfusion (hA.1.symm.trans hw)
  | exited code => exact absurd ⟨code, e⟩ ho

/-- a step of `main` that leaves the thread and what it has reported alone -/
theorem Headless.Inv.move (h : s.Inv) (ho : ¬ s.Over) (p : MainPt)
    (hp : p.Allows { s with main := p }) (he : p.early = true → s.main.early = true) :
    ({ s with main := p } : Headless).Inv :=
  ⟨hp, fun _ => h.calls fun e => ho ⟨0, e⟩, h.done, h.success, h.up, h.running,
    fun e => h.early (he e)⟩

theorem Headless.step_inv (h : s.Inv) (hs : s.step a = some s') : s'.Inv := by
  obtain ⟨ho, hmv⟩ := Headless.step_move hs
  have hA := h.allows
  cases hmv with
  | create hm =>
    rw [hm] at hA
    have hrun : s.running = false := by
      by_contra hr
      rw [Bool.not_eq_false] at hr
      exact WorkerPt.noConfusion (hA.symm.trans (h.running hr))
    have hd : s.done = false := by rw [h.done, hA]; rfl
    have hf : ¬ s.Failed :=
      Headless.not_failed_of_worker hA WorkerPt.noConfusion WorkerPt.noConfusion
    exact ⟨WorkerPt.noConfusion,
      h.calls_after ho hf rfl
        (Headless.not_failed_of_worker rfl WorkerPt.noConfusion WorkerPt.noConfusion),
      hd, fun e => absurd (hd.symm.trans e) Bool.false_ne_true, fun e => absurd e (by simp),
      fun e => absurd (hrun.symm.trans e) Bool.false_ne_true,
      fun _ => ⟨WorkerPt.noConfusion, WorkerPt.noConfusion⟩⟩
  | createFailed hm =>
    rw [hm] at hA
    exact h.move ho (.exited 1) (Or.inr ⟨rfl, Or.inl hA⟩) fun e => absurd e Bool.false_ne_true
  | seen hm hd =>
    exact h.move ho (.unlocked s.success) ⟨hd, (h.success hd).symm⟩ fun _ => by rw [hm]; rfl
  | wait hm hd =>
    rw [hm] at hA
    exact h.move ho .asleep ⟨hA, hd⟩ fun _ => by rw [hm]; rfl
  | started hm =>
    rw [hm] at hA
    exact h.move ho .sigwait hA fun _ => by rw [hm]; rfl
  | failed hm =>
    rw [hm] at hA
    exact h.move ho .joinFailed hA fun _ => by rw [hm]; rfl
  | joinFailed hm hw =>
    rw [hm] at hA
    exact h.move ho (.exited 1) (Or.inr ⟨rfl, Or.inr ⟨hw, hA.2⟩⟩)
      fun e => absurd e Bool.false_ne_true
  | signal hm =>
    rw [hm] at hA
    exact h.move ho .clear hA fun _ => by rw [hm]; rfl
  | clear hm =>
    rw [hm] at hA
    exact ⟨hA, fun _ => h.calls fun e => ho ⟨0, e⟩, h.done, h.success, h.up,
      fun e => absurd e Bool.false_ne_true, fun e => absurd e Bool.false_ne_true⟩
  | join hm hw =>
    rw [hm] at hA
    exact h.move ho .cleanup ⟨hw, hA.2⟩ fun e => absurd e Bool.false_ne_true
  | cleanup hm =>
    rw [hm] at hA
    refine ⟨Or.inl ⟨rfl, hA.1, ?_⟩, fun e => absurd rfl e, h.done, h.success, h.up, h.running,
      fun e => absurd e Bool.false_ne_true⟩
    show (.main, s.ctx) :: s.cleanups = [(.main, true)]
    rw [hA.2, h.no_calls ho (Headless.not_failed_of_ctx hA.2)]
  | wake hm =>
    rw [hm] at hA
    exact h.move ho .check hA.1 fun _ => by rw [hm]; rfl
  | start hw =>
    refine h.before_report ho hw WorkerPt.noConfusion rfl WorkerPt.noConfusion rfl rfl rfl
      rfl WorkerPt.noConfusion rfl ?_
    exact h.calls_after ho
      (Headless.not_failed_of_worker hw WorkerPt.noConfusion WorkerPt.noConfusion) rfl
      (Headless.not_failed_of_ctx rfl)
  | noSession hw | startFailed hw =>
    refine h.before_report ho hw WorkerPt.noConfusion rfl WorkerPt.noConfusion rfl rfl rfl
      rfl WorkerPt.noConfusion rfl ?_
    exact h.calls_after ho
      (Headless.not_failed_of_worker hw WorkerPt.noConfusion WorkerPt.noConfusion) rfl
      (Headless.not_failed_of_worker rfl WorkerPt.noConfusion WorkerPt.noConfusion)
  | @err r session hw =>
    refine h.before_report ho hw WorkerPt.noConfusion rfl WorkerPt.noConfusion rfl rfl rfl
      rfl WorkerPt.noConfusion rfl fun _ => ⟨fun _ => ⟨session, ?_⟩, fun hf => ?_⟩
    · show (.engine, session) :: s.cleanups = [(.engine, session)]
      rw [h.no_calls ho
        (Headless.not_failed_of_worker hw WorkerPt.noConfusion WorkerPt.noConfusion)]
    · exact absurd ⟨rfl, Or.inl rfl⟩ hf
  | @report r hw =>
    have hd : s.done = false := by rw [h.done, hw]; rfl
    have hm := h.waiting ho (by rw [hw]; exact WorkerPt.noConfusion) hd
    have hsig : s.main.signalled = .check := by
      rcases hm with hm | hm
      · exact congrArg MainPt.signalled hm
      · exact congrArg MainPt.signalled hm
    have hrun : s.running = true → False := fun e => WorkerPt.noConfusion (hw.symm.trans (h.running e))
    cases hc : s.ctx with
    | true =>
      refine ⟨by rw [hsig]; exact WorkerPt.noConfusion, ?_, rfl, fun _ => rfl, fun _ => rfl,
        fun e => (hrun e).elim, fun _ => ⟨WorkerPt.noConfusion, WorkerPt.noConfusion⟩⟩
      exact h.calls_after ho (Headless.not_failed_of_ctx hc) rfl (Headless.not_failed_of_ctx rfl)
    | false =>
      refine ⟨by rw [hsig]; exact WorkerPt.noConfusion, fun _ => ⟨fun _ => ?_, fun hf => ?_⟩, rfl,
        fun _ => rfl, fun e => absurd e (by simp), fun e => (hrun e).elim,
        fun _ => ⟨WorkerPt.noConfusion, fun _ => rfl⟩⟩
      · exact (h.calls fun e => ho ⟨0, e⟩).1 ⟨hc, Or.inl hw⟩
      · exact absurd ⟨rfl, Or.inr rfl⟩ hf
  | raise hw =>
    refine ⟨h.allows_after ho (Or.inl hw) rfl rfl rfl WorkerPt.noConfusion,
      h.calls_after ho (Headless.not_failed_of_ctx (h.up (Or.inl hw))) rfl
        (Headless.not_failed_of_ctx (h.up (Or.inl hw))), ?_, h.success,
      fun _ => h.up (Or.inl hw), fun _ => rfl, fun _ => ⟨fun _ => rfl, WorkerPt.noConfusion⟩⟩
    exact h.done.trans (by rw [hw]; rfl)
  | turn hw hr =>
    refine ⟨h.allows_after ho (Or.inr hw) rfl rfl rfl WorkerPt.noConfusion,
      h.calls_after ho (Headless.not_failed_of_ctx (h.up (Or.inr hw))) rfl
        (Headless.not_failed_of_ctx (h.up (Or.inr hw))), ?_, h.success,
      fun _ => h.up (Or.inr hw), fun _ => rfl, fun _ => ⟨fun _ => hr, WorkerPt.noConfusion⟩⟩
    exact h.done.trans (congrArg WorkerPt.reported hw)
  | leave hw hr =>
    refine ⟨h.allows_after ho (Or.inr hw) rfl rfl rfl WorkerPt.noConfusion,
      h.calls_after ho (Headless.not_failed_of_ctx (h.up (Or.inr hw))) rfl
        (Headless.not_failed_of_ctx (h.up (Or.inr hw))), ?_, h.success,
      fun e => absurd e (by simp), fun e => absurd (hr.symm.trans e) Bool.false_ne_true, fun he => ?_⟩
    · exact h.done.trans (by rw [hw]; rfl)
    · -- nobody has cleared `running`, so the thread is still in its loop
      exact absurd (hr.symm.trans ((h.early he).1 hw)) Bool.false_ne_true

/-! ## the end of the process -/

/-- from here on the thread runs with `running` set, and `main` waits for it -/
def Headless.Doomed (s : Headless) : Prop :=
  s.main = .join ∧ (s.worker = .raise ∨ s.worker = .loop ∧ s.running = true)

/-- the invariant of the runs in which the thread can be stopped -/
structure Headless.Live (s : Headless) : Prop where
  inv : s.Inv
  join : s.main = .join → s.worker ≠ .raise ∧ s.running = false

theorem Headless.Doomed.step (h : s.Doomed) (hs : s.step a = some s') : s'.Doomed := by
  obtain ⟨hj, hw⟩ := h
  cases (Headless.step_move hs).2 with
  | create hm | createFailed hm | seen hm _ | wait hm _ | started hm | failed hm | joinFailed hm _
  | signal hm | clear hm | cleanup hm | wake hm => exact MainPt.noConfusion (hj.symm.trans hm)
  | join hm he =>
    rcases hw with hw | ⟨hw, -⟩
    · exact WorkerPt.noConfusion (hw.symm.trans he)
    · exact WorkerPt.noConfusion (hw.symm.trans he)
  | start he | noSession he | startFailed he | err he | report he =>
    rcases hw with hw | ⟨hw, -⟩
    · exact WorkerPt.noConfusion (hw.symm.trans he)
    · exact WorkerPt.noConfusion (hw.symm.trans he)
  | raise he => exact ⟨hj, Or.inr ⟨rfl, rfl⟩⟩
  | turn he hr => exact ⟨hj, Or.inr ⟨rfl, hr⟩⟩
  | leave he hr =>
    rcases hw with hw | ⟨-, hrun⟩
    · exact WorkerPt.noConfusion (hw.symm.trans he)
    · exact absurd (hr.symm.trans hrun) Bool.false_ne_true

theorem Headless.Doomed.not_over (h : s.Doomed) : ¬ s.Over := by
  rintro ⟨code, e⟩
  exact MainPt.noConfusion (h.1.symm.trans e)

/-- where `main` clears `running`, the thread has the session and is in its loop or before it -/
theorem Headless.Inv.at_clear (h : s.Inv) (hm : s.main = .clear) :
    s.worker = .raise ∨ s.worker = .loop := by
  have hA := h.allows
  rw [hm] at hA
  have hearly : s.main.early = true := by rw [hm]; rfl
  have hrep := h.done.symm.trans hA.1
  cases hw : s.worker with
  | raise => exact Or.inl rfl
  | loop => exact Or.inr rfl
  | ended => exact absurd (((h.early hearly).2 hw).symm.trans hA.2) Bool.false_ne_true
  | unborn | starting | err _ | report =>
    rw [hw] at hrep
    exact absurd hrep Bool.false_ne_true

theorem Headless.Live.step (h : s.Live) (hC : ClearsAfterRaise s a) (hs : s.step a = some s') :
    s'.Live := by
  refine ⟨Headless.step_inv h.inv hs, fun hj => ?_⟩
  cases (Headless.step_move hs).2 with
  | create _ | createFailed _ | seen _ _ | wait _ _ | started _ | failed _ | joinFailed _ _
  | signal _ | join _ _ | cleanup _ | wake _ => exact MainPt.noConfusion hj
  | clear hm => exact ⟨hC hm, rfl⟩
  | start hw | noSession hw | startFailed hw | err hw =>
    exact ⟨WorkerPt.noConfusion, (h.join hj).2⟩
  | report hw =>
    -- `main` joins only after the report
    have hA := h.inv.allows
    cases hm : s.main with
    | join =>
      rw [hm] at hA
      have hd := h.inv.done
      rw [hw, hA.1] at hd
      exact absurd hd.symm Bool.false_ne_true
    | _ =>
      change s.main.signalled = .join at hj
      rw [hm] at hj
      exact MainPt.noConfusion hj
  | raise hw => exact absurd hw (h.join hj).1
  | turn hw hr => exact ⟨WorkerPt.noConfusion, (h.join hj).2⟩
  | leave hw hr => exact ⟨WorkerPt.noConfusion, (h.join hj).2⟩

/-- cleared too early, `running` is set again -/
theorem Headless.cleared_early (hC : ¬ ClearsAfterRaise s a) (hs : s.step a = some s') :
    s'.Doomed := by
  cases a with
  | wake => exact absurd trivial hC
  | worker r => exact absurd trivial hC
  | main ok =>
    simp only [ClearsAfterRaise, not_forall, ne_eq, not_not] at hC
    obtain ⟨hm, hw⟩ := hC
    have he : s' = { s with main := .join, running := false } := by
      unfold Headless.step at hs
      rw [Option.ite_none_left_eq_some] at hs
      simp only [Headless.mainStep, hm] at hs
      exact (Option.some.inj hs.2).symm
    subst he
    exact ⟨rfl, Or.inl hw⟩

/-- how far `main` is from its end -/
def MainPt.rank : MainPt → ℕ
  | .create => 20
  | .check => 8
  | .asleep => 8
  | .unlocked _ => 6
  | .joinFailed => 5
  | .sigwait => 5
  | .clear => 4
  | .join => 3
  | .cleanup => 1
  | .exited _ => 0

/-- and how far the thread -/
def WorkerPt.rank : WorkerPt → ℕ
  | .unborn => 0
  | .starting => 6
  | .err _ => 5
  | .report => 4
  | .raise => 3
  | .loop => 2
  | .ended => 0

def Headless.rank (s : Headless) : ℕ := s.main.rank + s.worker.rank

/-- `main` moves on to `p` -/
theorem Headless.Live.main_closer (h : s.Live) (ho : ¬ s.Over) {q p : MainPt} (hm : s.main = q)
    (hs : s.mainStep true = some { s with main := p }) (hlt : p.rank < q.rank) (hq : q ≠ .clear) :
    ∃ a t, s.step a = some t ∧ t.Live ∧ t.rank < s.rank := by
  have hstep : s.step (.main true) = some { s with main := p } := (if_neg ho).trans hs
  have hC : ClearsAfterRaise s (.main true) := fun e => absurd (hm.symm.trans e) hq
  refine ⟨_, _, hstep, h.step hC hstep, ?_⟩
  show p.rank + s.worker.rank < s.main.rank + s.worker.rank
  rw [hm]
  exact Nat.add_lt_add_right hlt _

/-- the thread moves on to `w` -/
theorem Headless.Live.worker_closer (h : s.Live) (ho : ¬ s.Over) {t : Headless} {w : WorkerPt}
    (hw : s.worker = w) (hs : s.workerStep .session = some t) (hm : t.main.rank = s.main.rank)
    (hlt : t.worker.rank < w.rank) : ∃ a t, s.step a = some t ∧ t.Live ∧ t.rank < s.rank := by
  have hstep : s.step (.worker .session) = some t := (if_neg ho).trans hs
  have hC : ClearsAfterRaise s (.worker .session) := trivial
  refine ⟨_, _, hstep, h.step hC hstep, ?_⟩
  show t.main.rank + t.worker.rank < s.main.rank + s.worker.rank
  rw [hm, hw]
  exact Nat.add_lt_add_left hlt _

/-- after the report, the thread is past it -/
theorem Headless.Inv.reported (h : s.Inv) (hd : s.done = true) :
    s.worker = .raise ∨ s.worker = .loop ∨ s.worker = .ended := by
  have hrep := h.done.symm.trans hd
  cases hw : s.worker with
  | raise => exact Or.inl rfl
  | loop => exact Or.inr (Or.inl rfl)
  | ended => exact Or.inr (Or.inr rfl)
  | unborn | starting | err _ | report =>
    rw [hw] at hrep
    exact absurd hrep Bool.false_ne_true

/-- before it, it is the turn of the thread -/
theorem Headless.Live.closer_start (h : s.Live) (ho : ¬ s.Over) (h0 : s.worker ≠ .unborn)
    (hd : s.done = false) : ∃ a t, s.step a = some t ∧ t.Live ∧ t.rank < s.rank := by
  have hrep := h.inv.done.symm.trans hd
  cases hw : s.worker with
  | unborn => exact absurd hw h0
  | starting =>
    exact h.worker_closer ho hw (t := { s with worker := .report, ctx := true })
      (by simp only [Headless.workerStep, hw]) rfl (by show 4 < 6; decide)
  | err session =>
    exact h.worker_closer ho hw
      (t := { s with worker := .report, ctx := false, cleanups := (.engine, session) :: s.cleanups })
      (by simp only [Headless.workerStep, hw]) rfl (by show 4 < 5; decide)
  | report =>
    refine h.worker_closer ho hw (by simp only [Headless.workerStep, hw]; rfl) ?_ ?_
    · show s.main.signalled.rank = s.main.rank
      cases s.main <;> rfl
    · show (if s.ctx = true then WorkerPt.raise else .ended).rank < WorkerPt.report.rank
      split <;> decide
  | raise | loop | ended =>
    rw [hw] at hrep
    exact absurd hrep.symm Bool.false_ne_true

/-- there is always a step that comes closer to the end -/
theorem Headless.Live.closer (h : s.Live) (ho : ¬ s.Over) :
    ∃ a t, s.step a = some t ∧ t.Live ∧ t.rank < s.rank := by
  have hA := h.inv.allows
  cases hm : s.main with
  | create =>
    rw [hm] at hA
    have hstep : s.step (.main true) = some { s with main := .check, worker := .starting } := by
      refine (if_neg ho).trans ?_
      simp only [Headless.mainStep, hm, if_true]
    have hC : ClearsAfterRaise s (.main true) := fun e => MainPt.noConfusion (hm.symm.trans e)
    refine ⟨_, _, hstep, h.step hC hstep, ?_⟩
    show 8 + 6 < s.main.rank + s.worker.rank
    rw [hm, hA]
    decide
  | check =>
    rw [hm] at hA
    cases hd : s.done with
    | false => exact h.closer_start ho hA hd
    | true =>
      exact h.main_closer ho hm (p := .unlocked s.success)
        (by simp only [Headless.mainStep, hm, hd, if_true]) (by show 6 < 8; decide)
        MainPt.noConfusion
  | asleep =>
    rw [hm] at hA
    exact h.closer_start ho hA.1 hA.2
  | unlocked b =>
    cases b with
    | true =>
      exact h.main_closer ho hm (by simp only [Headless.mainStep, hm]; rfl) (by decide)
        MainPt.noConfusion
    | false =>
      exact h.main_closer ho hm (by simp only [Headless.mainStep, hm]; rfl) (by decide)
        MainPt.noConfusion
  | joinFailed =>
    rw [hm] at hA
    have hup : ¬ (s.worker = .raise ∨ s.worker = .loop) := fun e =>
      absurd (hA.2.symm.trans (h.inv.up e)) Bool.false_ne_true
    have hw : s.worker = .ended := by
      rcases h.inv.reported hA.1 with hw | hw | hw
      · exact absurd (Or.inl hw) hup
      · exact absurd (Or.inr hw) hup
      · exact hw
    exact h.main_closer ho hm (by simp only [Headless.mainStep, hm, hw, if_true]; rfl) (by decide)
      MainPt.noConfusion
  | sigwait =>
    exact h.main_closer ho hm (by simp only [Headless.mainStep, hm]; rfl) (by decide)
      MainPt.noConfusion
  | clear =>
    rcases h.inv.at_clear hm with hw | hw
    · exact h.worker_closer ho hw (t := { s with worker := .loop, running := true })
        (by simp only [Headless.workerStep, hw]) rfl (by show 2 < 3; decide)
    · have hstep : s.step (.main true) = some { s with main := .join, running := false } := by
        refine (if_neg ho).trans ?_
        simp only [Headless.mainStep, hm]
      have hC : ClearsAfterRaise s (.main true) := fun _ => by
        rw [hw]
        exact WorkerPt.noConfusion
      refine ⟨_, _, hstep, h.step hC hstep, ?_⟩
      show 3 + s.worker.rank < s.main.rank + s.worker.rank
      rw [hm]
      exact Nat.add_lt_add_right (by decide) _
  | join =>
    rw [hm] at hA
    obtain ⟨hraise, hrun⟩ := h.join hm
    rcases h.inv.reported hA.1 with hw | hw | hw
    · exact absurd hw hraise
    · exact h.worker_closer ho hw (t := { s with worker := .ended })
        (by simp only [Headless.workerStep, hw, hrun, Bool.false_eq_true, if_false]) rfl
        (by show 0 < 2; decide)
    · exact h.main_closer ho hm (by simp only [Headless.mainStep, hm, hw, if_true]; rfl) (by decide)
        MainPt.noConfusion
  | cleanup =>
    have hstep : s.step (.main true) =
        some { s with main := .exited 0, cleanups := (.main, s.ctx) :: s.cleanups } := by
      refine (if_neg ho).trans ?_
      simp only [Headless.mainStep, hm]
    have hC : ClearsAfterRaise s (.main true) := fun e => MainPt.noConfusion (hm.symm.trans e)
    refine ⟨_, _, hstep, h.step hC hstep, ?_⟩
    show 0 + s.worker.rank < s.main.rank + s.worker.rank
    rw [hm]
    exact Nat.add_lt_add_right (by decide) _
  | exited code => exact absurd ⟨code, hm⟩ ho

end

/-! ## the main results -/

theorem Headless.init_live : Headless.init.Live := by
  refine ⟨⟨rfl, fun _ => ⟨fun hf => ?_, fun _ => rfl⟩, rfl, fun e => absurd e Bool.false_ne_true,
    fun e => ?_, fun e => absurd e Bool.false_ne_true,
    fun _ => ⟨WorkerPt.noConfusion, WorkerPt.noConfusion⟩⟩, MainPt.noConfusion⟩
  · exact absurd hf
      (Headless.not_failed_of_worker rfl WorkerPt.noConfusion WorkerPt.noConfusion)
  · rcases e with e | e
    · exact WorkerPt.noConfusion e
    · exact WorkerPt.noConfusion e

/-- **How the client ends.**  However the two threads interleave: `main` does not sleep on after the
report; `vpn_engine_cleanup` is called at most once, by `main` on a session after the thread has left,
or by the thread when its start fails; the process ends with `0` after the call of `main`, and with `1`
when there was no thread, or when the start has failed and been cleaned up after. -/
theorem headless_exit {l : List HeadlessAct} {s : Headless}
    (hs : exec Headless.step Headless.init l = some s) :
    (s.main = .asleep → s.done = false) ∧
    (s.cleanups = [] ∨ s.cleanups = [(.main, true)] ∧ s.worker = .ended ∧ s.main = .exited 0 ∨
      ∃ session, s.cleanups = [(.engine, session)] ∧ s.ctx = false) ∧
    ∀ code, s.main = .exited code → (code = 0 ∧ s.cleanups = [(.main, true)]) ∨
      (code = 1 ∧ ((s.worker = .unborn ∧ s.cleanups = []) ∨
        (s.worker = .ended ∧ s.ctx = false ∧ ∃ session, s.cleanups = [(.engine, session)]))) := by
  have h := exec_inv (fun _ _ _ hi hst => Headless.step_inv hi hst) Headless.init_live.inv hs
  have hA := h.allows
  refine ⟨fun hm => ?_, ?_, fun code hm => ?_⟩
  · rw [hm] at hA
    exact hA.2
  · by_cases hm : s.main = .exited 0
    · rw [hm] at hA
      rcases hA with ⟨-, hw, hcl⟩ | ⟨hc, -⟩
      · exact Or.inr (Or.inl ⟨hcl, hw, hm⟩)
      · exact absurd hc (by decide)
    · by_cases hf : s.Failed
      · obtain ⟨session, hcl⟩ := (h.calls hm).1 hf
        exact Or.inr (Or.inr ⟨session, hcl, hf.1⟩)
      · exact Or.inl ((h.calls hm).2 hf)
  · rw [hm] at hA
    rcases hA with ⟨hc, -, hcl⟩ | ⟨rfl, hw⟩
    · exact Or.inl ⟨hc, hcl⟩
    · have hcalls := h.calls (by rw [hm]; decide)
      refine Or.inr ⟨rfl, ?_⟩
      rcases hw with hw | ⟨hw, hctx⟩
      · exact Or.inl ⟨hw, hcalls.2
          (Headless.not_failed_of_worker hw WorkerPt.noConfusion WorkerPt.noConfusion)⟩
      · exact Or.inr ⟨hw, hctx, hcalls.1 ⟨hctx, Or.inr hw⟩⟩

/-- **Whether it can be stopped.**  After any run, the process can still come to its end if and only if
`main` has not cleared `vpn_engine_running` in the moment between the report of the thread and its
setting it. -/
theorem headless_stops_iff {l : List HeadlessAct} {s : Headless}
    (hs : exec Headless.step Headless.init l = some s) :
    (∃ l' u, exec Headless.step s l' = some u ∧ u.Over) ↔
      Along Headless.step ClearsAfterRaise Headless.init l := by
  refine exec_iff_along (I := Headless.Live) (D := Headless.Doomed)
    (Q := fun s => ∃ l' u, exec Headless.step s l' = some u ∧ u.Over)
    (fun _ _ _ h hC hst => h.step hC hst) (fun _ _ _ _ hC hst => Headless.cleared_early hC hst)
    (fun _ _ _ h hst => h.step hst) Headless.init_live hs (fun h => ?_) fun h => ?_
  · exact exec_of_rank Headless.rank (fun _ hi ho => hi.closer ho) h
  · rintro ⟨l', u, hu, ho⟩
    exact (exec_inv (fun _ _ _ hd hst => Headless.Doomed.step hd hst) h hu).not_over ho

/-- a client that is started and stopped -/
def startAndStop : List HeadlessAct :=
  [.main true, .main true, .worker .session, .worker .session, .main true, .main true,
    .worker .session, .main true, .main true, .worker .session, .main true, .main true]

/-- the engine does not start -/
def startFails : List HeadlessAct :=
  [.main true, .main true, .worker .failed, .worker .failed, .worker .failed, .main true, .main true,
    .main true]

/-- `vpn_engine_cleanup` is called by `main` in the one run, and by the thread in the other -/
theorem headless_exit_stopped :
    (∃ s, exec Headless.step Headless.init startAndStop = some s ∧ s.main = .exited 0 ∧
      s.cleanups = [(.main, true)]) ∧
    ∃ s session, exec Headless.step Headless.init startFails = some s ∧ s.main = .exited 1 ∧
      s.cleanups = [(.engine, session)] := by
  obtain ⟨s, hs, hm⟩ := Option.map_eq_some_iff.mp (show (exec Headless.step Headless.init
    startAndStop).map Headless.main = some (.exited 0) by decide)
  obtain ⟨t, ht, e⟩ := Option.map_eq_some_iff.mp (show (exec Headless.step Headless.init
    startFails).map (fun s => (s.main, s.worker)) = some (.exited 1, .ended) by decide)
  obtain ⟨htm, htw⟩ := Prod.mk.inj e
  refine ⟨⟨s, hs, hm, ?_⟩, ?_⟩
  · rcases (headless_exit hs).2.2 0 hm with ⟨-, h⟩ | ⟨h, -⟩
    · exact h
    · exact absurd h (by decide)
  · rcases (headless_exit ht).2.2 1 htm with ⟨h, -⟩ | ⟨-, ⟨hw, -⟩ | ⟨-, -, session, h⟩⟩
    · exact absurd h (by decide)
    · exact WorkerPt.noConfusion (hw.symm.trans htw)
    · exact ⟨t, session, ht, htm, h⟩

/-- the signal comes right after the report: the thread sets `running` again, and nothing ends -/
theorem headless_stops_iff_early : ∃ s, exec Headless.step Headless.init
      [.main true, .main true, .worker .session, .worker .session, .main true, .main true,
        .main true, .main true] = some s ∧
    ¬ ∃ l' u, exec Headless.step s l' = some u ∧ u.Over := by
  obtain ⟨s, hs⟩ := Option.isSome_iff_exists.mp (show (exec Headless.step Headless.init
      [.main true, .main true, .worker .session, .worker .session, .main true, .main true,
        .main true, .main true]).isSome = true by decide)
  refine ⟨s, hs, fun h => ?_⟩
  have hal := (headless_stops_iff hs).mp h
  exact absurd hal (by decide)

end QuicVpn
