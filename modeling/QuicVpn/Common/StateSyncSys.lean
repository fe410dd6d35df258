import Mathlib.Logic.Function.Basic
import Mathlib.Data.Nat.Notation
import QuicVpn.Lib.Exec
import QuicVpn.Common.StateSync

/-!
# state_sync under any number of threads

The threads `T` call the five waits and `state_sync_set` as they like.  A step of the system is one
section under the mutex:

* `call t w clock`   thread `t` calls the wait `w` and runs its first section;
* `wake t rc`        `pthread_cond_wait` or `pthread_cond_timedwait` returns `rc` to `t`, after a
                     broadcast, by a timeout or for no reason, and the loop turns;
* `set t v`          `state_sync_set`, whose broadcast wakes every sleeping thread.

`SyncWait.cond` is what a wait is for, and `returns` records the value that each wait has returned
in.  The main result is `syncSys_wakes`.
-/

set_option linter.unusedSectionVars false

namespace QuicVpn
open Conc

/-- a call of one of the five waits -/
inductive SyncWait (σ : Type) where
  | wait (target : σ)
  | waitForAny (a b : σ)
  | waitWhile (v : σ)
  | waitMs (target : σ)
  | waitMsAbort (target abort : σ)
  deriving DecidableEq, Repr

section
variable {σ : Type} [DecidableEq σ]

/-- the wake condition of a wait -/
def SyncWait.cond : SyncWait σ → σ → Prop
  | .wait target, s => s = target
  | .waitForAny a b, s => s = a ∨ s = b
  | .waitWhile v, s => s ≠ v
  | .waitMs target, s => s = target
  | .waitMsAbort target abort, s => s = target ∨ s = abort

def SyncWait.timed : SyncWait σ → Bool
  | .waitMs _ => true
  | .waitMsAbort _ _ => true
  | _ => false

/-- from the call to the return or the first sleep -/
def SyncWait.first : SyncWait σ → σ → Bool → Option ℤ
  | .wait target, s, _ => stateSyncWait s target
  | .waitForAny a b, s, _ => stateSyncWaitForAny s a b
  | .waitWhile v, s, _ => stateSyncWaitWhile s v
  | .waitMs target, s, clock => stateSyncWaitMs s target clock
  | .waitMsAbort target abort, s, clock => stateSyncWaitMsAbort s target abort clock

/-- from the end of a sleep to the return or the next sleep -/
def SyncWait.again : SyncWait σ → σ → ℤ → Option ℤ
  | .wait target, s, _ => stateSyncWait s target
  | .waitForAny a b, s, _ => stateSyncWaitForAny s a b
  | .waitWhile v, s, _ => stateSyncWaitWhile s v
  | .waitMs target, s, rc => stateSyncWaitMsWake s target rc
  | .waitMsAbort target abort, s, rc => stateSyncWaitMsAbortWake s target abort rc

/-! ## a wait and its condition -/

theorem stateSyncWaitLoop_none {s target abort : σ} (h : stateSyncWaitLoop s target abort = none) :
    ¬ (s = target ∨ s = abort) := by
  unfold stateSyncWaitLoop at h
  split at h
  · cases h
  · rename_i ht
    split at h
    · cases h
    · rename_i ha
      rintro (e | e)
      · exact ht e
      · exact ha e

theorem stateSyncWait_none {s target : σ} (h : stateSyncWait s target = none) : s ≠ target := by
  intro e
  rw [stateSyncWait, if_neg (not_not_intro e)] at h
  cases h

/-- a wait goes to sleep only where its condition is false -/
theorem SyncWait.first_none {w : SyncWait σ} {s : σ} {c : Bool}
    (h : w.first s c = none) : ¬ w.cond s := by
  cases w with
  | wait target => exact stateSyncWait_none h
  | waitForAny a b =>
    have h' : (if s ≠ a ∧ s ≠ b then none else some (0 : ℤ)) = none := h
    split at h'
    · rename_i hn
      rintro (e | e)
      · exact hn.1 e
      · exact hn.2 e
    · cases h'
  | waitWhile v =>
    intro hc
    have h' : (if s = v then none else some (0 : ℤ)) = none := h
    rw [if_neg hc] at h'
    cases h'
  | waitMs target =>
    cases c with
    | false => cases h
    | true => exact stateSyncWait_none h
  | waitMsAbort target abort =>
    have h' : stateSyncWaitMsAbort s target abort c = none := h
    unfold stateSyncWaitMsAbort at h'
    split at h'
    · cases h'
    · split at h'
      · cases h'
      · cases c with
        | false => cases h'
        | true => exact stateSyncWaitLoop_none h'

theorem SyncWait.again_none {w : SyncWait σ} {s : σ} {rc : ℤ}
    (h : w.again s rc = none) : ¬ w.cond s := by
  cases w with
  | wait target => exact SyncWait.first_none (w := .wait target) (c := true) h
  | waitForAny a b => exact SyncWait.first_none (w := .waitForAny a b) (c := true) h
  | waitWhile v => exact SyncWait.first_none (w := .waitWhile v) (c := true) h
  | waitMs target =>
    have h' : (if rc ≠ 0 then some etimedout else stateSyncWait s target) = none := h
    split at h'
    · cases h'
    · exact stateSyncWait_none h'
  | waitMsAbort target abort =>
    have h' : stateSyncWaitMsAbortWake s target abort rc = none := h
    unfold stateSyncWaitMsAbortWake at h'
    split at h'
    · split at h'
      · cases h'
      · split at h' <;> cases h'
    · exact stateSyncWaitLoop_none h'

/-- an untimed wait returns only where its condition is true -/
theorem SyncWait.first_some {w : SyncWait σ} {s : σ} {c : Bool} {rc : ℤ}
    (hw : w.timed = false) (h : w.first s c = some rc) : w.cond s := by
  cases w with
  | wait target =>
    have h' : (if s ≠ target then none else some (0 : ℤ)) = some rc := h
    by_contra hn
    have hne : s ≠ target := hn
    rw [if_pos hne] at h'
    cases h'
  | waitForAny a b =>
    have h' : (if s ≠ a ∧ s ≠ b then none else some (0 : ℤ)) = some rc := h
    by_contra hn
    rw [if_pos (not_or.mp hn)] at h'
    cases h'
  | waitWhile v =>
    intro e
    have h' : (if s = v then none else some (0 : ℤ)) = some rc := h
    rw [if_pos e] at h'
    cases h'
  | waitMs target => cases hw
  | waitMsAbort target abort => cases hw

theorem SyncWait.again_some {w : SyncWait σ} {s : σ} {rc r : ℤ}
    (hw : w.timed = false) (h : w.again s rc = some r) : w.cond s := by
  cases w with
  | wait target => exact SyncWait.first_some (c := true) hw h
  | waitForAny a b => exact SyncWait.first_some (c := true) hw h
  | waitWhile v => exact SyncWait.first_some (c := true) hw h
  | waitMs target => cases hw
  | waitMsAbort target abort => cases hw

end

/-! ## the system -/

/-- where a thread is; `woken`: a broadcast has come since it went to sleep -/
inductive SyncPc (σ : Type) where
  | idle
  | asleep (w : SyncWait σ)
  | woken (w : SyncWait σ)
  deriving DecidableEq, Repr

/-- a return from a wait, with the value it was decided in -/
structure SyncReturn (σ : Type) where
  wait : SyncWait σ
  rc : ℤ
  state : σ

structure SyncSys (σ T : Type) where
  state : σ
  pc : T → SyncPc σ
  returns : List (SyncReturn σ)

inductive SyncAct (σ T : Type) where
  | call (t : T) (w : SyncWait σ) (clock : Bool)
  | wake (t : T) (rc : ℤ)
  | set (t : T) (v : σ)

def SyncPc.broadcast {σ : Type} : SyncPc σ → SyncPc σ
  | .asleep w => .woken w
  | p => p

/-- the wait that a thread sleeps in -/
def SyncPc.sleeps {σ : Type} : SyncPc σ → Option (SyncWait σ)
  | .asleep w => some w
  | .woken w => some w
  | .idle => none

section
variable {σ T : Type} [DecidableEq σ] [DecidableEq T]

/-- end of a section of the wait `w` -/
def SyncSys.after (s : SyncSys σ T) (t : T) (w : SyncWait σ) : Option ℤ → SyncSys σ T
  | some rc => { s with pc := Function.update s.pc t .idle, returns := ⟨w, rc, s.state⟩ :: s.returns }
  | none => { s with pc := Function.update s.pc t (.asleep w) }

def SyncSys.step (s : SyncSys σ T) : SyncAct σ T → Option (SyncSys σ T)
  | .call t w clock =>
    if s.pc t = .idle then some (s.after t w (w.first s.state clock)) else none
  | .wake t rc =>
    match (s.pc t).sleeps with
    | some w =>
      -- an error of the untimed `pthread_cond_wait` is fatal
      if w.timed = true ∨ rc = 0 then some (s.after t w (w.again s.state rc)) else none
    | none => none
  | .set t v =>
    if s.pc t = .idle then
      let r := stateSyncSet s.state v
      some { s with state := r.1, pc := if r.2 then fun u => (s.pc u).broadcast else s.pc }
    else none

def SyncSys.init (v : σ) : SyncSys σ T := ⟨v, fun _ => .idle, []⟩

/-- a thread that sleeps and has not been woken waits for something that is false -/
def SyncSys.NoLostWakeup (s : SyncSys σ T) : Prop :=
  ∀ t w, s.pc t = .asleep w → ¬ w.cond s.state

/-- the untimed waits have returned where their conditions were true -/
def SyncSys.ReturnsOk (s : SyncSys σ T) : Prop :=
  ∀ r ∈ s.returns, r.wait.timed = false → r.wait.cond r.state

/-- one section of a wait, whatever it was called from -/
theorem SyncSys.after_ok {s : SyncSys σ T} {t : T} {w : SyncWait σ} {r : Option ℤ}
    (hnone : r = none → ¬ w.cond s.state)
    (hsome : ∀ rc, r = some rc → w.timed = false → w.cond s.state)
    (h : s.NoLostWakeup ∧ s.ReturnsOk) : (s.after t w r).NoLostWakeup ∧ (s.after t w r).ReturnsOk := by
  obtain ⟨hs, hr⟩ := h
  cases r with
  | some rc =>
    constructor
    · intro u x hx
      have hx' : Function.update s.pc t .idle u = .asleep x := hx
      by_cases hu : u = t
      · subst hu
        rw [Function.update_self] at hx'
        cases hx'
      · rw [Function.update_of_ne hu] at hx'
        exact hs u x hx'
    · intro x hx hw
      rcases List.mem_cons.mp hx with rfl | hx
      · exact hsome rc rfl hw
      · exact hr x hx hw
  | none =>
    refine ⟨?_, hr⟩
    intro u x hx
    have hx' : Function.update s.pc t (.asleep w) u = .asleep x := hx
    by_cases hu : u = t
    · subst hu
      rw [Function.update_self] at hx'
      cases hx'
      exact hnone rfl
    · rw [Function.update_of_ne hu] at hx'
      exact hs u x hx'

theorem SyncPc.broadcast_ne {p : SyncPc σ} {w : SyncWait σ} : p.broadcast ≠ .asleep w := by
  cases p <;> exact nofun

theorem SyncSys.step_ok (s : SyncSys σ T) (a : SyncAct σ T) (s' : SyncSys σ T)
    (h : s.NoLostWakeup ∧ s.ReturnsOk) (hs : s.step a = some s') :
    s'.NoLostWakeup ∧ s'.ReturnsOk := by
  cases a with
  | call t w clock =>
    simp only [SyncSys.step, Option.ite_none_right_eq_some, Option.some.injEq] at hs
    obtain ⟨_, rfl⟩ := hs
    exact SyncSys.after_ok SyncWait.first_none (fun rc e hw => SyncWait.first_some hw e) h
  | wake t rc =>
    simp only [SyncSys.step] at hs
    split at hs
    · rename_i w _
      simp only [Option.ite_none_right_eq_some, Option.some.injEq] at hs
      obtain ⟨_, rfl⟩ := hs
      exact SyncSys.after_ok SyncWait.again_none (fun _ e hw => SyncWait.again_some hw e) h
    · cases hs
  | set t v =>
    simp only [SyncSys.step, Option.ite_none_right_eq_some, Option.some.injEq] at hs
    obtain ⟨_, rfl⟩ := hs
    refine ⟨?_, h.2⟩
    -- no broadcast means that the value is the one the sleepers have seen
    by_cases hv : s.state = v
    · have e : stateSyncSet s.state v = (s.state, false) := if_neg (not_not_intro hv)
      rw [e]
      exact h.1
    · have e : stateSyncSet s.state v = (v, true) := if_pos hv
      rw [e]
      intro u w hu
      exact absurd hu SyncPc.broadcast_ne

/-- **No lost wake-up in state_sync.**  In every reachable state a thread that sleeps and has not
been woken waits for a condition that is false, and every untimed wait has returned in a state in
which its condition was true. -/
theorem syncSys_wakes (v : σ) (l : List (SyncAct σ T)) (s : SyncSys σ T)
    (h : exec SyncSys.step (SyncSys.init v) l = some s) : s.NoLostWakeup ∧ s.ReturnsOk := by
  refine exec_inv (I := fun s => s.NoLostWakeup ∧ s.ReturnsOk) SyncSys.step_ok ⟨?_, ?_⟩ h
  · intro t w hw
    cases hw
  · intro r hr
    cases hr

end

/-- three waits of different kinds sleep; the change to `2` wakes all of them, one goes back to
sleep, one had woken for no reason before -/
def threeWaits : List (SyncAct ℤ ℕ) :=
  [.call 0 (.wait 2) true, .call 1 (.waitWhile 0) true, .call 2 (.waitMsAbort 5 7) true, .wake 0 0,
    .set 3 2, .wake 1 0, .wake 2 0, .set 3 2, .wake 0 0]

theorem syncSys_wakes_threeWaits :
    ∃ s, exec SyncSys.step (SyncSys.init 0) threeWaits = some s ∧
      s.pc 2 = .asleep (.waitMsAbort 5 7) ∧ s.returns.length = 2 ∧
      s.NoLostWakeup ∧ s.ReturnsOk :=
  ⟨_, rfl, rfl, rfl, syncSys_wakes 0 threeWaits _ rfl⟩

end QuicVpn
