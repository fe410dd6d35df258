import QuicVpn.Common.CondSync
import QuicVpn.Lib.History

/-!
# cond_sync as an event

What `cond_sync` does for its callers over a whole run of `CondSync.step`: the flag is an event of which
at most one can be outstanding.  A `cond_sync_signal` or `cond_sync_broadcast` that finds the flag reset
raises the event, one that finds it set is absorbed by it, and each return from `cond_sync_wait` consumes
one event.

* `CondSync.raised`, `CondSync.consumed`   the events of a step;
* `condSync_event`     the account of a run, and that no event is lost on a sleeping thread.
-/

set_option linter.unusedSectionVars false

namespace QuicVpn
open Conc

section
variable {T : Type} [Fintype T] [DecidableEq T]

namespace CondSync
variable {s s' : CondSync T}

/-- `cond_sync_signal` and `cond_sync_broadcast` that find the flag reset -/
def raised (s : CondSync T) : CondAct T → ℕ
  | .signal _ => if s.signaled then 0 else 1
  | .broadcast => if s.signaled then 0 else 1
  | _ => 0

/-- a pass through the loop of `cond_sync_wait` that finds the flag set, and returns -/
def consumed (s : CondSync T) : CondAct T → ℕ
  | .wait _ => if s.signaled then 1 else 0
  | .resume _ => if s.signaled then 1 else 0
  | _ => 0

/-- the outstanding event -/
def outstanding (s : CondSync T) : ℕ := if s.signaled then 1 else 0

/-- what a step does, with the place in the code that it is taken from -/
inductive Move (s : CondSync T) : CondAct T → CondSync T → Prop
  | wait {t : T} (ht : s.pc t = .out) : Move s (.wait t) (s.enter t)
  | resume {t : T} (ht : s.pc t = .woken) : Move s (.resume t) (s.enter t)
  | signalNone (hn : ∀ t, s.pc t ≠ .asleep) : Move s (.signal none) { s with signaled := true }
  | signal {t : T} (ht : s.pc t = .asleep) :
      Move s (.signal (some t)) ⟨true, Function.update s.pc t .woken⟩
  | broadcast : Move s .broadcast s.condSyncBroadcast
  | spurious {t : T} (ht : s.pc t = .asleep) :
      Move s (.spurious t) { s with pc := Function.update s.pc t .woken }

theorem step_move {a : CondAct T} (hs : s.step a = some s') : s.Move a s' := by
  cases a with
  | wait t =>
    obtain ⟨h, e⟩ := Option.ite_none_right_eq_some.mp hs
    cases e
    exact .wait h
  | resume t =>
    obtain ⟨h, e⟩ := Option.ite_none_right_eq_some.mp hs
    cases e
    exact .resume h
  | signal w =>
    cases w with
    | none =>
      obtain ⟨h, e⟩ := Option.ite_none_right_eq_some.mp hs
      cases e
      exact .signalNone h
    | some t =>
      obtain ⟨h, e⟩ := Option.ite_none_right_eq_some.mp hs
      cases e
      exact .signal h
  | broadcast =>
    cases hs
    exact .broadcast
  | spurious t =>
    obtain ⟨h, e⟩ := Option.ite_none_right_eq_some.mp hs
    cases e
    exact .spurious h

/-- a pass through the loop consumes the outstanding event, if there is one -/
theorem enter_outstanding (t : T) : (s.enter t).outstanding + s.outstanding = s.outstanding := by
  unfold outstanding
  cases h : s.signaled with
  | false =>
    rw [enter_unset t h]
    rfl
  | true =>
    rw [enter_set t h]
    rfl

/-- a set flag is one event, whatever it was before -/
theorem raise_outstanding : 1 = s.outstanding + if s.signaled then 0 else 1 := by
  unfold outstanding
  cases s.signaled <;> rfl

theorem Move.events {a : CondAct T} (hm : s.Move a s') :
    s'.outstanding + s.consumed a = s.outstanding + s.raised a := by
  cases hm with
  | wait _ => exact enter_outstanding _
  | resume _ => exact enter_outstanding _
  | signalNone _ => exact raise_outstanding
  | signal _ => exact raise_outstanding
  | broadcast => exact raise_outstanding
  | spurious _ => rfl

/-- an outstanding event with a thread asleep has another thread on its way to consume it -/
def Heard (s : CondSync T) : Prop :=
  s.signaled = true → (∃ t, s.pc t = .asleep) → ∃ u, s.pc u = .woken

theorem enter_signaled (t : T) : (s.enter t).signaled = false := by
  cases h : s.signaled with
  | false => rw [enter_unset t h]
  | true => rw [enter_set t h]

/-- after a broadcast nobody is asleep -/
theorem condSyncBroadcast_ne_asleep (t : T) : s.condSyncBroadcast.pc t ≠ .asleep := by
  by_cases ht : s.pc t = .out
  · rw [condSyncBroadcast_out ht]
    nofun
  · rw [condSyncBroadcast_woken ht]
    nofun

theorem Move.heard {a : CondAct T} (hm : s.Move a s') : s.Heard → s'.Heard := by
  intro h
  cases hm with
  | @wait t _ =>
    intro hf
    cases (enter_signaled t).symm.trans hf
  | @resume t _ =>
    intro hf
    cases (enter_signaled t).symm.trans hf
  | signalNone hn =>
    rintro - ⟨t, ht⟩
    exact absurd ht (hn t)
  | @signal t _ => exact fun _ _ => ⟨t, Function.update_self ..⟩
  | broadcast =>
    rintro - ⟨t, ht⟩
    exact absurd ht (condSyncBroadcast_ne_asleep t)
  | @spurious t _ => exact fun _ _ => ⟨t, Function.update_self ..⟩

/-- `cond_sync_init` -/
def init : CondSync T := ⟨false, fun _ => .out⟩

end CondSync

/-- **Events.**  In every run from `cond_sync_init`, whatever the order of the steps and however often a
thread is woken for no reason: the returns from `cond_sync_wait` are exactly the signals and broadcasts
that found the flag reset, less the one that is still outstanding; and an outstanding event is never lost:
while it is there and a thread sleeps, some thread is awake and has its next look at the flag before it. -/
theorem condSync_event (l : List (CondAct T)) (s : CondSync T)
    (h : exec CondSync.step CondSync.init l = some s) :
    tally CondSync.step CondSync.consumed CondSync.init l + s.outstanding =
      tally CondSync.step CondSync.raised CondSync.init l ∧
    (s.signaled = true → (∃ t, s.pc t = .asleep) → ∃ u, s.pc u = .woken) := by
  constructor
  · have h0 : (CondSync.init : CondSync T).outstanding = 0 := rfl
    have h1 : s.outstanding + tally CondSync.step CondSync.consumed CondSync.init l =
        CondSync.init.outstanding + tally CondSync.step CondSync.raised CondSync.init l :=
      exec_tally (fun s a s' hs => (CondSync.step_move hs).events) h
    omega
  · exact exec_inv (I := CondSync.Heard) (fun s a s' hi hs => (CondSync.step_move hs).heard hi)
      (fun hf => absurd hf Bool.false_ne_true) h

end

/-- two threads wait, and two signals come before the first of them has the mutex again: they are one
event -/
theorem condSync_event_twoSignals :
    ∃ s, exec CondSync.step CondSync.init
        [.wait false, .wait true, .signal (some false), .signal (some true), .resume false,
          .resume true] = some s ∧
      tally CondSync.step CondSync.consumed CondSync.init
          [.wait false, .wait true, .signal (some false), .signal (some true), .resume false,
            .resume true] + s.outstanding = 1 := by
  refine ⟨_, rfl, ?_⟩
  exact (condSync_event _ _ rfl).1.trans rfl

end QuicVpn
