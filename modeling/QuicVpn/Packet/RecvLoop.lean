import Mathlib.Data.Fintype.Option
import QuicVpn.Common.QueueSys

/-!
# The receive thread and its end

`thread_pkt_data_recv` pops `queue_pkt_data_recv` while `running_pkt_data_recv` is set, and leaves its
loop on `NULL`.  The `DATAGRAM_RECEIVED` callbacks push packets with `queue_try_push`, and
`vpn_engine_cleanup` clears the flag, pushes `NULL` with `queue_wait_push` and joins the thread.  Client
and server do the same here; what they do with a packet does not touch the queue.

The queue is the system of `Common/QueueSys.lean` with the parties `none` (the receive thread),
`some none` (the cleanup) and `some (some t)` (the callbacks).  The steps are

* `offer t x`, `refuse t`, `store t`, `post t`   a callback in `queue_try_push`;
* `enter ready`          the check of the TUN state before the loop;
* `loop`, `interrupt`    the next access of the receive thread, and `EINTR` in its `sem_wait`;
* `stop`, `stopInterrupt`   the same for the cleanup.

The main result is `recvLoop_slot_iff`, on whether the cleanup finds room for its `NULL`.
-/

set_option linter.unusedSectionVars false

namespace QuicVpn
open Conc

/-- where `thread_pkt_data_recv` is; `refused` is its return in front of the loop -/
inductive LoopPc (α : Type) where
  | entry
  | refused
  | test
  | wait
  | popping
  | popped
  | handle (x : α)
  | returned
  deriving DecidableEq, Repr

/-- where `vpn_engine_cleanup` is -/
inductive StopPc where
  | begin
  | wait
  | pushing
  | pushed
  | join
  | done
  deriving DecidableEq, Repr

structure RecvLoop (T α : Type) where
  q : QueueSys (Option (Option T)) α
  running : Bool
  loop : LoopPc α
  stop : StopPc

inductive LoopAct (T α : Type) where
  | offer (t : T) (x : α)
  | refuse (t : T)
  | store (t : T)
  | post (t : T)
  | enter (ready : Bool)
  | loop
  | interrupt
  | stop
  | stopInterrupt

/-- the thread has returned -/
def LoopPc.gone {α : Type} : LoopPc α → Bool
  | .refused => true
  | .returned => true
  | _ => false

section
variable {T α : Type} [Fintype T] [DecidableEq T]

/-- the next access of the receive thread -/
def RecvLoop.loopStep (s : RecvLoop T α) : Option (RecvLoop T α) :=
  match s.loop with
  | .test => some { s with loop := if s.running then .wait else .returned }
  | .wait => (s.q.step (.takePop none .wait)).map fun q => { s with q := q, loop := .popping }
  | .popping => (s.q.step (.pop none)).map fun q => { s with q := q, loop := .popped }
  | .popped =>
    match s.q.pc none with
    | .popped (some x) => (s.q.step (.postPush none)).map fun q => { s with q := q, loop := .handle x }
    -- `NULL` is the sentinel for thread joining
    | .popped none => (s.q.step (.postPush none)).map fun q => { s with q := q, loop := .returned }
    | _ => none
  | .handle _ => some { s with loop := .test }
  | _ => none

/-- the next access of the cleanup -/
def RecvLoop.stopStep (s : RecvLoop T α) : Option (RecvLoop T α) :=
  match s.stop with
  | .begin =>
    if s.running then some { s with running := false, stop := .wait }
    else some { s with stop := .done }
  | .wait =>
    (s.q.step (.takePush (some none) .wait none)).map fun q => { s with q := q, stop := .pushing }
  | .pushing => (s.q.step (.push (some none))).map fun q => { s with q := q, stop := .pushed }
  | .pushed => (s.q.step (.postPop (some none))).map fun q => { s with q := q, stop := .join }
  | .join => if s.loop.gone then some { s with stop := .done } else none
  | .done => none

def RecvLoop.step (s : RecvLoop T α) : LoopAct T α → Option (RecvLoop T α)
  | .offer t x =>
    (s.q.step (.takePush (some (some t)) .attempt (some x))).map fun q => { s with q := q }
  | .refuse t => (s.q.step (.failPush (some (some t)) .attempt)).map fun q => { s with q := q }
  | .store t => (s.q.step (.push (some (some t)))).map fun q => { s with q := q }
  | .post t => (s.q.step (.postPop (some (some t)))).map fun q => { s with q := q }
  | .enter ready =>
    match s.loop with
    | .entry => some { s with loop := if ready then .test else .refused }
    | _ => none
  | .loop => s.loopStep
  | .interrupt =>
    match s.loop with
    -- `queue_wait_pop` returns `NULL`, which is taken for the sentinel
    | .wait => (s.q.step (.failPop none .wait)).map fun q => { s with q := q, loop := .returned }
    | _ => none
  | .stop => s.stopStep
  | .stopInterrupt =>
    match s.stop with
    -- the result of `queue_wait_push` is not looked at
    | .wait => (s.q.step (.failPush (some none) .wait)).map fun q => { s with q := q, stop := .join }
    | _ => none

/-- the threads have been created, and nothing has been received -/
def RecvLoop.init (q : Queue α) : RecvLoop T α := ⟨QueueSys.init q, true, .entry, .begin⟩

/-! ## the moves -/

/-- what a step does, with the place in the code that it is taken from -/
inductive RecvLoop.Move (s : RecvLoop T α) : LoopAct T α → RecvLoop T α → Prop
  | offer {t : T} {x : α} {q : QueueSys (Option (Option T)) α}
      (hq : s.q.step (.takePush (some (some t)) .attempt (some x)) = some q) :
      Move s (.offer t x) { s with q := q }
  | refuse {t : T} {q : QueueSys (Option (Option T)) α}
      (hq : s.q.step (.failPush (some (some t)) .attempt) = some q) :
      Move s (.refuse t) { s with q := q }
  | store {t : T} {q : QueueSys (Option (Option T)) α}
      (hq : s.q.step (.push (some (some t))) = some q) : Move s (.store t) { s with q := q }
  | post {t : T} {q : QueueSys (Option (Option T)) α}
      (hq : s.q.step (.postPop (some (some t))) = some q) : Move s (.post t) { s with q := q }
  | enter (e : s.loop = .entry) (ready : Bool) :
      Move s (.enter ready) { s with loop := if ready then .test else .refused }
  | goOn (e : s.loop = .test) (hr : s.running = true) : Move s .loop { s with loop := .wait }
  | leave (e : s.loop = .test) (hr : s.running = false) : Move s .loop { s with loop := .returned }
  | take {q : QueueSys (Option (Option T)) α} (e : s.loop = .wait)
      (hq : s.q.step (.takePop none .wait) = some q) :
      Move s .loop { s with q := q, loop := .popping }
  | pop {q : QueueSys (Option (Option T)) α} (e : s.loop = .popping)
      (hq : s.q.step (.pop none) = some q) : Move s .loop { s with q := q, loop := .popped }
  | packet {q : QueueSys (Option (Option T)) α} {x : α} (e : s.loop = .popped)
      (hx : s.q.pc none = .popped (some x)) (hq : s.q.step (.postPush none) = some q) :
      Move s .loop { s with q := q, loop := .handle x }
  | sentinel {q : QueueSys (Option (Option T)) α} (e : s.loop = .popped)
      (hx : s.q.pc none = .popped none) (hq : s.q.step (.postPush none) = some q) :
      Move s .loop { s with q := q, loop := .returned }
  | handled {x : α} (e : s.loop = .handle x) : Move s .loop { s with loop := .test }
  | interrupt {q : QueueSys (Option (Option T)) α} (e : s.loop = .wait)
      (hq : s.q.step (.failPop none .wait) = some q) :
      Move s .interrupt { s with q := q, loop := .returned }
  | clear (e : s.stop = .begin) (hr : s.running = true) :
      Move s .stop { s with running := false, stop := .wait }
  | rest (e : s.stop = .begin) (hr : s.running = false) : Move s .stop { s with stop := .done }
  | takeSlot {q : QueueSys (Option (Option T)) α} (e : s.stop = .wait)
      (hq : s.q.step (.takePush (some none) .wait none) = some q) :
      Move s .stop { s with q := q, stop := .pushing }
  | pushNull {q : QueueSys (Option (Option T)) α} (e : s.stop = .pushing)
      (hq : s.q.step (.push (some none)) = some q) : Move s .stop { s with q := q, stop := .pushed }
  | postNull {q : QueueSys (Option (Option T)) α} (e : s.stop = .pushed)
      (hq : s.q.step (.postPop (some none)) = some q) : Move s .stop { s with q := q, stop := .join }
  | join (e : s.stop = .join) (hg : s.loop.gone = true) : Move s .stop { s with stop := .done }
  | stopInterrupt {q : QueueSys (Option (Option T)) α} (e : s.stop = .wait)
      (hq : s.q.step (.failPush (some none) .wait) = some q) :
      Move s .stopInterrupt { s with q := q, stop := .join }

section
variable {s s' : RecvLoop T α}

theorem RecvLoop.loopStep_move (hs : s.loopStep = some s') : s.Move .loop s' := by
  unfold RecvLoop.loopStep at hs
  cases e : s.loop with
  | test =>
    rw [e] at hs
    cases hs
    by_cases hr : s.running = true
    · rw [if_pos hr]
      exact .goOn e hr
    · rw [if_neg hr]
      exact .leave e (Bool.eq_false_iff.mpr hr)
  | wait =>
    rw [e] at hs
    obtain ⟨q, hq, rfl⟩ := Option.map_eq_some_iff.mp hs
    exact .take e hq
  | popping =>
    rw [e] at hs
    obtain ⟨q, hq, rfl⟩ := Option.map_eq_some_iff.mp hs
    exact .pop e hq
  | popped =>
    rw [e] at hs
    dsimp only at hs
    split at hs
    · rename_i hx
      obtain ⟨q, hq, rfl⟩ := Option.map_eq_some_iff.mp hs
      exact .packet e hx hq
    · rename_i hx
      obtain ⟨q, hq, rfl⟩ := Option.map_eq_some_iff.mp hs
      exact .sentinel e hx hq
    · cases hs
  | handle x =>
    rw [e] at hs
    cases hs
    exact .handled e
  | _ =>
    rw [e] at hs
    cases hs

theorem RecvLoop.stopStep_move (hs : s.stopStep = some s') : s.Move .stop s' := by
  unfold RecvLoop.stopStep at hs
  cases e : s.stop with
  | begin =>
    rw [e] at hs
    by_cases hr : s.running = true
    · rw [if_pos hr] at hs
      cases hs
      exact .clear e hr
    · rw [if_neg hr] at hs
      cases hs
      exact .rest e (Bool.eq_false_iff.mpr hr)
  | wait =>
    rw [e] at hs
    obtain ⟨q, hq, rfl⟩ := Option.map_eq_some_iff.mp hs
    exact .takeSlot e hq
  | pushing =>
    rw [e] at hs
    obtain ⟨q, hq, rfl⟩ := Option.map_eq_some_iff.mp hs
    exact .pushNull e hq
  | pushed =>
    rw [e] at hs
    obtain ⟨q, hq, rfl⟩ := Option.map_eq_some_iff.mp hs
    exact .postNull e hq
  | join =>
    rw [e] at hs
    simp only [Option.ite_none_right_eq_some, Option.some.injEq] at hs
    obtain ⟨hg, rfl⟩ := hs
    exact .join e hg
  | done =>
    rw [e] at hs
    cases hs

theorem RecvLoop.step_move {a : LoopAct T α} (hs : s.step a = some s') : s.Move a s' := by
  cases a with
  | offer t x =>
    obtain ⟨q, hq, rfl⟩ := Option.map_eq_some_iff.mp hs
    exact .offer hq
  | refuse t =>
    obtain ⟨q, hq, rfl⟩ := Option.map_eq_some_iff.mp hs
    exact .refuse hq
  | store t =>
    obtain ⟨q, hq, rfl⟩ := Option.map_eq_some_iff.mp hs
    exact .store hq
  | post t =>
    obtain ⟨q, hq, rfl⟩ := Option.map_eq_some_iff.mp hs
    exact .post hq
  | enter ready =>
    simp only [RecvLoop.step] at hs
    split at hs
    · rename_i e
      cases hs
      exact .enter e ready
    · cases hs
  | loop => exact RecvLoop.loopStep_move hs
  | interrupt =>
    simp only [RecvLoop.step] at hs
    split at hs
    · rename_i e
      obtain ⟨q, hq, rfl⟩ := Option.map_eq_some_iff.mp hs
      exact .interrupt e hq
    · cases hs
  | stop => exact RecvLoop.stopStep_move hs
  | stopInterrupt =>
    simp only [RecvLoop.step] at hs
    split at hs
    · rename_i e
      obtain ⟨q, hq, rfl⟩ := Option.map_eq_some_iff.mp hs
      exact .stopInterrupt e hq
    · cases hs

end

/-! ## room for the sentinel -/

/-- the cleanup waits for a free slot, none is there, and the receive thread has returned -/
def RecvLoop.Blocked (s : RecvLoop T α) : Prop :=
  s.stop = .wait ∧ s.q.q.pushSemaphore = 0 ∧ s.loop.gone = true

/-- while the cleanup waits, the receive thread does not return with all slots taken, and after its
return nobody takes the last slot -/
def RecvLoop.SlotOk (s : RecvLoop T α) : LoopAct T α → Prop
  | .offer _ _ => s.loop.gone = true → s.stop = .wait → s.q.q.pushSemaphore ≠ 1
  | .enter ready => ready = false → ¬ (s.stop = .wait ∧ s.q.q.pushSemaphore = 0)
  | .loop => s.loop = .test → s.running = false → ¬ (s.stop = .wait ∧ s.q.q.pushSemaphore = 0)
  | .interrupt => ¬ (s.stop = .wait ∧ s.q.q.pushSemaphore = 0)
  | .stop => s.stop = .begin → s.running = true → s.loop.gone = true → s.q.q.pushSemaphore ≠ 0
  | _ => True

instance [DecidableEq α] (s : RecvLoop T α) : ∀ a, Decidable (s.SlotOk a)
  | .offer _ _ => inferInstanceAs
      (Decidable (s.loop.gone = true → s.stop = .wait → s.q.q.pushSemaphore ≠ 1))
  | .enter ready => inferInstanceAs
      (Decidable (ready = false → ¬ (s.stop = .wait ∧ s.q.q.pushSemaphore = 0)))
  | .loop => inferInstanceAs (Decidable
      (s.loop = .test → s.running = false → ¬ (s.stop = .wait ∧ s.q.q.pushSemaphore = 0)))
  | .interrupt => inferInstanceAs (Decidable (¬ (s.stop = .wait ∧ s.q.q.pushSemaphore = 0)))
  | .stop => inferInstanceAs (Decidable
      (s.stop = .begin → s.running = true → s.loop.gone = true → s.q.q.pushSemaphore ≠ 0))
  | .refuse _ => .isTrue trivial
  | .store _ => .isTrue trivial
  | .post _ => .isTrue trivial
  | .stopInterrupt => .isTrue trivial

section
variable {s s' : RecvLoop T α}

theorem queueTakePush_pushSemaphore {q q' : Queue α} (h : queueTakePush q = some q') :
    q.pushSemaphore = q'.pushSemaphore + 1 := by
  unfold queueTakePush at h
  split at h
  · cases h
    show q.pushSemaphore = q.pushSemaphore - 1 + 1
    omega
  · cases h

theorem RecvLoop.not_blocked_of_stop (h : s.stop ≠ .wait) : ¬ s.Blocked := fun hb => h hb.1

theorem RecvLoop.not_blocked_of_loop (h : s.loop.gone = false) : ¬ s.Blocked := by
  rintro ⟨_, _, hg⟩
  rw [h] at hg
  cases hg

/-- **One step.**  A cleanup that is not blocked becomes so only by a step that the condition
excludes. -/
theorem RecvLoop.step_blocked {a : LoopAct T α} (hb : ¬ s.Blocked) (hs : s.step a = some s') :
    s'.Blocked ↔ ¬ s.SlotOk a := by
  -- elsewhere in their code the thread and the cleanup meet the condition
  have hloop : ∀ u : RecvLoop T α, s.loop ≠ .test → u.loop.gone = false →
      (u.Blocked ↔ ¬ s.SlotOk .loop) := fun u hne hg =>
    iff_of_false (RecvLoop.not_blocked_of_loop hg) (not_not_intro fun e => absurd e hne)
  have hstop : ∀ u : RecvLoop T α, s.stop ≠ .begin → u.stop ≠ .wait →
      (u.Blocked ↔ ¬ s.SlotOk .stop) := fun u hne hw =>
    iff_of_false (RecvLoop.not_blocked_of_stop hw) (not_not_intro fun e => absurd e hne)
  cases RecvLoop.step_move hs with
  | offer hq =>
    cases QueueSys.step_move hq with
    | takePush _ htake =>
      have hsem := queueTakePush_pushSemaphore htake
      rw [RecvLoop.SlotOk, Classical.not_imp, Classical.not_imp, not_not]
      constructor
      · rintro ⟨hst, hz, hg⟩
        exact ⟨hg, hst, by rw [hsem, hz]⟩
      · rintro ⟨hg, hst, hone⟩
        exact ⟨hst, by rw [hone] at hsem; exact (Nat.succ.inj hsem).symm, hg⟩
  | refuse hq =>
    cases QueueSys.step_move hq
    exact iff_of_false hb (not_not_intro trivial)
  | store hq =>
    cases QueueSys.step_move hq
    exact iff_of_false hb (not_not_intro trivial)
  | post hq =>
    cases QueueSys.step_move hq
    exact iff_of_false hb (not_not_intro trivial)
  | enter e ready =>
    cases ready with
    | true => exact iff_of_false (RecvLoop.not_blocked_of_loop rfl) (not_not_intro nofun)
    | false =>
      rw [RecvLoop.SlotOk, Classical.not_imp, not_not]
      constructor
      · rintro ⟨hst, hsem, _⟩
        exact ⟨rfl, hst, hsem⟩
      · rintro ⟨_, hst, hsem⟩
        exact ⟨hst, hsem, rfl⟩
  | goOn e hr =>
    refine iff_of_false (RecvLoop.not_blocked_of_loop rfl) (not_not_intro ?_)
    intro _ hr'
    rw [hr] at hr'
    cases hr'
  | leave e hr =>
    rw [RecvLoop.SlotOk, Classical.not_imp, Classical.not_imp, not_not]
    constructor
    · rintro ⟨hst, hsem, _⟩
      exact ⟨e, hr, hst, hsem⟩
    · rintro ⟨_, _, hst, hsem⟩
      exact ⟨hst, hsem, rfl⟩
  | take e hq => exact hloop _ (fun h => by cases e.symm.trans h) rfl
  | pop e hq => exact hloop _ (fun h => by cases e.symm.trans h) rfl
  | packet e hx hq => exact hloop _ (fun h => by cases e.symm.trans h) rfl
  | sentinel e hx hq =>
    refine iff_of_false ?_ (not_not_intro fun h => by cases e.symm.trans h)
    -- behind the sentinel there is a free slot
    cases QueueSys.step_move hq
    rintro ⟨_, hsem, _⟩
    exact absurd hsem (Nat.succ_ne_zero _)
  | handled e => exact hloop _ (fun h => by cases e.symm.trans h) rfl
  | interrupt e hq =>
    cases QueueSys.step_move hq
    rw [RecvLoop.SlotOk, not_not]
    constructor
    · rintro ⟨hst, hsem, _⟩
      exact ⟨hst, hsem⟩
    · rintro ⟨hst, hsem⟩
      exact ⟨hst, hsem, rfl⟩
  | clear e hr =>
    rw [RecvLoop.SlotOk, Classical.not_imp, Classical.not_imp, Classical.not_imp, not_not]
    constructor
    · rintro ⟨_, hsem, hg⟩
      exact ⟨e, hr, hg, hsem⟩
    · rintro ⟨_, _, hg, hsem⟩
      exact ⟨rfl, hsem, hg⟩
  | rest e hr =>
    refine iff_of_false (RecvLoop.not_blocked_of_stop StopPc.noConfusion) (not_not_intro ?_)
    intro _ hr'
    rw [hr] at hr'
    cases hr'
  | takeSlot e hq => exact hstop _ (fun h => by cases e.symm.trans h) StopPc.noConfusion
  | pushNull e hq => exact hstop _ (fun h => by cases e.symm.trans h) StopPc.noConfusion
  | postNull e hq => exact hstop _ (fun h => by cases e.symm.trans h) StopPc.noConfusion
  | join e hg => exact hstop _ (fun h => by cases e.symm.trans h) StopPc.noConfusion
  | stopInterrupt e hq =>
    exact iff_of_false (RecvLoop.not_blocked_of_stop StopPc.noConfusion) (not_not_intro trivial)

end

/-- **Room for the sentinel.**  In a run, whatever the queue is at its beginning, the cleanup is never
blocked in `queue_wait_push` after the return of the receive thread if and only if every step of the
run meets the condition: while the cleanup waits for a slot the receive thread does not return with all
slots taken, after its return no callback takes the last free slot from the waiting cleanup, and the
cleanup does not begin to wait behind a full queue that nobody empties. -/
theorem recvLoop_slot_iff (q : Queue α) (l : List (LoopAct T α)) (s : RecvLoop T α)
    (hs : exec RecvLoop.step (RecvLoop.init q) l = some s) :
    Always RecvLoop.step (fun s => ¬ s.Blocked) (RecvLoop.init q : RecvLoop T α) l ↔
      Along RecvLoop.step RecvLoop.SlotOk (RecvLoop.init q : RecvLoop T α) l := by
  refine always_iff_along (I := fun s => ¬ s.Blocked) (fun _ h => h) ?_ ?_ ?_ hs
  · intro s a s' hb hC hs hb'
    exact (RecvLoop.step_blocked hb hs).mp hb' hC
  · intro s a s' hb hC hs hn
    exact hn ((RecvLoop.step_blocked hb hs).mpr hC)
  · exact RecvLoop.not_blocked_of_stop nofun

end

/-- a queue with one cell -/
def oneCell : Queue ℕ := ⟨1, fun _ => none, 0, 0, 0, 1, 0⟩

/-- a packet is pushed and popped, and the cleanup sends its sentinel -/
def stopInOrder : List (LoopAct Unit ℕ) :=
  [.enter true, .loop, .offer () 5, .store (), .post (), .refuse (), .loop, .loop, .loop, .loop, .loop,
    .stop, .stop, .stop, .stop, .loop, .loop, .loop, .stop]

theorem recvLoop_slot_iff_stopInOrder :
    ∃ s, exec RecvLoop.step (RecvLoop.init oneCell) stopInOrder = some s ∧ s.stop = .done ∧
      s.q.removed = [some 5, none] ∧
      Along RecvLoop.step RecvLoop.SlotOk (RecvLoop.init oneCell) stopInOrder ∧
      Always RecvLoop.step (fun s => ¬ s.Blocked) (RecvLoop.init oneCell) stopInOrder := by
  have hC : Along RecvLoop.step RecvLoop.SlotOk (RecvLoop.init oneCell) stopInOrder := by decide
  exact ⟨_, rfl, rfl, rfl, hC, (recvLoop_slot_iff oneCell stopInOrder _ rfl).mpr hC⟩

/-- the queue is full when the cleanup clears the flag; the receive thread sees the flag and returns
without emptying it -/
theorem sentinel_finds_no_slot :
    ∃ s, exec RecvLoop.step (RecvLoop.init oneCell : RecvLoop Unit ℕ)
        [.offer () 5, .store (), .post (), .enter true, .stop, .loop] = some s ∧ s.Blocked :=
  ⟨_, rfl, rfl, rfl, rfl⟩

end QuicVpn
