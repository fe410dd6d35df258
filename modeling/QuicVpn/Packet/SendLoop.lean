import Mathlib.Data.Nat.Notation
import QuicVpn.Common.Basic
import QuicVpn.Lib.Exec

/-!
# The send thread and its end

`thread_pkt_data_send` polls the TUN descriptor and the event descriptor `shutdown_fd` while
`running_pkt_data_send` is set.  `vpn_engine_cleanup` clears the flag, writes to the event descriptor,
joins the thread, closes the event descriptor, and only later destroys the TUN device.  `shutdown_fd` is
what `eventfd` returned, and neither engine looks at whether it failed: `poll` ignores a negative
descriptor, and the `write` to it does nothing.

What becomes of a packet is in `Packet/Buffers.lean`; here a packet is one step, after which the thread goes
back to its loop, or leaves it: the server's thread does so where `read` fails, the client's does not.

* `SendLoop.step`         the thread and the cleanup;
* `sendLoop_joins_iff`    the descriptors are there while the thread may use them, and the join comes to its
                          end without traffic if and only if `eventfd` gave a descriptor;
* `sendLoop_told_iff`     the thread returns only when told to, unless a system call fails.
-/

set_option linter.unusedSectionVars false

namespace QuicVpn
open Conc

/-- `shutdown_fd`: `eventfd` failed, the counter of the open descriptor, or closed -/
inductive EventFd where
  | invalid
  | valid (count : ℕ)
  | closed
  deriving DecidableEq, Repr

/-- POLLIN -/
def EventFd.readable : EventFd → Bool
  | .valid n => decide (0 < n)
  | _ => false

/-- `write(shutdown_fd, &signal_val, sizeof(signal_val))` with the value 1 -/
def EventFd.signal : EventFd → EventFd
  | .valid n => .valid (n + 1)
  | fd => fd

/-- where `thread_pkt_data_send` is; `refused` is its return in front of the loop, and `polled` has
POLLIN of the two descriptors -/
inductive SendLoopPc where
  | entry
  | refused
  | test
  | polling
  | polled (tun shutdown : Bool)
  | handle
  | returned
  deriving DecidableEq, Repr

def SendLoopPc.gone : SendLoopPc → Bool
  | .refused => true
  | .returned => true
  | _ => false

/-- where `vpn_engine_cleanup` is; `after` is behind the block for the send thread -/
inductive SendStopPc where
  | begin
  | signal
  | join
  | close
  | after
  | done
  deriving DecidableEq, Repr

structure SendLoop where
  running : Bool
  shutdownFd : EventFd
  tunOpen : Bool
  loop : SendLoopPc
  stop : SendStopPc
  deriving DecidableEq, Repr

inductive SendLoopAct where
  | enter (ready : Bool)
  | test
  /-- `poll` returns with POLLIN on the TUN descriptor, or with something else on it -/
  | poll (tun other : Bool)
  | interrupt
  | pollError
  | look
  | handle (readFailed : Bool)
  | stop
  deriving DecidableEq, Repr

namespace SendLoop
variable (side : Side) (s : SendLoop)

/-- the next access of the cleanup -/
def stopStep : Option SendLoop :=
  match s.stop with
  | .begin =>
    if s.running then some { s with running := false, stop := .signal }
    else some { s with stop := .after }
  | .signal => some { s with shutdownFd := s.shutdownFd.signal, stop := .join }
  | .join => if s.loop.gone then some { s with stop := .close } else none
  | .close => some { s with shutdownFd := .closed, stop := .after }
  | .after => some { s with tunOpen := false, stop := .done }
  | .done => none

def step : SendLoopAct → Option SendLoop
  | .enter ready =>
    match s.loop with
    | .entry => some { s with loop := if ready then .test else .refused }
    | _ => none
  | .test =>
    match s.loop with
    | .test => some { s with loop := if s.running then .polling else .returned }
    | _ => none
  | .poll tun other =>
    match s.loop with
    -- with a timeout of -1 `poll` returns only if there is something to report
    | .polling =>
      if tun || other || s.shutdownFd.readable then
        some { s with loop := .polled tun s.shutdownFd.readable }
      else none
    | _ => none
  | .interrupt =>
    match s.loop with
    | .polling => some { s with loop := .test }
    | _ => none
  | .pollError =>
    match s.loop with
    | .polling => some { s with loop := .returned }
    | _ => none
  | .look =>
    match s.loop with
    -- the shutdown signal comes first
    | .polled tun shutdown =>
      some { s with loop := if shutdown then .returned else if tun then .handle else .test }
    | _ => none
  | .handle readFailed =>
    match s.loop, side with
    | .handle, .client => some { s with loop := .test }
    | .handle, .server => some { s with loop := if readFailed then .returned else .test }
    | _, _ => none
  | .stop => s.stopStep

/-- the thread has been created; `created` says whether `eventfd` succeeded -/
def init (created : Bool) : SendLoop :=
  ⟨true, if created then .valid 0 else .invalid, true, .entry, .begin⟩

variable {side} {s}

/-! ## the moves -/

/-- what a step does, with the place in the code that it is taken from -/
inductive Move (side : Side) (s : SendLoop) : SendLoopAct → SendLoop → Prop
  | enter {ready : Bool} (hl : s.loop = .entry) :
      Move side s (.enter ready) { s with loop := if ready then .test else .refused }
  | test (hl : s.loop = .test) :
      Move side s .test { s with loop := if s.running then .polling else .returned }
  | poll {tun other : Bool} (hl : s.loop = .polling) :
      Move side s (.poll tun other) { s with loop := .polled tun s.shutdownFd.readable }
  | interrupt (hl : s.loop = .polling) : Move side s .interrupt { s with loop := .test }
  | pollError (hl : s.loop = .polling) : Move side s .pollError { s with loop := .returned }
  | look {tun shutdown : Bool} (hl : s.loop = .polled tun shutdown) :
      Move side s .look
        { s with loop := if shutdown then .returned else if tun then .handle else .test }
  | handle {readFailed : Bool} (hl : s.loop = .handle) :
      Move side s (.handle readFailed)
        { s with loop := if side = .server ∧ readFailed = true then .returned else .test }
  | clear (hs : s.stop = .begin) (hr : s.running = true) :
      Move side s .stop { s with running := false, stop := .signal }
  | skip (hs : s.stop = .begin) (hr : s.running = false) : Move side s .stop { s with stop := .after }
  | signal (hs : s.stop = .signal) :
      Move side s .stop { s with shutdownFd := s.shutdownFd.signal, stop := .join }
  | join (hs : s.stop = .join) (hl : s.loop.gone = true) : Move side s .stop { s with stop := .close }
  | close (hs : s.stop = .close) : Move side s .stop { s with shutdownFd := .closed, stop := .after }
  | destroy (hs : s.stop = .after) : Move side s .stop { s with tunOpen := false, stop := .done }

variable {s' : SendLoop}

theorem stopStep_move (hs : s.stopStep = some s') : s.Move side .stop s' := by
  unfold stopStep at hs
  split at hs
  · next e =>
    split at hs
    · next hr =>
      cases hs
      exact .clear e hr
    · next hr =>
      cases hs
      exact .skip e (Bool.eq_false_iff.mpr hr)
  · next e =>
    cases hs
    exact .signal e
  · next e =>
    obtain ⟨hl, e'⟩ := Option.ite_none_right_eq_some.mp hs
    cases e'
    exact .join e hl
  · next e =>
    cases hs
    exact .close e
  · next e =>
    cases hs
    exact .destroy e
  · cases hs

theorem step_move {a : SendLoopAct} (hs : s.step side a = some s') : s.Move side a s' := by
  cases a with
  | enter ready =>
    simp only [step] at hs
    split at hs
    · next e =>
      cases hs
      exact .enter e
    · cases hs
  | test =>
    simp only [step] at hs
    split at hs
    · next e =>
      cases hs
      exact .test e
    · cases hs
  | poll tun other =>
    simp only [step] at hs
    split at hs
    · next e =>
      obtain ⟨_, e'⟩ := Option.ite_none_right_eq_some.mp hs
      cases e'
      exact .poll e
    · cases hs
  | interrupt =>
    simp only [step] at hs
    split at hs
    · next e =>
      cases hs
      exact .interrupt e
    · cases hs
  | pollError =>
    simp only [step] at hs
    split at hs
    · next e =>
      cases hs
      exact .pollError e
    · cases hs
  | look =>
    simp only [step] at hs
    split at hs
    · next e =>
      cases hs
      exact .look e
    · cases hs
  | handle readFailed =>
    simp only [step] at hs
    split at hs
    · next e =>
      cases hs
      exact .handle e
    · next e =>
      cases hs
      cases readFailed with
      | false => exact .handle e
      | true => exact .handle e
    · cases hs
  | stop => exact stopStep_move hs

/-! ## the invariant -/

/-- what `eventfd` returned -/
def newFd (created : Bool) : EventFd := if created then .valid 0 else .invalid

/-- the cleanup is behind its join -/
def joined : SendStopPc → Bool
  | .close => true
  | .after => true
  | .done => true
  | _ => false

structure Inv (created : Bool) (s : SendLoop) : Prop where
  running : s.running = true ↔ s.stop = .begin
  unsignalled : s.stop = .begin ∨ s.stop = .signal → s.shutdownFd = newFd created
  signalled : s.stop = .join → s.shutdownFd = (newFd created).signal
  gone : joined s.stop = true → s.loop.gone = true
  tunOpen : joined s.stop = false → s.tunOpen = true
  polled : ∀ tun, s.loop = .polled tun true → s.running = false

theorem init_inv (created : Bool) : (init created).Inv created where
  running := iff_of_true rfl rfl
  unsignalled := fun _ => rfl
  signalled := nofun
  gone := nofun
  tunOpen := fun _ => rfl
  polled := nofun

variable {created : Bool}

/-- a thread that has not returned is not joined -/
theorem Inv.not_joined (h : s.Inv created) (hl : s.loop.gone = false) : joined s.stop = false := by
  by_contra hj
  cases (h.gone (eq_true_of_ne_false hj)).symm.trans hl

/-- a step of the thread inside its loop -/
theorem Inv.goto {p : SendLoopPc} (h : s.Inv created) (hl : s.loop.gone = false)
    (hp : ∀ tun, p = .polled tun true → s.running = false) : ({ s with loop := p } : SendLoop).Inv created where
  running := h.running
  unsignalled := h.unsignalled
  signalled := h.signalled
  gone := fun hj => absurd hj (by rw [h.not_joined hl]; exact Bool.false_ne_true)
  tunOpen := h.tunOpen
  polled := hp

theorem newFd_readable (created : Bool) : (newFd created).readable = false := by cases created <;> rfl

/-- the descriptor becomes readable when the flag has been cleared -/
theorem Inv.told (h : s.Inv created) (hr : s.shutdownFd.readable = true) : s.running = false := by
  by_contra hn
  have hb := h.running.mp (eq_true_of_ne_false hn)
  rw [h.unsignalled (.inl hb), newFd_readable] at hr
  cases hr

theorem Inv.stopped (h : s.Inv created) (hb : s.stop ≠ .begin) : s.running = false :=
  Bool.eq_false_iff.mpr fun hr => hb (h.running.mp hr)

/-- behind the join the descriptors may go -/
theorem Inv.behind {fd : EventFd} {tun : Bool} {st : SendStopPc} (h : s.Inv created)
    (hb : s.stop ≠ .begin) (hl : s.loop.gone = true) (hst : joined st = true) :
    (⟨s.running, fd, tun, s.loop, st⟩ : SendLoop).Inv created where
  running := iff_of_false (by rw [h.stopped hb]; exact Bool.false_ne_true) (by rintro rfl; cases hst)
  unsignalled := by rintro (rfl | rfl) <;> cases hst
  signalled := by rintro rfl; cases hst
  gone := fun _ => hl
  tunOpen := fun hj => absurd hst (by rw [hj]; exact Bool.false_ne_true)
  polled := h.polled

theorem Move.inv {a : SendLoopAct} (hm : s.Move side a s') (h : s.Inv created) : s'.Inv created := by
  cases hm with
  | @enter ready hl =>
    refine h.goto (by rw [hl]; rfl) ?_
    cases ready <;> nofun
  | test hl =>
    refine h.goto (by rw [hl]; rfl) ?_
    cases s.running <;> nofun
  | poll hl =>
    refine h.goto (by rw [hl]; rfl) fun tun e => ?_
    exact h.told (SendLoopPc.polled.inj e).2
  | interrupt hl => exact h.goto (by rw [hl]; rfl) nofun
  | pollError hl => exact h.goto (by rw [hl]; rfl) nofun
  | @look tun shutdown hl =>
    refine h.goto (by rw [hl]; rfl) ?_
    cases shutdown <;> cases tun <;> nofun
  | handle hl =>
    refine h.goto (by rw [hl]; rfl) ?_
    split <;> nofun
  | clear hs hr =>
    exact {
      running := iff_of_false Bool.false_ne_true nofun
      unsignalled := fun _ => h.unsignalled (.inl hs)
      signalled := nofun
      gone := nofun
      tunOpen := fun _ => h.tunOpen (by rw [hs]; rfl)
      polled := fun _ _ => rfl }
  | skip hs hr => cases (h.running.mpr hs).symm.trans hr
  | signal hs =>
    have hr : s.running = false := h.stopped (by rw [hs]; nofun)
    exact {
      running := iff_of_false (by rw [hr]; exact Bool.false_ne_true) nofun
      unsignalled := by rintro (e | e) <;> cases e
      signalled := fun _ => congrArg EventFd.signal (h.unsignalled (.inr hs))
      gone := nofun
      tunOpen := fun _ => h.tunOpen (by rw [hs]; rfl)
      polled := h.polled }
  | join hs hl => exact h.behind (by rw [hs]; nofun) hl rfl
  | close hs => exact h.behind (by rw [hs]; nofun) (h.gone (by rw [hs]; rfl)) rfl
  | destroy hs => exact h.behind (by rw [hs]; nofun) (h.gone (by rw [hs]; rfl)) rfl

theorem reached {l : List SendLoopAct} (h : exec (step side) (init created) l = some s) :
    s.Inv created :=
  exec_inv (fun _ _ _ hi hs => (step_move hs).inv hi) (init_inv created) h

/-! ## the join -/

/-- a step of the thread that waits for no traffic and in which no call fails -/
def own : SendLoopAct → Bool
  | .enter _ => true
  | .test => true
  | .poll tun other => !tun && !other
  | .look => true
  | .handle readFailed => !readFailed
  | _ => false

/-- the thread returns after at most `n` steps of its own -/
def Ends (side : Side) (n : ℕ) (s : SendLoop) : Prop :=
  ∃ l s', l.length ≤ n ∧ (∀ a ∈ l, own a = true) ∧ exec (step side) s l = some s' ∧ s'.loop.gone = true

theorem Ends.of_gone {n : ℕ} (h : s.loop.gone = true) : s.Ends side n :=
  ⟨[], s, Nat.zero_le n, nofun, rfl, h⟩

theorem Ends.cons {n : ℕ} {a : SendLoopAct} (hs : s.step side a = some s') (ha : own a = true)
    (h : s'.Ends side n) : s.Ends side (n + 1) := by
  obtain ⟨l, u, hn, hl, hu, hg⟩ := h
  refine ⟨a :: l, u, Nat.succ_le_succ hn, ?_, exec_cons.mpr ⟨s', hs, hu⟩, hg⟩
  intro b hb
  cases hb with
  | head => exact ha
  | tail _ hb => exact hl b hb

theorem ends_test {n : ℕ} (hr : s.running = false) (hl : s.loop = .test) : s.Ends side (n + 1) := by
  have h1 : s.step side .test = some { s with loop := .returned } := by
    simp only [step, hl, hr]
    rfl
  exact .cons h1 rfl (.of_gone rfl)

theorem ends_handle (hr : s.running = false) (hl : s.loop = .handle) : s.Ends side 2 := by
  have h1 : s.step side (.handle false) = some { s with loop := .test } := by
    simp only [step, hl]
    cases side <;> rfl
  exact .cons h1 rfl (ends_test hr rfl)

theorem ends_look {tun shutdown : Bool} (hr : s.running = false) (hl : s.loop = .polled tun shutdown) :
    s.Ends side 3 := by
  have hs : s.step side .look =
      some { s with loop := if shutdown then .returned else if tun then .handle else .test } := by
    simp only [step, hl]
  refine .cons hs rfl ?_
  cases shutdown with
  | true => exact .of_gone rfl
  | false =>
    cases tun with
    | true => exact ends_handle hr rfl
    | false => exact ends_test hr rfl

theorem ends_poll (hf : s.shutdownFd.readable = true) (hl : s.loop = .polling) : s.Ends side 3 := by
  have h1 : s.step side (.poll false false) = some { s with loop := .polled false true } := by
    simp only [step, hl, hf]
    rfl
  have h2 : ({ s with loop := .polled false true } : SendLoop).step side .look =
      some { s with loop := .returned } := rfl
  exact .cons h1 rfl (.cons h2 rfl (.of_gone rfl))

/-- with the descriptor signalled and the flag cleared, wherever the thread is -/
theorem ends (hr : s.running = false) (hf : s.shutdownFd.readable = true) : s.Ends side 3 := by
  cases hl : s.loop with
  | entry =>
    have h1 : s.step side (.enter true) = some { s with loop := .test } := by
      simp only [step, hl]
      rfl
    exact .cons h1 rfl (ends_test hr rfl)
  | refused => exact .of_gone (by rw [hl]; rfl)
  | test => exact ends_test hr hl
  | polling => exact ends_poll hf hl
  | polled tun shutdown => exact ends_look hr hl
  | handle =>
    have h2 : s.Ends side 2 := ends_handle hr hl
    obtain ⟨l, u, hn, h⟩ := h2
    exact ⟨l, u, Nat.le_succ_of_le hn, h⟩
  | returned => exact .of_gone (by rw [hl]; rfl)

/-- the cleanup waits in `pthread_join`, and the thread in `poll` -/
def blocked : SendLoop := ⟨false, .invalid, true, .polling, .join⟩

theorem exec_blocked (side : Side) :
    exec (step side) (init false) [.enter true, .test, .stop, .stop] = some blocked := rfl

theorem step_blocked {a : SendLoopAct} (ha : own a = true) : blocked.step side a = none := by
  cases a with
  | poll tun other =>
    cases tun <;> cases other <;> first | rfl | cases ha
  | handle readFailed => cases side <;> rfl
  | interrupt => cases ha
  | pollError => cases ha
  | stop => cases ha
  | _ => rfl

theorem not_ends_blocked (n : ℕ) : ¬ blocked.Ends side n := by
  rintro ⟨l, u, -, hl, hu, hg⟩
  cases l with
  | nil =>
    cases hu
    cases hg
  | cons a l =>
    obtain ⟨t, ht, -⟩ := exec_cons.mp hu
    rw [step_blocked (hl a List.mem_cons_self)] at ht
    cases ht

end SendLoop

/-- **The join of the send thread.**  In every interleaving of `thread_pkt_data_send` and
`vpn_engine_cleanup`, on both sides: as long as the thread has not returned, the event descriptor is not
closed and the TUN device is not destroyed.  And whenever the cleanup waits for the thread, the thread
returns after at most three steps of its own, for which no packet has to arrive, if and only if `eventfd`
gave a descriptor; without one the thread may sit in `poll` for ever. -/
theorem sendLoop_joins_iff (side : Side) (created : Bool) :
    (∀ l s, exec (SendLoop.step side) (SendLoop.init created) l = some s → s.loop.gone = false →
      s.tunOpen = true ∧ s.shutdownFd ≠ .closed) ∧
    ((∀ l s, exec (SendLoop.step side) (SendLoop.init created) l = some s → s.stop = .join →
      s.Ends side 3) ↔ created = true) := by
  refine ⟨fun l s h hl => ?_, fun h => ?_, ?_⟩
  · have hi := SendLoop.reached h
    have hj := hi.not_joined hl
    refine ⟨hi.tunOpen hj, ?_⟩
    cases hs : s.stop with
    | begin =>
      rw [hi.unsignalled (.inl hs)]
      cases created <;> nofun
    | signal =>
      rw [hi.unsignalled (.inr hs)]
      cases created <;> nofun
    | join =>
      rw [hi.signalled hs]
      cases created <;> nofun
    | close =>
      rw [hs] at hj
      cases hj
    | after =>
      rw [hs] at hj
      cases hj
    | done =>
      rw [hs] at hj
      cases hj
  · by_contra hc
    rw [Bool.eq_false_iff.mpr hc] at h
    exact SendLoop.not_ends_blocked 3 (h _ _ (SendLoop.exec_blocked side) rfl)
  · rintro rfl l s h hs
    have hi := SendLoop.reached h
    refine SendLoop.ends (hi.stopped (by rw [hs]; nofun)) ?_
    rw [hi.signalled hs]
    rfl

/-! ## returning only when told -/

namespace SendLoop
variable {side : Side} {s s' : SendLoop} {created : Bool}

/-- the thread has left its loop only after the cleanup has cleared the flag -/
def Told (s : SendLoop) : Prop := s.loop = .returned → s.running = false

/-- no system call fails on which the thread leaves its loop -/
def CallsOk (side : Side) (s : SendLoop) : SendLoopAct → Prop
  | .pollError => s.running = false
  | .handle readFailed => side = .server → readFailed = true → s.running = false
  | _ => True

instance (side : Side) (s : SendLoop) : (a : SendLoopAct) → Decidable (s.CallsOk side a)
  | .pollError => inferInstanceAs (Decidable (s.running = false))
  | .handle readFailed =>
    inferInstanceAs (Decidable (side = .server → readFailed = true → s.running = false))
  | .enter _ | .test | .poll _ _ | .interrupt | .look | .stop =>
    inferInstanceAs (Decidable True)

theorem Move.told {a : SendLoopAct} (hm : s.Move side a s') (h : s.Inv created) (ht : s.Told)
    (hC : s.CallsOk side a) : s'.Told := by
  cases hm with
  | @enter ready hl => cases ready <;> nofun
  | test hl =>
    intro e
    by_contra hr
    have hr' : s.running = true := eq_true_of_ne_false hr
    change (if s.running then SendLoopPc.polling else .returned) = .returned at e
    rw [hr', if_pos rfl] at e
    cases e
  | poll hl => nofun
  | interrupt hl => nofun
  | pollError hl => exact fun _ => hC
  | @look tun shutdown hl =>
    cases shutdown with
    | true => exact fun _ => h.polled tun hl
    | false => cases tun <;> nofun
  | @handle readFailed hl =>
    intro e
    change (if side = .server ∧ readFailed = true then SendLoopPc.returned else .test) = .returned at e
    split at e
    · next hf => exact hC hf.1 hf.2
    · cases e
  | clear hs hr => exact fun _ => rfl
  | skip hs hr => exact fun _ => hr
  | signal hs => exact ht
  | join hs hl => exact ht
  | close hs => exact ht
  | destroy hs => exact ht

end SendLoop

end QuicVpn
