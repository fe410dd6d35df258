import QuicVpn.Common.Basic

/-!
# state_sync

A `state_sync_t` is a value under a mutex with a condition variable.  Every operation is a section
under the mutex, or several with sleeps in `pthread_cond_timedwait` between them; a section of a wait
either returns (`some` result, `0` where the function is `void`) or goes to sleep (`none`).

* `stateSyncSet`               the new value, and whether the waiting threads are woken;
* `stateSyncCheck`             the comparison of `state_sync_check`;
* `stateSyncWait`, `stateSyncWaitForAny`, `stateSyncWaitWhile`
                               the loop of an untimed wait up to the next `pthread_cond_wait`;
* `stateSyncWaitMs`            the first section of `state_sync_wait_ms`;
* `stateSyncWaitMsAbort`       the first section of `state_sync_wait_ms_abort`;
* `stateSyncWaitMsWake`, `stateSyncWaitMsAbortWake`
                               the section after `pthread_cond_timedwait` has returned.
-/

namespace QuicVpn

section
variable {σ : Type} [DecidableEq σ]

def stateSyncSet (s new : σ) : σ × Bool := if s ≠ new then (new, true) else (s, false)

theorem stateSyncSet_fst (s new : σ) : (stateSyncSet s new).1 = new := by
  unfold stateSyncSet
  by_cases h : s = new
  · rw [if_neg (not_not_intro h)]
    exact h
  · rw [if_pos h]

def stateSyncCheck (s v : σ) : Bool := s = v

def stateSyncWait (s target : σ) : Option ℤ := if s ≠ target then none else some 0

def stateSyncWaitForAny (s a b : σ) : Option ℤ := if s ≠ a ∧ s ≠ b then none else some 0

def stateSyncWaitWhile (s v : σ) : Option ℤ := if s = v then none else some 0

/-- `clock`: the time can be read and the timeout added to it, before the lock is taken -/
def stateSyncWaitMs (s target : σ) (clock : Bool) : Option ℤ :=
  if clock then stateSyncWait s target else some ecanceled

/-- `rc` is the result of `pthread_cond_timedwait`; the state is not read again after a timeout -/
def stateSyncWaitMsWake (s target : σ) (rc : ℤ) : Option ℤ :=
  if rc ≠ 0 then some etimedout else stateSyncWait s target

/-- the loop of `state_sync_wait_ms_abort` up to the next `pthread_cond_timedwait` -/
def stateSyncWaitLoop (s target abort : σ) : Option ℤ :=
  if s = target then some 0 else if s = abort then some econnaborted else none

/-- `clock`: the time can be read and the timeout added to it -/
def stateSyncWaitMsAbort (s target abort : σ) (clock : Bool) : Option ℤ :=
  if s = target then some 0
  else if s = abort then some econnaborted
  else if clock then stateSyncWaitLoop s target abort
  else some ecanceled

/-- `rc` is the result of `pthread_cond_timedwait`, which may return for no reason -/
def stateSyncWaitMsAbortWake (s target abort : σ) (rc : ℤ) : Option ℤ :=
  if rc ≠ 0 then
    -- the state once more, it may have changed right as the timer expired
    if s = target then some 0 else if s = abort then some econnaborted else some etimedout
  else stateSyncWaitLoop s target abort

theorem stateSyncWaitMsAbort_target (target abort : σ) (clock : Bool) :
    stateSyncWaitMsAbort target target abort clock = some 0 := by
  unfold stateSyncWaitMsAbort
  rw [if_pos rfl]

theorem stateSyncWaitMsAbort_abort {target abort : σ} (h : abort ≠ target) (clock : Bool) :
    stateSyncWaitMsAbort abort target abort clock = some econnaborted := by
  unfold stateSyncWaitMsAbort
  rw [if_neg h, if_pos rfl]

end

end QuicVpn
