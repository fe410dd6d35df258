import Mathlib.Data.Fintype.Basic
import QuicVpn.Lib.Exec

/-!
# cond_sync

A `cond_sync_t` is a flag under a mutex with a condition variable.  Every operation is a section under
the mutex, and `cond_sync_wait` sleeps in `pthread_cond_wait` between two sections.  A wait that finds
the flag set resets it on its way out.

* `condSyncWait`         the loop of `cond_sync_wait` up to the next `pthread_cond_wait`;
* `CondSync.step`        any number of threads `T`;
* `exec_resume_unset`, `exec_resume_set`
                         what becomes of woken threads, whatever order they come in;
* `broadcast_releases_iff`   a broadcast releases all waiting threads only if there is at most one.
-/

set_option linter.unusedSectionVars false

namespace QuicVpn
open Conc

/-- where a thread is: not in `cond_sync_wait`, asleep in `pthread_cond_wait`, or woken there and
waiting for the mutex -/
inductive CondPc where
  | out
  | asleep
  | woken
  deriving DecidableEq, Repr

structure CondSync (T : Type) where
  signaled : Bool
  pc : T → CondPc

inductive CondAct (T : Type) where
  | wait (t : T)
  | resume (t : T)
  | signal (w : Option T)
  | broadcast
  | spurious (t : T)

/-- the loop of `cond_sync_wait` with the mutex held: the flag, and where the thread is afterwards -/
def condSyncWait (signaled : Bool) : Bool × CondPc :=
  if !signaled then (signaled, .asleep) else (false, .out)

section
variable {T : Type} [Fintype T] [DecidableEq T]

namespace CondSync
variable (s : CondSync T)

/-- a thread goes through the loop -/
def enter (t : T) : CondSync T :=
  ⟨(condSyncWait s.signaled).1, Function.update s.pc t (condSyncWait s.signaled).2⟩

/-- `pthread_cond_broadcast`: every sleeping thread is woken -/
def condSyncBroadcast : CondSync T :=
  ⟨true, fun t => if s.pc t = .asleep then .woken else s.pc t⟩

/-- `pthread_cond_signal` wakes the thread `w`, if there is one asleep -/
def condSyncSignal (w : Option T) : CondSync T :=
  match w with
  | none => { s with signaled := true }
  | some t => ⟨true, Function.update s.pc t .woken⟩

def step : CondAct T → Option (CondSync T)
  | .wait t => if s.pc t = .out then some (s.enter t) else none
  | .resume t => if s.pc t = .woken then some (s.enter t) else none
  | .signal none => if ∀ t, s.pc t ≠ .asleep then some (s.condSyncSignal none) else none
  | .signal (some t) => if s.pc t = .asleep then some (s.condSyncSignal (some t)) else none
  | .broadcast => some s.condSyncBroadcast
  | .spurious t => if s.pc t = .asleep then some { s with pc := Function.update s.pc t .woken } else none

variable {s}

theorem step_resume {t : T} (h : s.pc t = .woken) : s.step (.resume t) = some (s.enter t) := if_pos h

theorem enter_unset (t : T) (h : s.signaled = false) :
    s.enter t = ⟨false, Function.update s.pc t .asleep⟩ := by
  unfold enter
  rw [h]
  rfl

theorem enter_set (t : T) (h : s.signaled = true) :
    s.enter t = ⟨false, Function.update s.pc t .out⟩ := by
  unfold enter
  rw [h]
  rfl

/-- a thread that goes through the loop leaves the others where they were -/
theorem enter_woken {t : T} {l : List T} (ht : t ∉ l) (hw : ∀ u ∈ t :: l, s.pc u = .woken) :
    ∀ u ∈ l, (s.enter t).pc u = .woken := by
  intro u hu
  have hne : u ≠ t := fun e => ht (e ▸ hu)
  have hpc : (s.enter t).pc u = s.pc u := Function.update_of_ne hne _ _
  rw [hpc]
  exact hw u (List.mem_cons_of_mem t hu)

/-- woken threads that find the flag reset go to sleep again -/
theorem exec_resume_unset {order : List T} (hnd : order.Nodup) (hf : s.signaled = false)
    (hw : ∀ t ∈ order, s.pc t = .woken) :
    exec step s (order.map .resume) =
      some ⟨false, fun t => if t ∈ order then .asleep else s.pc t⟩ := by
  induction order generalizing s with
  | nil =>
    obtain ⟨f, pc⟩ := s
    cases hf
    rfl
  | cons t l ih =>
    obtain ⟨ht, hl⟩ := List.nodup_cons.mp hnd
    rw [List.map_cons, exec, step_resume (hw t List.mem_cons_self), Option.bind_some,
      ih hl (by rw [enter_unset t hf]) (enter_woken ht hw), enter_unset t hf]
    congr 2
    funext u
    by_cases hu : u = t
    · subst hu
      rw [if_neg ht, if_pos List.mem_cons_self]
      exact Function.update_self ..
    · simp only [List.mem_cons, hu, false_or, Function.update_of_ne hu]

/-- of the woken threads the first one resets the flag -/
theorem exec_resume_set {t : T} {l : List T} (hnd : (t :: l).Nodup) (hf : s.signaled = true)
    (hw : ∀ u ∈ t :: l, s.pc u = .woken) :
    exec step s ((t :: l).map .resume) =
      some ⟨false, fun u => if u ∈ l then .asleep else Function.update s.pc t .out u⟩ := by
  obtain ⟨ht, hl⟩ := List.nodup_cons.mp hnd
  rw [List.map_cons, exec, step_resume (hw t List.mem_cons_self), Option.bind_some,
    exec_resume_unset hl (by rw [enter_set t hf]) (enter_woken ht hw), enter_set t hf]

theorem condSyncBroadcast_woken {t : T} (h : s.pc t ≠ .out) : s.condSyncBroadcast.pc t = .woken := by
  show (if s.pc t = .asleep then CondPc.woken else s.pc t) = .woken
  cases hpc : s.pc t with
  | out => exact absurd hpc h
  | asleep => rfl
  | woken => rfl

theorem condSyncBroadcast_out {t : T} (h : s.pc t = .out) : s.condSyncBroadcast.pc t = .out := by
  show (if s.pc t = .asleep then CondPc.woken else s.pc t) = .out
  rw [h]
  rfl

end CondSync

/-- **A broadcast.**  `order` lists the threads that are blocked in `cond_sync_wait` when
`cond_sync_broadcast` is called, as they get the mutex afterwards; no other thread enters
`cond_sync_wait` before them, which would find the flag set and take it.  When each has taken its next
step, they have all left and none is asleep if and only if there was at most one of them. -/
theorem broadcast_releases_iff (s : CondSync T) (order : List T) (hnd : order.Nodup)
    (hall : ∀ t, t ∈ order ↔ s.pc t ≠ .out) :
    ∃ u, exec CondSync.step s (.broadcast :: order.map .resume) = some u ∧
      ((∀ t ∈ order, u.pc t = .out) ∧ (∀ t, u.pc t ≠ .asleep) ↔ order.length ≤ 1) := by
  have hw : ∀ t ∈ order, s.condSyncBroadcast.pc t = .woken := fun t ht =>
    CondSync.condSyncBroadcast_woken ((hall t).mp ht)
  have hout : ∀ t, t ∉ order → s.condSyncBroadcast.pc t = .out := fun t ht =>
    CondSync.condSyncBroadcast_out (not_not.mp fun h => ht ((hall t).mpr h))
  cases order with
  | nil =>
    refine ⟨s.condSyncBroadcast, rfl, iff_of_true ⟨?_, ?_⟩ (Nat.zero_le 1)⟩
    · intro t ht
      exact absurd ht List.not_mem_nil
    · intro t
      rw [hout t List.not_mem_nil]
      decide
  | cons t l =>
    refine ⟨_, exec_cons.mpr ⟨_, rfl, CondSync.exec_resume_set hnd rfl hw⟩, ?_⟩
    cases l with
    | nil =>
      refine iff_of_true ⟨?_, ?_⟩ (Nat.le_refl 1)
      · intro u hu
        rw [List.mem_singleton.mp hu]
        exact Function.update_self ..
      · intro u
        show Function.update s.condSyncBroadcast.pc t .out u ≠ .asleep
        by_cases hu : u = t
        · rw [hu, Function.update_self]
          decide
        · rw [Function.update_of_ne hu, hout u (fun h => hu (List.mem_singleton.mp h))]
          decide
    | cons v l =>
      refine iff_of_false ?_ (by simp)
      intro h
      have hv := h.1 v (List.mem_cons_of_mem t List.mem_cons_self)
      dsimp only at hv
      rw [if_pos List.mem_cons_self] at hv
      cases hv

end

/-- one thread waits, and a broadcast releases it -/
theorem broadcast_releases_iff_one :
    ∃ u, exec CondSync.step ⟨false, fun t : Bool => if t then .asleep else .out⟩
        [.broadcast, .resume true] = some u ∧
      ((∀ t ∈ [true], u.pc t = .out) ∧ (∀ t, u.pc t ≠ .asleep) ↔ [true].length ≤ 1) :=
  broadcast_releases_iff ⟨false, fun t : Bool => if t then .asleep else .out⟩ [true] (by decide)
    (by decide)

/-- two threads wait: the first one to get the mutex leaves, and the other sleeps again -/
theorem one_of_two_released :
    ∃ u, exec CondSync.step ⟨false, fun _ : Bool => .out⟩
        [.wait false, .wait true, .broadcast, .resume false, .resume true] = some u ∧
      u.pc false = .out ∧ u.pc true = .asleep :=
  ⟨_, rfl, rfl, rfl⟩

end QuicVpn
