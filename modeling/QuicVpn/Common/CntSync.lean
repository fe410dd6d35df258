import Mathlib.Data.Fintype.Basic
import Mathlib.Data.BitVec
import QuicVpn.Lib.History
import QuicVpn.Lib.Mutex

/-!
# cnt_sync

A `cnt_sync_t` is a 64-bit counter with a mutex and a condition variable.  `cnt_sync_inc` is one atomic
addition and takes no lock; `cnt_sync_dec` subtracts with the mutex held, aborts the process where the
counter was zero, and broadcasts where it has become zero; `cnt_sync_wait_zero` and
`cnt_sync_wait_zero_ms` load the counter with the mutex held and sleep while it is not zero.  Between any
two accesses of one thread the others may move, so the mutex is a field of its own.

* `CntSync.step`      any number of threads `T`, one atomic access or one blocking call at a time;
* `CntAct.incs`, `CntAct.subs`   how often a run has added and subtracted;
* `CntSync.Inv`       what holds in every state that is reached with fewer than `2 ^ 64` additions;
* `cntSync_balance`   the counter is what was added less what was subtracted, the process aborts at the
                      first subtraction too many, and a wait passes when all is subtracted;
* `cntSync_wakes`     nobody sleeps through a zero.

`cnt_sync_wait_zero_ms` without a deadline (`Common/Deadline.lean`) returns before it touches anything.
-/

set_option linter.unusedSectionVars false

namespace QuicVpn
open Conc

/-- where a thread is -/
inductive CntPc where
  | out
  /-- in `cnt_sync_dec` with the mutex, in front of the subtraction -/
  | dec
  /-- in `cnt_sync_dec` with the mutex, after the subtraction that found `old` -/
  | decided (old : BitVec 64)
  /-- in a wait with the mutex, in front of the load; `timed` is `cnt_sync_wait_zero_ms` -/
  | test (timed : Bool)
  /-- in a wait with the mutex, the load was not zero -/
  | going (timed : Bool)
  | asleep (timed : Bool)
  /-- woken, or woken for no reason, and without the mutex -/
  | woken (timed : Bool)
  /-- `pthread_cond_timedwait` returns an error -/
  | late
  deriving DecidableEq, Repr

/-- the thread has the mutex -/
def CntPc.holds : CntPc → Bool
  | .dec => true
  | .decided _ => true
  | .test _ => true
  | .going _ => true
  | _ => false

structure CntSync (T : Type) where
  value : BitVec 64
  mutex : Option T
  aborted : Bool
  pc : T → CntPc

inductive CntAct (T : Type) where
  | inc (t : T)
  | decLock (t : T)
  | decSub (t : T)
  | decUnlock (t : T)
  | waitLock (t : T) (timed : Bool)
  | load (t : T)
  | sleep (t : T)
  | spurious (t : T)
  | timeout (t : T)
  | relock (t : T)

/-- `pthread_cond_broadcast` as one thread sees it -/
def CntPc.wake : CntPc → CntPc
  | .asleep timed => .woken timed
  | p => p

section
variable {T : Type} [DecidableEq T]

namespace CntSync
variable (s : CntSync T)

def goto (t : T) (p : CntPc) : CntSync T := { s with pc := Function.update s.pc t p }

/-- `atomic_fetch_sub` and the test for underflow -/
def cntSyncSub (t : T) : CntSync T :=
  { s.goto t (.decided s.value) with value := s.value - 1, aborted := decide (s.value = 0) }

/-- the end of `cnt_sync_dec`: the broadcast at zero, and the mutex -/
def cntSyncDecEnd (t : T) (old : BitVec 64) : CntSync T :=
  if old - 1 = 0 then { s with mutex := none, pc := Function.update (fun u => (s.pc u).wake) t .out }
  else { s.goto t .out with mutex := none }

/-- the test of the loop in `cnt_sync_wait_zero`, and its return -/
def cntSyncLoad (t : T) (timed : Bool) : CntSync T :=
  if s.value ≠ 0 then s.goto t (.going timed) else { s.goto t .out with mutex := none }

def move : CntAct T → Option (CntSync T)
  | .inc t => if s.pc t = .out then some { s with value := s.value + 1 } else none
  | .decLock t =>
    if s.pc t = .out ∧ s.mutex = none then some { s.goto t .dec with mutex := some t } else none
  | .decSub t => if s.pc t = .dec then some (s.cntSyncSub t) else none
  | .decUnlock t =>
    match s.pc t with
    | .decided old => some (s.cntSyncDecEnd t old)
    | _ => none
  | .waitLock t timed =>
    if s.pc t = .out ∧ s.mutex = none then some { s.goto t (.test timed) with mutex := some t } else none
  | .load t =>
    match s.pc t with
    | .test timed => some (s.cntSyncLoad t timed)
    | _ => none
  | .sleep t =>
    match s.pc t with
    -- the condition variable takes the thread and gives up the mutex in one step
    | .going timed => some { s.goto t (.asleep timed) with mutex := none }
    | _ => none
  | .spurious t =>
    match s.pc t with
    | .asleep timed => some (s.goto t (.woken timed))
    | _ => none
  | .timeout t => if s.pc t = .asleep true then some (s.goto t .late) else none
  | .relock t =>
    if s.mutex = none then
      match s.pc t with
      | .woken timed => some { s.goto t (.test timed) with mutex := some t }
      -- the error goes to the caller without another look at the counter
      | .late => some (s.goto t .out)
      | _ => none
    else none

/-- after `abort` nothing moves -/
def step (a : CntAct T) : Option (CntSync T) := if s.aborted then none else s.move a

/-- `cnt_sync_init` -/
def init (initial : BitVec 64) : CntSync T := ⟨initial, none, false, fun _ => .out⟩

end CntSync

/-- the additions of a run -/
def CntAct.incs (l : List (CntAct T)) : ℕ := l.countP fun a => match a with | .inc _ => true | _ => false

/-- the subtractions of a run -/
def CntAct.subs (l : List (CntAct T)) : ℕ :=
  l.countP fun a => match a with | .decSub _ => true | _ => false

/-! ## the moves -/

namespace CntSync
variable {s s' : CntSync T}

/-- what a step does, with the place in the code that it is taken from -/
inductive Move (s : CntSync T) : CntAct T → CntSync T → Prop
  | inc {t : T} (ht : s.pc t = .out) : Move s (.inc t) { s with value := s.value + 1 }
  | decLock {t : T} (ht : s.pc t = .out) (hm : s.mutex = none) :
      Move s (.decLock t) { s.goto t .dec with mutex := some t }
  | decSub {t : T} (ht : s.pc t = .dec) : Move s (.decSub t) (s.cntSyncSub t)
  | broadcast {t : T} (ht : s.pc t = .decided 1) :
      Move s (.decUnlock t)
        { s with mutex := none, pc := Function.update (fun u => (s.pc u).wake) t .out }
  | decUnlock {t : T} {old : BitVec 64} (ht : s.pc t = .decided old) (h : old ≠ 1) :
      Move s (.decUnlock t) { s.goto t .out with mutex := none }
  | waitLock {t : T} {timed : Bool} (ht : s.pc t = .out) (hm : s.mutex = none) :
      Move s (.waitLock t timed) { s.goto t (.test timed) with mutex := some t }
  | stay {t : T} {timed : Bool} (ht : s.pc t = .test timed) (hv : s.value ≠ 0) :
      Move s (.load t) (s.goto t (.going timed))
  | pass {t : T} {timed : Bool} (ht : s.pc t = .test timed) (hv : s.value = 0) :
      Move s (.load t) { s.goto t .out with mutex := none }
  | sleep {t : T} {timed : Bool} (ht : s.pc t = .going timed) :
      Move s (.sleep t) { s.goto t (.asleep timed) with mutex := none }
  | spurious {t : T} {timed : Bool} (ht : s.pc t = .asleep timed) :
      Move s (.spurious t) (s.goto t (.woken timed))
  | timeout {t : T} (ht : s.pc t = .asleep true) : Move s (.timeout t) (s.goto t .late)
  | relock {t : T} {timed : Bool} (ht : s.pc t = .woken timed) (hm : s.mutex = none) :
      Move s (.relock t) { s.goto t (.test timed) with mutex := some t }
  | giveUp {t : T} (ht : s.pc t = .late) (hm : s.mutex = none) : Move s (.relock t) (s.goto t .out)

theorem sub_one_eq_zero {x : BitVec 64} : x - 1 = 0 ↔ x = 1 := sub_eq_zero

theorem step_move {a : CntAct T} (hs : s.step a = some s') : s.aborted = false ∧ s.Move a s' := by
  unfold step at hs
  split at hs
  · cases hs
  · next hab =>
    refine ⟨Bool.eq_false_iff.mpr hab, ?_⟩
    cases a with
    | inc t =>
      obtain ⟨h, e⟩ := Option.ite_none_right_eq_some.mp hs
      cases e
      exact .inc h
    | decLock t =>
      obtain ⟨h, e⟩ := Option.ite_none_right_eq_some.mp hs
      cases e
      exact .decLock h.1 h.2
    | decSub t =>
      obtain ⟨h, e⟩ := Option.ite_none_right_eq_some.mp hs
      cases e
      exact .decSub h
    | decUnlock t =>
      simp only [move] at hs
      split at hs
      · next old hp =>
        cases hs
        unfold cntSyncDecEnd
        split
        · next h =>
          obtain rfl := sub_one_eq_zero.mp h
          exact .broadcast hp
        · next h => exact .decUnlock hp (fun e => h (sub_one_eq_zero.mpr e))
      · cases hs
    | waitLock t timed =>
      obtain ⟨h, e⟩ := Option.ite_none_right_eq_some.mp hs
      cases e
      exact .waitLock h.1 h.2
    | load t =>
      simp only [move] at hs
      split at hs
      · next timed hp =>
        cases hs
        unfold cntSyncLoad
        split
        · next h => exact .stay hp h
        · next h => exact .pass hp (not_not.mp h)
      · cases hs
    | sleep t =>
      simp only [move] at hs
      split at hs
      · next timed hp =>
        cases hs
        exact .sleep hp
      · cases hs
    | spurious t =>
      simp only [move] at hs
      split at hs
      · next timed hp =>
        cases hs
        exact .spurious hp
      · cases hs
    | timeout t =>
      obtain ⟨h, e⟩ := Option.ite_none_right_eq_some.mp hs
      cases e
      exact .timeout h
    | relock t =>
      simp only [move] at hs
      split at hs
      · next hm =>
        split at hs
        · next timed hp =>
          cases hs
          exact .relock hp hm
        · next hp =>
          cases hs
          exact .giveUp hp hm
        · cases hs
      · cases hs

/-! ## the invariant -/

/-- the mutex has one holder, a thread on its way to sleep has seen what is still there, and whoever
sleeps at zero is about to be woken -/
structure Inv (s : CntSync T) : Prop where
  owns : Owns CntPc.holds s.mutex s.pc
  saw : ∀ t timed, s.pc t = .going timed → s.value ≠ 0
  wakes : ∀ t timed, s.pc t = .asleep timed → s.value = 0 → ∃ u, s.pc u = .decided 1

theorem init_inv (initial : BitVec 64) : (init initial : CntSync T).Inv where
  owns := fun _ => iff_of_false Bool.false_ne_true nofun
  saw := nofun
  wakes := nofun

theorem goto_of_ne {t u : T} {p : CntPc} (h : u ≠ t) : (s.goto t p).pc u = s.pc u :=
  Function.update_of_ne h _ _

theorem goto_self {t : T} {p : CntPc} : (s.goto t p).pc t = p := Function.update_self ..

/-- a thread that moves without the counter, neither to sleep nor away from a broadcast -/
theorem Inv.goto {t : T} {p : CntPc} {m : Option T} (h : s.Inv)
    (ho : Owns CntPc.holds m (s.goto t p).pc) (hg : ∀ timed, p = .going timed → s.value ≠ 0)
    (ha : ∀ timed, p = .asleep timed → s.value ≠ 0) (hd : s.pc t ≠ .decided 1) :
    ({ s.goto t p with mutex := m } : CntSync T).Inv where
  owns := ho
  saw := by
    intro u timed hu
    by_cases hut : u = t
    · subst hut
      exact hg timed (goto_self.symm.trans hu)
    · exact h.saw u timed ((goto_of_ne hut).symm.trans hu)
  wakes := by
    intro u timed hu hv
    by_cases hut : u = t
    · subst hut
      exact absurd hv (ha timed (goto_self.symm.trans hu))
    · obtain ⟨w, hw⟩ := h.wakes u timed ((goto_of_ne hut).symm.trans hu) hv
      have hwt : w ≠ t := fun e => hd (e ▸ hw)
      exact ⟨w, (goto_of_ne hwt).trans hw⟩

/-- an addition that does not wrap -/
theorem Inv.inc (h : s.Inv) (hv : s.value + 1 ≠ 0) :
    ({ s with value := s.value + 1 } : CntSync T).Inv where
  owns := h.owns
  saw := fun _ _ _ => hv
  wakes := fun _ _ _ h0 => absurd h0 hv

/-- the subtraction: with the mutex taken nobody else is between its load and its sleep -/
theorem Inv.sub {t : T} (h : s.Inv) (ht : s.pc t = .dec) : (s.cntSyncSub t).Inv where
  owns := h.owns.same (by rw [ht]; rfl)
  saw := by
    intro u timed hu
    have hut : u ≠ t := by
      rintro rfl
      cases goto_self.symm.trans hu
    have hg : s.pc u = .going timed := (goto_of_ne hut).symm.trans hu
    exact absurd (h.owns.unique (by rw [hg]; rfl) (by rw [ht]; rfl)) hut
  wakes := by
    intro u timed hu h0
    refine ⟨t, ?_⟩
    have h1 : s.value = 1 := sub_one_eq_zero.mp h0
    show (s.goto t (.decided s.value)).pc t = .decided 1
    rw [goto_self, h1]

theorem wake_holds (p : CntPc) : p.wake.holds = p.holds := by cases p <;> rfl

theorem wake_ne_asleep (p : CntPc) (timed : Bool) : p.wake ≠ .asleep timed := by cases p <;> nofun

theorem wake_going {p : CntPc} {timed : Bool} (h : p.wake = .going timed) : p = .going timed := by
  cases p <;> first | exact h | cases h

/-- after a broadcast nobody sleeps -/
theorem broadcast_asleep (t u : T) (timed : Bool) :
    Function.update (fun u => (s.pc u).wake) t .out u ≠ .asleep timed := by
  by_cases hu : u = t
  · rw [hu, Function.update_self]
    nofun
  · rw [Function.update_of_ne hu]
    exact wake_ne_asleep _ timed

theorem Inv.broadcast {t : T} (h : s.Inv) (ht : s.pc t = .decided 1) :
    ({ s with mutex := none, pc := Function.update (fun u => (s.pc u).wake) t .out } : CntSync T).Inv where
  owns := (h.owns.congr fun u => wake_holds (s.pc u)).release (by rw [ht]; rfl) rfl
  saw := by
    intro u timed hu
    change Function.update (fun u => (s.pc u).wake) t .out u = .going timed at hu
    by_cases hut : u = t
    · rw [hut, Function.update_self] at hu
      cases hu
    · rw [Function.update_of_ne hut] at hu
      exact h.saw u timed (wake_going hu)
  wakes := fun u timed hu => absurd hu (broadcast_asleep t u timed)

theorem Move.inv {a : CntAct T} (hm : s.Move a s') (h : s.Inv)
    (hw : ∀ t, a = .inc t → s.value + 1 ≠ 0) : s'.Inv := by
  cases hm with
  | inc ht => exact h.inc (hw _ rfl)
  | decLock ht hm =>
    refine h.goto ((hm ▸ h.owns).take rfl) nofun nofun ?_
    rw [ht]
    nofun
  | decSub ht => exact h.sub ht
  | broadcast ht => exact h.broadcast ht
  | decUnlock ht ho =>
    refine h.goto (h.owns.release (by rw [ht]; rfl) rfl) nofun nofun ?_
    rw [ht]
    exact fun e => ho (CntPc.decided.inj e)
  | waitLock ht hm =>
    refine h.goto ((hm ▸ h.owns).take rfl) nofun nofun ?_
    rw [ht]
    nofun
  | stay ht hv =>
    refine h.goto (h.owns.same (by rw [ht]; rfl)) (fun _ _ => hv) nofun ?_
    rw [ht]
    nofun
  | pass ht hv =>
    refine h.goto (h.owns.release (by rw [ht]; rfl) rfl) nofun nofun ?_
    rw [ht]
    nofun
  | sleep ht =>
    refine h.goto (h.owns.release (by rw [ht]; rfl) rfl) nofun (fun _ _ => h.saw _ _ ht) ?_
    rw [ht]
    nofun
  | spurious ht =>
    refine h.goto (h.owns.same (by rw [ht]; rfl)) nofun nofun ?_
    rw [ht]
    nofun
  | timeout ht =>
    refine h.goto (h.owns.same (by rw [ht]; rfl)) nofun nofun ?_
    rw [ht]
    nofun
  | relock ht hm =>
    refine h.goto ((hm ▸ h.owns).take rfl) nofun nofun ?_
    rw [ht]
    nofun
  | giveUp ht hm =>
    refine h.goto (h.owns.same (by rw [ht]; rfl)) nofun nofun ?_
    rw [ht]
    nofun

/-! ## the account -/

/-- what is in the counter, against what a run has added and subtracted -/
structure Account (initial : BitVec 64) (l : List (CntAct T)) (s : CntSync T) : Prop where
  open_ : s.aborted = false → s.value.toNat + CntAct.subs l = initial.toNat + CntAct.incs l
  abort : s.aborted = true → s.value ≠ 0 ∧ CntAct.subs l = initial.toNat + CntAct.incs l + 1

/-- a step that neither adds nor subtracts -/
theorem Account.of_quiet {initial : BitVec 64} {l : List (CntAct T)} {a : CntAct T}
    (h : s.Account initial l) (hi : CntAct.incs [a] = 0) (hd : CntAct.subs [a] = 0)
    (hv : s'.value = s.value) (ha : s'.aborted = s.aborted) : s'.Account initial (l ++ [a]) := by
  have ei : CntAct.incs (l ++ [a]) = CntAct.incs l := by
    rw [CntAct.incs, List.countP_append]
    exact congrArg _ hi
  have ed : CntAct.subs (l ++ [a]) = CntAct.subs l := by
    rw [CntAct.subs, List.countP_append]
    exact congrArg _ hd
  constructor
  · rw [ha, hv, ei, ed]
    exact h.open_
  · rw [ha, hv, ei, ed]
    exact h.abort

theorem incs_concat_inc (l : List (CntAct T)) (t : T) :
    CntAct.incs (l ++ [.inc t]) = CntAct.incs l + 1 := by
  rw [CntAct.incs, List.countP_append]
  rfl

theorem subs_concat_inc (l : List (CntAct T)) (t : T) :
    CntAct.subs (l ++ [.inc t]) = CntAct.subs l := by
  rw [CntAct.subs, List.countP_append]
  rfl

theorem incs_concat_sub (l : List (CntAct T)) (t : T) :
    CntAct.incs (l ++ [.decSub t]) = CntAct.incs l := by
  rw [CntAct.incs, List.countP_append]
  rfl

theorem subs_concat_sub (l : List (CntAct T)) (t : T) :
    CntAct.subs (l ++ [.decSub t]) = CntAct.subs l + 1 := by
  rw [CntAct.subs, List.countP_append]
  rfl

/-- with fewer than `2 ^ 64` additions in all, the next one does not wrap -/
theorem Account.inc_toNat {initial : BitVec 64} {l : List (CntAct T)} {t : T}
    (h : s.Account initial l) (ha : s.aborted = false)
    (hb : initial.toNat + CntAct.incs (l ++ [.inc t]) < 2 ^ 64) :
    (s.value + 1).toNat = s.value.toNat + 1 := by
  have hv := h.open_ ha
  rw [incs_concat_inc] at hb
  rw [BitVec.toNat_add_of_lt]
  · rfl
  · show s.value.toNat + 1 < 2 ^ 64
    omega

theorem Account.inc {initial : BitVec 64} {l : List (CntAct T)} {t : T}
    (h : s.Account initial l) (ha : s.aborted = false)
    (hb : initial.toNat + CntAct.incs (l ++ [.inc t]) < 2 ^ 64) :
    ({ s with value := s.value + 1 } : CntSync T).Account initial (l ++ [.inc t]) := by
  have hv := h.open_ ha
  constructor
  · intro _
    show (s.value + 1).toNat + _ = _
    rw [h.inc_toNat ha hb, incs_concat_inc, subs_concat_inc]
    omega
  · intro hab
    cases ha.symm.trans hab

theorem Account.sub {initial : BitVec 64} {l : List (CntAct T)} {t : T}
    (h : s.Account initial l) (ha : s.aborted = false) :
    (s.cntSyncSub t).Account initial (l ++ [.decSub t]) := by
  have hv := h.open_ ha
  constructor
  · intro hab
    have h0 : s.value ≠ 0 := of_decide_eq_false hab
    have hlt : 1 ≤ s.value.toNat := Nat.one_le_iff_ne_zero.mpr fun e => h0 (BitVec.eq_of_toNat_eq e)
    have hsub : (s.value - 1).toNat = s.value.toNat - 1 :=
      BitVec.toNat_sub_of_le (BitVec.le_def.mpr hlt)
    show (s.value - 1).toNat + _ = _
    rw [hsub, incs_concat_sub, subs_concat_sub]
    omega
  · intro hab
    have h0 : s.value = 0 := of_decide_eq_true hab
    refine ⟨?_, ?_⟩
    · show s.value - 1 ≠ 0
      rw [h0]
      decide
    · have hz : s.value.toNat = 0 := by rw [h0]; rfl
      rw [incs_concat_sub, subs_concat_sub]
      omega

theorem Move.account {initial : BitVec 64} {l : List (CntAct T)} {a : CntAct T} (hm : s.Move a s')
    (h : s.Account initial l) (ha : s.aborted = false)
    (hb : initial.toNat + CntAct.incs (l ++ [a]) < 2 ^ 64) : s'.Account initial (l ++ [a]) := by
  cases hm with
  | inc ht => exact h.inc ha hb
  | decSub ht => exact h.sub ha
  | _ => exact h.of_quiet rfl rfl rfl rfl

/-- what every run with fewer than `2 ^ 64` additions leads to -/
theorem reached {initial : BitVec 64} {l : List (CntAct T)} {s : CntSync T}
    (h : exec step (init initial) l = some s) :
    initial.toNat + CntAct.incs l < 2 ^ 64 → s.Account initial l ∧ s.Inv := by
  refine exec_history (I := fun l s => initial.toNat + CntAct.incs l < 2 ^ 64 →
    s.Account initial l ∧ s.Inv) ?_ ?_ h
  · intro _
    exact ⟨⟨fun _ => rfl, nofun⟩, init_inv initial⟩
  · intro l t a t' ih hs hb
    obtain ⟨ha, hm⟩ := step_move hs
    have hle : CntAct.incs l ≤ CntAct.incs (l ++ [a]) := by
      rw [CntAct.incs, CntAct.incs, List.countP_append]
      exact Nat.le_add_right _ _
    obtain ⟨hacc, hinv⟩ := ih (by omega)
    refine ⟨hm.account hacc ha hb, hm.inv hinv ?_⟩
    rintro u rfl h0
    have := hacc.inc_toNat ha hb
    rw [h0] at this
    cases this

end CntSync

/-- **The counter.**  In every run that adds fewer than `2 ^ 64` times in all, whatever the order of the
steps: the counter is the initial value and the additions less the subtractions; the process is aborted
exactly when there is one subtraction more than that; and a wait that loads the counter returns exactly
when everything added up to then had been subtracted. -/
theorem cntSync_balance (initial : BitVec 64) (l : List (CntAct T)) (s : CntSync T)
    (h : exec CntSync.step (CntSync.init initial) l = some s)
    (hb : initial.toNat + CntAct.incs l < 2 ^ 64) :
    (s.aborted = false → s.value.toNat + CntAct.subs l = initial.toNat + CntAct.incs l) ∧
    (s.aborted = true ↔ CntAct.subs l = initial.toNat + CntAct.incs l + 1) ∧
    ∀ t s', s.step (.load t) = some s' →
      (s'.pc t = .out ↔ CntAct.subs l = initial.toNat + CntAct.incs l) := by
  obtain ⟨hacc, -⟩ := CntSync.reached h hb
  refine ⟨hacc.open_, ⟨fun ha => (hacc.abort ha).2, fun he => ?_⟩, fun t s' hs => ?_⟩
  · by_contra hn
    have := hacc.open_ (Bool.eq_false_iff.mpr hn)
    omega
  · obtain ⟨ha, hm⟩ := CntSync.step_move hs
    have hv := hacc.open_ ha
    cases hm with
    | stay ht h0 =>
      refine iff_of_false ?_ ?_
      · rw [CntSync.goto_self]
        nofun
      · intro he
        exact h0 (BitVec.eq_of_toNat_eq (by show _ = 0; omega))
    | pass ht h0 =>
      refine iff_of_true CntSync.goto_self ?_
      have hz : s.value.toNat = 0 := by rw [h0]; rfl
      omega

/-- **Nobody sleeps through a zero.**  In every run that adds fewer than `2 ^ 64` times, a thread that
sleeps in `cnt_sync_wait_zero` or `cnt_sync_wait_zero_ms` while the counter is zero is about to be woken:
the thread that took the counter to zero has the mutex, and its next step wakes every sleeping thread. -/
theorem cntSync_wakes (initial : BitVec 64) (l : List (CntAct T)) (s : CntSync T)
    (h : exec CntSync.step (CntSync.init initial) l = some s)
    (hb : initial.toNat + CntAct.incs l < 2 ^ 64) (t : T) (timed : Bool)
    (ht : s.pc t = .asleep timed) (h0 : s.value = 0) :
    ∃ u s', s.mutex = some u ∧ s.pc u = .decided 1 ∧ s.step (.decUnlock u) = some s' ∧
      ∀ w timed, s'.pc w ≠ .asleep timed := by
  obtain ⟨hacc, hinv⟩ := CntSync.reached h hb
  obtain ⟨u, hu⟩ := hinv.wakes t timed ht h0
  have hab : ¬ s.aborted = true := fun ha => (hacc.abort ha).1 h0
  refine ⟨u, { s with mutex := none, pc := Function.update (fun w => (s.pc w).wake) u .out },
    (hinv.owns u).mp (by rw [hu]; rfl), hu, ?_, CntSync.broadcast_asleep u⟩
  rw [CntSync.step, if_neg hab, CntSync.move, hu]
  exact congrArg some (if_pos rfl)

end

/-- one thread adds and subtracts while another one waits: the waiting thread sleeps at one, and the
thread that took the counter to zero wakes it -/
def latchRun : List (CntAct Bool) :=
  [.inc false, .waitLock true false, .load true, .sleep true, .decLock false, .decSub false]

theorem cntSync_balance_latchRun :
    ∃ s, exec CntSync.step (CntSync.init 0) latchRun = some s ∧ s.value.toNat + 1 = 1 := by
  refine ⟨_, rfl, ?_⟩
  exact (cntSync_balance 0 latchRun _ rfl (by decide)).1 rfl

theorem cntSync_wakes_latchRun :
    ∃ s, exec CntSync.step (CntSync.init 0) latchRun = some s ∧
      ∃ u s', s.mutex = some u ∧ s.pc u = .decided 1 ∧ s.step (.decUnlock u) = some s' ∧
        ∀ w timed, s'.pc w ≠ .asleep timed := by
  refine ⟨_, rfl, ?_⟩
  exact cntSync_wakes 0 latchRun _ rfl (by decide) true false rfl rfl

end QuicVpn
