import QuicVpn.Common.StateSyncSys

/-!
# What a timed wait reports

`pthread_cond_timedwait` may report a timeout although the state has been changed before the lock is
taken again.  `state_sync_wait_ms_abort` looks at the state once more, `state_sync_wait_ms` does not.

* `SyncWait.Honest`       the result of a timed wait agrees with the state it leaves;
* `SyncSys.TimelyOk`      `state_sync_wait_ms` is not told of a timeout in its target state;
* `SyncWait.result`       a wait on a schedule: what it finds at its call and at each wake-up;
* `TimelySchedule`        the same condition on a schedule, and that the clock can be read.

The main result is `timed_waits_iff`.
-/

set_option linter.unusedSectionVars false

namespace QuicVpn
open Conc

section
variable {σ : Type} [DecidableEq σ]

/-- the result of a timed wait agrees with the state that it leaves -/
def SyncWait.Honest (rc : ℤ) (s : σ) : SyncWait σ → Prop
  | .waitMs target => (rc = 0 → s = target) ∧ (rc = etimedout → s ≠ target)
  | .waitMsAbort target abort =>
    (rc = 0 → s = target) ∧ (rc = etimedout → s ≠ target ∧ s ≠ abort) ∧
      (rc = econnaborted → s = abort)
  | _ => True

/-- `pthread_cond_timedwait` returns `rc` in the state `s`: no timeout in the target state of
`state_sync_wait_ms` -/
def SyncWait.Timely (rc : ℤ) (s : σ) : SyncWait σ → Prop
  | .waitMs target => rc ≠ 0 → s ≠ target
  | _ => True

instance (rc : ℤ) (s : σ) : ∀ w : SyncWait σ, Decidable (w.Timely rc s)
  | .waitMs target => inferInstanceAs (Decidable (rc ≠ 0 → s ≠ target))
  | .waitMsAbort _ _ => .isTrue trivial
  | .wait _ => .isTrue trivial
  | .waitForAny _ _ => .isTrue trivial
  | .waitWhile _ => .isTrue trivial

/-! ## one section -/

theorem stateSyncWait_some {s target : σ} {rc : ℤ} (h : stateSyncWait s target = some rc) :
    rc = 0 ∧ s = target := by
  unfold stateSyncWait at h
  split at h
  · cases h
  · rename_i hs
    cases h
    exact ⟨rfl, not_not.mp hs⟩

theorem stateSyncWaitLoop_some {s target abort : σ} {rc : ℤ}
    (h : stateSyncWaitLoop s target abort = some rc) :
    rc = 0 ∧ s = target ∨ rc = econnaborted ∧ s ≠ target ∧ s = abort := by
  unfold stateSyncWaitLoop at h
  split at h
  · rename_i ht
    cases h
    exact Or.inl ⟨rfl, ht⟩
  · rename_i ht
    split at h
    · rename_i ha
      cases h
      exact Or.inr ⟨rfl, ht, ha⟩
    · cases h

/-! a return with `0` in the target state -/

theorem honest_zero {s target : σ} (h : s = target) : (SyncWait.waitMs target).Honest 0 s :=
  ⟨fun _ => h, fun e => absurd e (by decide)⟩

theorem honest_zero_abort {s target abort : σ} (h : s = target) :
    (SyncWait.waitMsAbort target abort).Honest 0 s :=
  ⟨fun _ => h, fun e => absurd e (by decide), fun e => absurd e (by decide)⟩

theorem honest_aborted {s target abort : σ} (h : s = abort) :
    (SyncWait.waitMsAbort target abort).Honest econnaborted s :=
  ⟨fun e => absurd e (by decide), fun e => absurd e (by decide), fun _ => h⟩

theorem honest_loop {s target abort : σ} {rc : ℤ}
    (h : stateSyncWaitLoop s target abort = some rc) :
    (SyncWait.waitMsAbort target abort).Honest rc s := by
  rcases stateSyncWaitLoop_some h with ⟨rfl, hs⟩ | ⟨rfl, _, hs⟩
  · exact honest_zero_abort hs
  · exact honest_aborted hs

/-- the first section is honest -/
theorem SyncWait.first_honest {w : SyncWait σ} {s : σ} {clock : Bool} {rc : ℤ}
    (h : w.first s clock = some rc) : w.Honest rc s := by
  cases w with
  | waitMs target =>
    cases clock with
    | true =>
      obtain ⟨rfl, hs⟩ := stateSyncWait_some h
      exact honest_zero hs
    | false =>
      cases h
      exact ⟨fun e => absurd e (by decide), fun e => absurd e (by decide)⟩
  | waitMsAbort target abort =>
    have h' : stateSyncWaitMsAbort s target abort clock = some rc := h
    unfold stateSyncWaitMsAbort at h'
    split at h'
    · rename_i hs
      cases h'
      exact honest_zero_abort hs
    · split at h'
      · rename_i hs
        cases h'
        exact honest_aborted hs
      · split at h'
        · exact honest_loop h'
        · cases h'
          exact ⟨fun e => absurd e (by decide), fun e => absurd e (by decide),
            fun e => absurd e (by decide)⟩
  | _ => exact trivial

/-- so is a later one, unless `state_sync_wait_ms` is told of a timeout in its target state -/
theorem SyncWait.again_honest {w : SyncWait σ} {s : σ} {rc r : ℤ} (h : w.again s rc = some r) :
    w.Honest r s ↔ w.Timely rc s := by
  cases w with
  | waitMs target =>
    have h' : stateSyncWaitMsWake s target rc = some r := h
    unfold stateSyncWaitMsWake at h'
    split at h'
    · rename_i hrc
      cases h'
      constructor
      · exact fun hh _ => hh.2 rfl
      · exact fun hh => ⟨fun e => absurd e (by decide), fun _ => hh hrc⟩
    · rename_i hrc
      obtain ⟨rfl, hs⟩ := stateSyncWait_some h'
      exact iff_of_true (honest_zero hs) fun hne => absurd hne hrc
  | waitMsAbort target abort =>
    refine iff_of_true ?_ trivial
    have h' : stateSyncWaitMsAbortWake s target abort rc = some r := h
    unfold stateSyncWaitMsAbortWake at h'
    split at h'
    · split at h'
      · rename_i hs
        cases h'
        exact honest_zero_abort hs
      · rename_i ht
        split at h'
        · rename_i hs
          cases h'
          exact honest_aborted hs
        · rename_i ha
          cases h'
          exact ⟨fun e => absurd e (by decide), fun _ => ⟨ht, ha⟩, fun e => absurd e (by decide)⟩
    · exact honest_loop h'
  | wait target => exact iff_of_true trivial trivial
  | waitForAny a b => exact iff_of_true trivial trivial
  | waitWhile v => exact iff_of_true trivial trivial

/-- a wait that does not return is not told of a timeout -/
theorem SyncWait.again_none_timely {w : SyncWait σ} {s : σ} {rc : ℤ} (h : w.again s rc = none) :
    w.Timely rc s := by
  cases w with
  | waitMs target =>
    intro hrc
    have h' : stateSyncWaitMsWake s target rc = none := h
    rw [stateSyncWaitMsWake, if_pos hrc] at h'
    cases h'
  | _ => exact trivial

end

/-! ## runs -/

section
variable {σ T : Type} [DecidableEq σ] [DecidableEq T]

/-- all timed waits that have returned were honest -/
def SyncSys.Honest (s : SyncSys σ T) : Prop := ∀ r ∈ s.returns, r.wait.Honest r.rc r.state

/-- no timeout is reported to `state_sync_wait_ms` in its target state -/
def SyncSys.TimelyOk (s : SyncSys σ T) : SyncAct σ T → Prop
  | .wake t rc => ∀ w ∈ (s.pc t).sleeps, w.Timely rc s.state
  | _ => True

instance (s : SyncSys σ T) : ∀ a, Decidable (s.TimelyOk a)
  | .wake t rc => inferInstanceAs (Decidable (∀ w ∈ (s.pc t).sleeps, w.Timely rc s.state))
  | .call _ _ _ => .isTrue trivial
  | .set _ _ => .isTrue trivial

/-- the end of a section adds its return, if there is one -/
theorem SyncSys.after_honest {s : SyncSys σ T} {t : T} {w : SyncWait σ} {r : Option ℤ} :
    (s.after t w r).Honest ↔ s.Honest ∧ ∀ rc, r = some rc → w.Honest rc s.state := by
  cases r with
  | none => exact ⟨fun h => ⟨h, nofun⟩, And.left⟩
  | some rc =>
    constructor
    · intro h
      refine ⟨fun x hx => h x (List.mem_cons_of_mem _ hx), ?_⟩
      intro rc' e
      cases e
      exact h _ List.mem_cons_self
    · rintro ⟨h, hr⟩ x hx
      rcases List.mem_cons.mp hx with rfl | hx
      · exact hr rc rfl
      · exact h x hx

/-- **One step** keeps the returns honest if and only if the condition holds. -/
theorem SyncSys.step_honest {s s' : SyncSys σ T} {a : SyncAct σ T} (h : s.Honest)
    (hs : s.step a = some s') : s'.Honest ↔ s.TimelyOk a := by
  cases a with
  | call t w clock =>
    simp only [SyncSys.step, Option.ite_none_right_eq_some, Option.some.injEq] at hs
    obtain ⟨_, rfl⟩ := hs
    rw [SyncSys.after_honest]
    exact iff_of_true ⟨h, fun rc e => SyncWait.first_honest e⟩ trivial
  | wake t rc =>
    simp only [SyncSys.step] at hs
    split at hs
    · rename_i w hw
      simp only [Option.ite_none_right_eq_some, Option.some.injEq] at hs
      obtain ⟨_, rfl⟩ := hs
      rw [SyncSys.after_honest]
      show _ ↔ ∀ w ∈ (s.pc t).sleeps, w.Timely rc s.state
      rw [hw]
      constructor
      · rintro ⟨_, hr⟩ x hx
        cases hx
        cases e : w.again s.state rc with
        | some r => exact (SyncWait.again_honest e).mp (hr r e)
        | none => exact SyncWait.again_none_timely e
      · intro hC
        exact ⟨h, fun r e => (SyncWait.again_honest e).mpr (hC w rfl)⟩
    · cases hs
  | set t v =>
    simp only [SyncSys.step, Option.ite_none_right_eq_some, Option.some.injEq] at hs
    obtain ⟨_, rfl⟩ := hs
    exact iff_of_true h trivial

end

/-! ## schedules -/

section
variable {σ : Type} [DecidableEq σ]

/-- the result of a sleeping wait; `ws` are the results of `pthread_cond_timedwait` with the states they
return in, and `none` means that it still sleeps -/
def SyncWait.resume (w : SyncWait σ) : List (ℤ × σ) → Option ℤ
  | [] => none
  | (rc, v) :: ws =>
    match w.again v rc with
    | some r => some r
    | none => w.resume ws

/-- the result of a wait that is called in the state `v` -/
def SyncWait.result (w : SyncWait σ) (clock : Bool) (v : σ) (ws : List (ℤ × σ)) : Option ℤ :=
  match w.first v clock with
  | some r => some r
  | none => w.resume ws

/-- the wake-up that ends the wait is not a timeout in the target state -/
def TimelyWakes (target : σ) : List (ℤ × σ) → Prop
  | [] => True
  | (rc, v) :: ws => if rc ≠ 0 then v ≠ target else v = target ∨ TimelyWakes target ws

/-- and the clock is only missed in another state than the target -/
def TimelySchedule (target : σ) (clock : Bool) (v : σ) (ws : List (ℤ × σ)) : Prop :=
  if v = target then clock = true else clock = true → TimelyWakes target ws

instance TimelyWakes.decidable (target : σ) : ∀ ws, Decidable (TimelyWakes target ws)
  | [] => .isTrue trivial
  | (rc, v) :: ws =>
    have := TimelyWakes.decidable target ws
    inferInstanceAs (Decidable (if rc ≠ 0 then v ≠ target else v = target ∨ TimelyWakes target ws))

instance (target : σ) (clock : Bool) (v : σ) (ws : List (ℤ × σ)) :
    Decidable (TimelySchedule target clock v ws) :=
  inferInstanceAs
    (Decidable (if v = target then clock = true else clock = true → TimelyWakes target ws))

theorem resume_eq_iff {target abort : σ} {ws : List (ℤ × σ)} (h : ∀ e ∈ ws, e.2 ≠ abort) :
    (SyncWait.waitMs target).resume ws = (SyncWait.waitMsAbort target abort).resume ws ↔
      TimelyWakes target ws := by
  induction ws with
  | nil => exact iff_of_true rfl trivial
  | cons e ws ih =>
    obtain ⟨rc, v⟩ := e
    have hv : v ≠ abort := h (rc, v) List.mem_cons_self
    replace ih := ih fun e he => h e (List.mem_cons_of_mem _ he)
    have hms : (SyncWait.waitMs target).again v rc = stateSyncWaitMsWake v target rc := rfl
    have hab : (SyncWait.waitMsAbort target abort).again v rc =
      stateSyncWaitMsAbortWake v target abort rc := rfl
    rw [SyncWait.resume, SyncWait.resume, TimelyWakes, hms, hab, stateSyncWaitMsWake,
      stateSyncWaitMsAbortWake, stateSyncWaitLoop, stateSyncWait]
    by_cases hrc : rc ≠ 0
    · rw [if_pos hrc, if_pos hrc, if_pos hrc]
      by_cases ht : v = target
      · rw [if_pos ht]
        exact iff_of_false (fun e => absurd (Option.some.inj e) (by decide)) fun hne => hne ht
      · rw [if_neg ht, if_neg hv]
        exact iff_of_true rfl ht
    · rw [if_neg hrc, if_neg hrc, if_neg hrc]
      by_cases ht : v = target
      · rw [if_neg (not_not_intro ht), if_pos ht]
        exact iff_of_true rfl (Or.inl ht)
      · rw [if_pos ht, if_neg ht, if_neg hv]
        exact ih.trans (or_iff_right ht).symm

theorem result_eq_iff {target abort v : σ} {clock : Bool} {ws : List (ℤ × σ)} (hv : v ≠ abort)
    (h : ∀ e ∈ ws, e.2 ≠ abort) :
    (SyncWait.waitMs target).result clock v ws = (SyncWait.waitMsAbort target abort).result clock v ws ↔
      TimelySchedule target clock v ws := by
  have hms : (SyncWait.waitMs target).first v clock = stateSyncWaitMs v target clock := rfl
  have hab : (SyncWait.waitMsAbort target abort).first v clock =
    stateSyncWaitMsAbort v target abort clock := rfl
  rw [SyncWait.result, SyncWait.result, TimelySchedule, hms, hab, stateSyncWaitMs,
    stateSyncWaitMsAbort, stateSyncWaitLoop, stateSyncWait]
  by_cases ht : v = target
  · rw [if_neg (not_not_intro ht), if_pos ht, if_pos ht]
    cases clock with
    | true => exact iff_of_true rfl rfl
    | false =>
      exact iff_of_false (fun e => absurd (Option.some.inj e) (by decide)) Bool.false_ne_true
  · rw [if_pos ht, if_neg ht, if_neg hv, if_neg ht, if_neg hv, if_neg ht]
    cases clock with
    | true =>
      show _ ↔ (true = true → _)
      rw [← resume_eq_iff h]
      exact ⟨fun e _ => e, fun e => e rfl⟩
    | false => exact iff_of_true rfl fun e => absurd e Bool.false_ne_true

end

/-- **Timed waits.**  Along a run every timed wait agrees with the state that it leaves if and only if
`state_sync_wait_ms` is never told of a timeout in its target state; and on a schedule without the abort
state the two waits give the same result under the same condition, if the clock can be read. -/
theorem timed_waits_iff {σ T : Type} [DecidableEq σ] [DecidableEq T] (v : σ) (l : List (SyncAct σ T))
    (s : SyncSys σ T) (h : exec SyncSys.step (SyncSys.init v) l = some s) :
    (Always SyncSys.step SyncSys.Honest (SyncSys.init v) l ↔
      Along SyncSys.step SyncSys.TimelyOk (SyncSys.init v) l) ∧
    ∀ (target abort u : σ) (clock : Bool) (ws : List (ℤ × σ)), u ≠ abort → (∀ e ∈ ws, e.2 ≠ abort) →
      ((SyncWait.waitMs target).result clock u ws =
          (SyncWait.waitMsAbort target abort).result clock u ws ↔
        TimelySchedule target clock u ws) := by
  refine ⟨?_, fun target abort u clock ws hu hws => result_eq_iff hu hws⟩
  refine always_iff_along (I := SyncSys.Honest) (fun _ hs => hs) ?_ ?_ ?_ h
  · exact fun s a s' hi hC hs => (SyncSys.step_honest hi hs).mpr hC
  · exact fun s a s' hi hC hs hh => hC ((SyncSys.step_honest hi hs).mp hh)
  · intro r hr
    cases hr

/-- two timed waits for `2`; one wakes too early, one is told of a timeout as the state has just become
`2` and looks again -/
def twoTimed : List (SyncAct ℤ ℕ) :=
  [.call 0 (.waitMs 2) true, .call 1 (.waitMsAbort 2 7) true, .set 2 1, .wake 0 0, .set 2 2,
    .wake 1 110, .wake 0 0]

theorem timed_waits_iff_twoTimed :
    ∃ s, exec SyncSys.step (SyncSys.init 0) twoTimed = some s ∧ s.returns.length = 2 ∧
      Always SyncSys.step SyncSys.Honest (SyncSys.init 0) twoTimed ∧
      (SyncWait.waitMs 2).result true 0 [(0, 1), (110, 1)] =
        (SyncWait.waitMsAbort 2 7).result true 0 [(0, 1), (110, 1)] := by
  obtain ⟨h1, h2⟩ := timed_waits_iff (0 : ℤ) twoTimed _ rfl
  exact ⟨_, rfl, rfl, h1.mpr (by decide),
    (h2 2 7 0 true [(0, 1), (110, 1)] (by decide) (by decide)).mpr (by decide)⟩

/-- the other one is told of a timeout in the same moment: it reports a timeout in its target state,
where `state_sync_wait_ms_abort` reports success -/
theorem timeout_in_target :
    (∃ s : SyncSys ℤ ℕ, exec SyncSys.step (SyncSys.init 0)
        [.call 0 (.waitMs 2) true, .set 1 2, .wake 0 110] = some s ∧ s.state = 2 ∧
        s.returns = [⟨.waitMs 2, etimedout, 2⟩] ∧ ¬ s.Honest) ∧
    (SyncWait.waitMs (2 : ℤ)).result true 0 [(110, 2)] = some etimedout ∧
    (SyncWait.waitMsAbort (2 : ℤ) 7).result true 0 [(110, 2)] = some 0 := by
  refine ⟨⟨_, rfl, rfl, rfl, ?_⟩, rfl, rfl⟩
  intro h
  exact (h _ List.mem_cons_self).2 rfl rfl

end QuicVpn
