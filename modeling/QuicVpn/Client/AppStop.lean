import QuicVpn.Client.App

/-!
# Stopping the client engine

`vpn_app_stop_engine` blocks in two places: in `state_sync_wait` for `APP_RUNNING`, if it has found
`APP_STARTING`, and in `pthread_join`.

* `App.Stuck`       it is blocked, and no continuation of the run lets it go on;
* `App.StopOk`      no start fails under a waiting stopper, and no stopper starts to wait for a
                    start that has failed;
* `join_leaves`     the engine thread that is being joined ends, by induction on how far it is;
* `hopeful_leaves`  an engine thread that may still report `APP_RUNNING` releases the stopper.

The main result is `app_stop_iff`.
-/

set_option linter.unusedSectionVars false

namespace QuicVpn
open Conc

/-- blocked in `state_sync_wait` or in `pthread_join` -/
def GuiPc.blocked : GuiPc → Bool
  | .join => true
  | g => g.waits

theorem GuiPc.blocked_cases {g : GuiPc} (h : g.blocked = true) : g = .join ∨ g.waits = true := by
  cases g <;> first | exact Or.inl rfl | exact Or.inr h

/-- the stopping thread is blocked, and stays so whatever the engine threads do -/
def App.Stuck (s : App) : Prop :=
  s.gui.blocked = true ∧ ∀ l s', exec App.step s l = some s' → s'.gui.blocked = true

def App.StopOk (s : App) : AppAct → Prop
  | .engine t ok => s.engine t = .starting → ok = false → s.gui.waits = false
  | .gui _ => s.gui = .stopTest → s.state = .starting → s.latest.hopeful s.session = true
  | _ => True

instance (s : App) : ∀ a, Decidable (s.StopOk a)
  | .engine t ok =>
    inferInstanceAs (Decidable (s.engine t = .starting → ok = false → s.gui.waits = false))
  | .gui _ => inferInstanceAs
      (Decidable (s.gui = .stopTest → s.state = .starting → s.latest.hopeful s.session = true))
  | .start => .isTrue trivial
  | .stop => .isTrue trivial
  | .destroy => .isTrue trivial

/-! ## leaving -/

def App.CanLeave (s : App) : Prop := ∃ l s', exec App.step s l = some s' ∧ s'.gui.blocked = false

section
variable {s s' : App} {t : ℕ}

theorem App.CanLeave.of_step (a : AppAct) (s' : App) (hs : s.step a = some s') (h : s'.CanLeave) :
    s.CanLeave := by
  obtain ⟨l, u, hl, hu⟩ := h
  exact ⟨a :: l, u, exec_cons.mpr ⟨s', hs, hl⟩, hu⟩

theorem App.CanLeave.not_stuck (h : s.CanLeave) : ¬ s.Stuck := by
  rintro ⟨_, hall⟩
  obtain ⟨l, u, hl, hu⟩ := h
  have := hall l u hl
  rw [hu] at this
  cases this

theorem GuiPc.broadcast_waits {g : GuiPc} : g.broadcast.waits = g.waits := by
  cases g <;> rfl

theorem App.set_waits (s : App) (v : AppState) : (s.set v).gui.waits = s.gui.waits := by
  rcases s.set_gui v with e | e
  · rw [e]
  · rw [e, GuiPc.broadcast_waits]

theorem App.put_engine (s : App) (t : ℕ) (p : EnginePc) : (s.put t p).engine t = p :=
  Function.update_self (β := fun _ => EnginePc) t p s.engine

/-- the number of steps to the end, once the loop is entered -/
def EnginePc.rank : EnginePc → Option ℕ
  | .labelling => some 7
  | .looping => some 6
  | .leaving => some 5
  | .cleaning => some 4
  | .clearing => some 3
  | .finishing => some 2
  | .returning => some 1
  | .ended => some 0
  | _ => none

/-- the joined thread comes closer to its end -/
theorem App.join_step {n : ℕ} (hg : s.gui = .join) (hv : s.state ≠ .running)
    (hr : (s.engine t).rank = some (n + 1)) :
    ∃ s', s.step (.engine t true) = some s' ∧ s'.gui = .join ∧ s'.engineThread = s.engineThread ∧
      s'.state ≠ .running ∧ ∃ m, m ≤ n ∧ (s'.engine t).rank = some m := by
  have hset : (s.set .stopped).state ≠ .running := by
    rw [App.set_state]
    exact nofun
  cases e : s.engine t with
  | labelling =>
    rw [e] at hr
    cases hr
    exact ⟨s.put t .looping, by simp only [App.step, App.engineStep, e], hg, rfl, hv,
      6, Nat.le_refl _, by rw [App.put_engine]; rfl⟩
  | looping =>
    rw [e] at hr
    cases hr
    exact ⟨s.put t .leaving, by simp [App.step, App.engineStep, e, stateSyncCheck, hv],
      hg, rfl, hv, 5, Nat.le_refl _, by rw [App.put_engine]; rfl⟩
  | leaving =>
    rw [e] at hr
    cases hr
    cases hse : s.session with
    | true =>
      exact ⟨s.put t .cleaning, by simp [App.step, App.engineStep, e, hse],
        hg, rfl, hv, 4, Nat.le_refl _, by rw [App.put_engine]; rfl⟩
    | false =>
      exact ⟨s.put t .finishing, by simp [App.step, App.engineStep, e, hse],
        hg, rfl, hv, 2, by decide, by rw [App.put_engine]; rfl⟩
  | cleaning =>
    rw [e] at hr
    cases hr
    exact ⟨s.put t .clearing, by simp only [App.step, App.engineStep, e], hg, rfl, hv,
      3, Nat.le_refl _, by rw [App.put_engine]; rfl⟩
  | clearing =>
    rw [e] at hr
    cases hr
    exact ⟨{ s.put t .finishing with session := false },
      by simp only [App.step, App.engineStep, e], hg, rfl, hv, 2, Nat.le_refl _,
      by rw [App.put_engine]; rfl⟩
  | finishing =>
    rw [e] at hr
    cases hr
    exact ⟨(s.set .stopped).put t .returning, by simp only [App.step, App.engineStep, e],
      App.set_join _ hg, rfl, hset, 1, Nat.le_refl _, by rw [App.put_engine]; rfl⟩
  | returning =>
    rw [e] at hr
    cases hr
    exact ⟨s.put t .ended, by simp only [App.step, App.engineStep, e], hg, rfl, hv,
      0, Nat.le_refl _, by rw [App.put_engine]; rfl⟩
  | _ =>
    rw [e] at hr
    cases hr

/-- `pthread_join` returns -/
theorem App.join_leaves (n : ℕ) : ∀ s : App, s.gui = .join → s.engineThread = some t →
    s.state ≠ .running → (s.engine t).rank = some n → s.CanLeave := by
  induction n using Nat.strongRecOn with
  | ind n ih =>
    intro s hg ht hv hr
    cases n with
    | zero =>
      have hend : s.engine t = .ended := by
        cases e : s.engine t <;> rw [e] at hr <;> first | rfl | cases hr
      refine ⟨[.gui true], { s with gui := .returned, joined := t :: s.joined }, ?_, rfl⟩
      simp [exec, App.step, App.guiStep, hg, ht, hend]
    | succ n =>
      obtain ⟨s', hs, hg', ht', hv', m, hm, hr'⟩ := App.join_step hg hv hr
      exact App.CanLeave.of_step _ _ hs (ih m (Nat.lt_succ_of_le hm) s' hg' (ht'.trans ht) hv' hr')

/-- `state_sync_wait` returns where the state is `APP_RUNNING` -/
theorem App.running_leaves (hg : s.gui.waits = true) (hv : s.state = .running) : s.CanLeave := by
  have hw : s.waitSection = { s with gui := .stopSet } := by
    unfold App.waitSection
    rw [hv]
    rfl
  refine ⟨[.gui true], s.waitSection, ?_, by rw [hw]; rfl⟩
  have hs : s.guiStep true = some s.waitSection := by
    unfold App.guiStep
    cases e : s.gui <;> rw [e] at hg <;> first | rfl | cases hg
  simp [exec, App.step, hs]

/-- an engine thread that may still report `APP_RUNNING` releases the stopper -/
theorem App.hopeful_leaves (hg : s.gui.waits = true) (hh : (s.engine t).hopeful s.session = true) :
    s.CanLeave := by
  have hready : ∀ s : App, s.gui.waits = true → s.engine t = .ready → s.CanLeave := by
    intro s hg e
    refine App.CanLeave.of_step (.engine t true) ((s.set .running).put t .labelling) ?_ ?_
    · simp only [App.step, App.engineStep, e]
    · refine App.running_leaves ?_ (App.set_state s _)
      exact (App.set_waits s .running).trans hg
  have htested : ∀ s : App, s.gui.waits = true → s.engine t = .tested → s.session = true →
      s.CanLeave := by
    intro s hg e hse
    refine App.CanLeave.of_step (.engine t true) (s.put t .ready) ?_ ?_
    · simp [App.step, App.engineStep, e, hse]
    · exact hready _ hg (App.put_engine s t .ready)
  cases e : s.engine t with
  | ready => exact hready s hg e
  | tested =>
    rw [e] at hh
    exact htested s hg e hh
  | starting =>
    refine App.CanLeave.of_step (.engine t true) { s.put t .tested with session := true } ?_ ?_
    · simp only [App.step, App.engineStep, e]
    · exact htested _ hg (App.put_engine s t .tested) rfl
  | _ =>
    rw [e] at hh
    cases hh

end

/-! ## the stoppers that nobody releases -/

/-- the stopper waits for `APP_RUNNING`, which no engine thread will report -/
def App.Doomed (s : App) : Prop :=
  s.gui.waits = true ∧ s.state ≠ .running ∧ s.latest.hopeful s.session = false

section
variable {s s' : App} {t : ℕ}

theorem App.not_doomed (h : s.gui.waits = false) : ¬ s.Doomed := by
  rintro ⟨hw, _⟩
  rw [h] at hw
  cases hw

theorem App.atRest.waits (h : s.atRest) : s.gui.waits = false := by
  rcases h.1 with g | g <;> rw [g] <;> rfl

/-- a step that keeps what matters here -/
theorem App.Doomed.congr (hg : s'.gui.waits = s.gui.waits) (hv : s'.state = s.state)
    (hh : s'.latest.hopeful s'.session = s.latest.hopeful s.session) : s'.Doomed ↔ s.Doomed := by
  unfold App.Doomed
  rw [hg, hv, hh]

theorem App.put_latest {p : EnginePc} (ht : s.engineThread = some t) : (s.put t p).latest = p := by
  rw [App.latest_eq (s := s.put t p) ht, App.put_engine]

/-- the end of `vpn_engine_start` dooms a waiting stopper if it is a failure -/
theorem App.Inv.start_doomed {ok : Bool} (h : s.Inv) (ht : s.engineThread = some t)
    (e : s.engine t = .starting) :
    App.Doomed { s.put t .tested with session := ok } ↔ s.Doomed ∨ ¬ s.StopOk (.engine t ok) := by
  have hl := h.latest
  have hlt := App.latest_eq ht
  rw [e] at hlt
  rw [hlt] at hl
  have hnd : ¬ s.Doomed := by
    rintro ⟨_, _, hh⟩
    rw [hlt] at hh
    cases hh
  have hlat : App.latest { s.put t .tested with session := ok } = .tested := App.put_latest ht
  rw [or_iff_right hnd]
  constructor
  · rintro ⟨hw, _, hh⟩ hC
    rw [hlat] at hh
    have hw' : s.gui.waits = true := hw
    rw [hC e hh] at hw'
    cases hw'
  · intro hC
    rw [App.StopOk, Classical.not_imp, Classical.not_imp] at hC
    obtain ⟨_, hfail, hw⟩ := hC
    refine ⟨(Bool.not_eq_false _).mp hw, ?_, by rw [hlat]; exact hfail⟩
    show s.state ≠ .running
    rw [hl.1]
    exact AppState.noConfusion

/-- a step of the latest engine thread dooms the stopper only by the failure of a start -/
theorem App.Inv.latest_doomed {ok : Bool} (h : s.Inv) (ht : s.engineThread = some t)
    (hs : s.engineStep t ok = some s') :
    s'.Doomed ↔ s.Doomed ∨ ¬ s.StopOk (.engine t ok) := by
  by_cases hne : s.engine t = .starting
  · simp only [App.engineStep, hne, Option.some.injEq] at hs
    rw [← hs]
    exact h.start_doomed ht hne
  have hl := h.latest
  have hlt := App.latest_eq ht
  rw [hlt, ht, Option.isSome_some] at hl
  -- for every position but `starting` the condition says nothing
  have htrue : s.StopOk (.engine t ok) := fun e => absurd e hne
  rw [or_iff_left (not_not_intro htrue)]
  obtain ⟨p, he, hth, _, _, _, hcase⟩ := App.engine_cases hs
  have hlat : s'.latest = p := by
    rw [App.latest_eq (hth.trans ht), he, Function.update_self]
  rcases hcase with ⟨_, hv, hg, hh⟩ | ⟨e, rfl, rfl⟩ | ⟨e, rfl, rfl⟩ | ⟨e, rfl, rfl⟩
  · exact App.Doomed.congr (congrArg GuiPc.waits hg) hv (by rw [hlat, hh hne, hlt])
  · -- the start has failed before: neither `failed` nor `returning` is hopeful
    have hst : ((s.set .stopped).put t .returning).state = .stopped := App.set_state s .stopped
    rw [e] at hl
    unfold App.Doomed
    rw [hlat, hlt, e, hst, hl.1]
    show (s.set .stopped).gui.waits = true ∧ _ ↔ _
    rw [App.set_waits]
    simp [EnginePc.hopeful]
  · constructor
    · rintro ⟨_, hv, _⟩
      exact absurd (App.set_state s .running) hv
    · rintro ⟨_, _, hh⟩
      rw [hlt, e] at hh
      cases hh
  · -- the stopper waits in `pthread_join` already
    rw [e] at hl
    have hg : s.gui.waits = false := by
      rw [hl.2.2]
      rfl
    have hg' : (s.set .stopped).gui.waits = false := (App.set_waits s _).trans hg
    exact iff_of_false (App.not_doomed hg') (App.not_doomed hg)

theorem App.Inv.earlier_doomed {ok : Bool} (h : s.Inv) (ht : s.engineThread ≠ some t)
    (hs : s.engineStep t ok = some s') :
    s'.Doomed ↔ s.Doomed ∨ ¬ s.StopOk (.engine t ok) := by
  obtain ⟨e, rfl⟩ := App.engineStep_over (h.earlier t ht) hs
  have htrue : s.StopOk (.engine t ok) := by
    intro e'
    rw [e] at e'
    cases e'
  rw [or_iff_left (not_not_intro htrue)]
  refine App.Doomed.congr rfl rfl ?_
  rw [App.put_earlier _ ht]
  rfl

/-- a section of `state_sync_wait` -/
theorem App.waitSection_doomed (hg : s.gui.waits = true) : s.waitSection.Doomed ↔ s.Doomed := by
  rcases s.waitSection_cases with ⟨hv, e⟩ | ⟨_, e⟩
  · rw [e]
    exact iff_of_false (App.not_doomed rfl) fun hd => hd.2.1 hv
  · rw [e]
    exact App.Doomed.congr hg.symm rfl rfl

/-- a step of the GUI thread dooms it only where it begins to wait for a start that has failed -/
theorem App.guiStep_doomed {ok : Bool} (hs : s.guiStep ok = some s') :
    s'.Doomed ↔ s.Doomed ∨ ¬ s.StopOk (.gui ok) := by
  have hok : s.gui ≠ .stopTest → (s.Doomed ∨ ¬ s.StopOk (.gui ok) ↔ s.Doomed) := by
    intro hne
    have htrue : s.StopOk (.gui ok) := fun e => absurd e hne
    exact or_iff_left (not_not_intro htrue)
  -- most steps neither begin nor end a wait
  have hout : s.gui ≠ .stopTest → s.gui.waits = false → s'.gui.waits = false →
      (s'.Doomed ↔ s.Doomed ∨ ¬ s.StopOk (.gui ok)) := by
    intro hne hw hw'
    rw [hok hne]
    exact iff_of_false (App.not_doomed hw') (App.not_doomed hw)
  cases App.guiStep_move hs with
  | startSet g => exact hout (by rw [g]; exact GuiPc.noConfusion) (by rw [g]; rfl) rfl
  | create g => exact hout (by rw [g]; exact GuiPc.noConfusion) (by rw [g]; rfl) rfl
  | createFail g => exact hout (by rw [g]; exact GuiPc.noConfusion) (by rw [g]; rfl) rfl
  | seesStarting g hv =>
    rw [or_iff_right (App.not_doomed (by rw [g]; rfl)), App.StopOk, Classical.not_imp,
      Classical.not_imp]
    constructor
    · rintro ⟨_, _, hh⟩
      have hh' : s.latest.hopeful s.session = false := hh
      exact ⟨g, hv, by rw [hh']; exact Bool.false_ne_true⟩
    · rintro ⟨_, _, hh⟩
      refine ⟨rfl, ?_, (Bool.not_eq_true _).mp hh⟩
      show s.state ≠ .running
      rw [hv]
      exact AppState.noConfusion
  | seesOther g hv =>
    rw [or_iff_right (App.not_doomed (by rw [g]; rfl))]
    refine iff_of_false (App.not_doomed rfl) ?_
    intro hC
    exact hC fun _ e => absurd e hv
  | wait g =>
    rw [hok (by rintro e; rw [e] at g; cases g)]
    exact App.waitSection_doomed g
  | stopSet g => exact hout (by rw [g]; exact GuiPc.noConfusion) (by rw [g]; rfl) rfl
  | join g ht hend => exact hout (by rw [g]; exact GuiPc.noConfusion) (by rw [g]; rfl) rfl
  | free g hd => exact hout (by rw [g]; exact GuiPc.noConfusion) (by rw [g]; rfl) rfl

/-- **One step.**  The stopper is doomed after a step if it was before, or if the step is one that
the condition excludes. -/
theorem App.step_doomed {a : AppAct} (h : s.Inv) (hs : s.step a = some s') :
    s'.Doomed ↔ s.Doomed ∨ ¬ s.StopOk a := by
  have hcall : ∀ {a : AppAct}, s.atRest → s'.gui.waits = false → s.StopOk a →
      (s'.Doomed ↔ s.Doomed ∨ ¬ s.StopOk a) := by
    intro a hr hw hC
    rw [or_iff_left (not_not_intro hC)]
    exact iff_of_false (App.not_doomed hw) (App.not_doomed hr.waits)
  cases a with
  | start =>
    simp only [App.step, Option.ite_none_right_eq_some, Option.some.injEq] at hs
    obtain ⟨hr, rfl⟩ := hs
    refine hcall hr ?_ trivial
    dsimp only
    split <;> rfl
  | stop =>
    simp only [App.step, Option.ite_none_right_eq_some, Option.some.injEq] at hs
    obtain ⟨hr, rfl⟩ := hs
    refine hcall hr ?_ trivial
    unfold App.stopCall
    dsimp only
    split <;> rfl
  | destroy =>
    simp only [App.step, Option.ite_none_right_eq_some, Option.some.injEq] at hs
    obtain ⟨hr, rfl⟩ := hs
    refine hcall hr ?_ trivial
    unfold App.stopCall
    dsimp only
    split <;> rfl
  | gui ok => exact App.guiStep_doomed hs
  | engine t ok =>
    by_cases ht : s.engineThread = some t
    · exact h.latest_doomed ht hs
    · exact h.earlier_doomed ht hs

/-- a doomed stopper is blocked for ever -/
theorem App.Doomed.stuck (h : s.Inv) (hd : s.Doomed) : s.Stuck := by
  have hb : ∀ u : App, u.Inv ∧ u.Doomed → u.gui.blocked = true := by
    rintro u ⟨_, hw, _⟩
    cases e : u.gui <;> rw [e] at hw <;> first | rfl | cases hw
  refine ⟨hb s ⟨h, hd⟩, fun l u hl => hb u ?_⟩
  refine exec_inv (I := fun u => u.Inv ∧ u.Doomed) ?_ ⟨h, hd⟩ hl
  rintro v a v' ⟨hi, hv⟩ hs
  exact ⟨App.step_inv v a v' hi hs, (App.step_doomed hi hs).mpr (Or.inl hv)⟩

/-- and no other is -/
theorem App.Inv.not_stuck (h : s.Inv) (hd : ¬ s.Doomed) : ¬ s.Stuck := by
  intro hst
  have hl := h.latest
  cases hw : s.gui.waits with
  | true =>
    by_cases hv : s.state = .running
    · exact (App.running_leaves hw hv).not_stuck hst
    · have hh : s.latest.hopeful s.session = true := by
        cases hh : s.latest.hopeful s.session with
        | true => rfl
        | false => exact absurd ⟨hw, hv, hh⟩ hd
      cases ht : s.engineThread with
      | none =>
        rw [App.latest, ht] at hh
        cases hh
      | some t =>
        rw [App.latest_eq ht] at hh
        exact (App.hopeful_leaves hw hh).not_stuck hst
  | false =>
    have hg : s.gui = .join := by
      rcases GuiPc.blocked_cases hst.1 with e | e
      · exact e
      · rw [hw] at e
        cases e
    rw [hg] at hl
    cases ht : s.engineThread with
    | none =>
      rw [App.latest, ht] at hl
      cases hl.2.2.2
    | some t =>
      rw [App.latest_eq ht] at hl
      have hborn := h.born t (by have := h.handle t ht; omega)
      have hrank : s.state ≠ .running ∧ ∃ n, (s.engine t).rank = some n := by
        cases e : s.engine t <;> rw [e] at hl hborn <;>
          simp_all [EnginePc.Allows, EnginePc.rank, GuiPc.calm, GuiPc.waits]
      obtain ⟨hv, n, hn⟩ := hrank
      exact (App.join_leaves n s hg ht hv hn).not_stuck hst

end

/-- **Stopping the client engine.**  In a run of starts, stops and engine threads the stopping thread
is never blocked for good if and only if no `vpn_engine_start` fails while it waits for `APP_RUNNING`,
and it never begins to wait for an engine thread whose start has failed already, or that could not be
created. -/
theorem app_stop_iff (l : List AppAct) (s : App) (hs : exec App.step App.init l = some s) :
    Always App.step (fun s => ¬ s.Stuck) App.init l ↔ Along App.step App.StopOk App.init l := by
  refine always_iff_along (I := fun s => s.Inv ∧ ¬ s.Doomed) ?_ ?_ ?_ ?_ hs
  · rintro s ⟨hi, hd⟩
    exact hi.not_stuck hd
  · rintro s a s' ⟨hi, hd⟩ hC hs
    refine ⟨App.step_inv s a s' hi hs, fun hd' => ?_⟩
    rcases (App.step_doomed hi hs).mp hd' with h | h
    · exact hd h
    · exact h hC
  · rintro s a s' ⟨hi, _⟩ hC hs hn
    exact hn (((App.step_doomed hi hs).mpr (Or.inr hC)).stuck (App.step_inv s a s' hi hs))
  · exact ⟨App.init_inv, App.not_doomed rfl⟩

/-- the stopper waits for the start, which succeeds; it goes on to the join and returns -/
def stopDuringStart : List AppAct :=
  [.start, .gui true, .gui true, .stop, .gui true, .gui true, .engine 0 true, .engine 0 true,
    .engine 0 true, .gui true, .gui true, .engine 0 true, .engine 0 true, .engine 0 true,
    .engine 0 true, .engine 0 true, .engine 0 true, .engine 0 true, .gui true]

theorem app_stop_iff_stopDuringStart :
    ∃ s, exec App.step App.init stopDuringStart = some s ∧ s.gui = .returned ∧
      Along App.step App.StopOk App.init stopDuringStart ∧
      Always App.step (fun s => ¬ s.Stuck) App.init stopDuringStart := by
  have hC : Along App.step App.StopOk App.init stopDuringStart := by decide
  exact ⟨_, rfl, rfl, hC, (app_stop_iff stopDuringStart _ rfl).mpr hC⟩

/-- the stopper has found `APP_STARTING` and sleeps when the start fails: `APP_STOPPED` is not what it
waits for -/
theorem stop_deadlock :
    ∃ s, exec App.step App.init [.start, .gui true, .gui true, .stop, .gui true, .gui true,
        .engine 0 false, .engine 0 true, .engine 0 true, .gui true] = some s ∧
      s.gui = .asleep ∧ s.state = .stopped ∧ s.Stuck := by
  refine ⟨_, rfl, rfl, rfl, App.Doomed.stuck ?_ ?_⟩
  · exact exec_inv (I := App.Inv) App.step_inv App.init_inv (l := [.start, .gui true, .gui true,
      .stop, .gui true, .gui true, .engine 0 false, .engine 0 true, .engine 0 true, .gui true]) rfl
  · exact ⟨rfl, by decide, rfl⟩

end QuicVpn
