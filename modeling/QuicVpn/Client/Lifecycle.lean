import Mathlib.Data.List.Nodup
import QuicVpn.Client.App

/-!
# The life cycle of the client engine

What the GUI thread may rely on after `vpn_app_stop_engine` has returned, over any sequence of starts
and stops:

* `App.Consistent`   the state is `APP_STOPPED`, the session is gone, no engine thread runs and the
                     next start creates one; at most one engine thread runs at any time, and none is
                     joined twice;
* `App.LifeOk`       a start does not fail between the two tests of a stop, and the GUI thread does
                     not act on `APP_STOPPED` while the thread that has set it still runs;
* `App.Life`         the invariant of the runs whose steps meet the condition.

The main result is `app_consistent`.
-/

set_option linter.unusedSectionVars false

namespace QuicVpn
open Conc

/-- no engine thread runs -/
def App.Quiet (s : App) : Prop := ∀ t, t < s.created → (s.engine t).running = false

structure App.Consistent (s : App) : Prop where
  stopped : s.gui = .returned ∨ s.gui = .freed →
    s.state = .stopped ∧ s.session = false ∧ ∀ t, (s.engine t).running = false
  again : s.gui = .returned → s.destroying = false → ∃ s',
    exec App.step s [.start, .gui true, .gui true] = some s' ∧ s'.engine s.created = .starting
  single : ∀ t u, (s.engine t).running = true → (s.engine u).running = true → t = u
  joins : s.joined.Nodup

def App.LifeOk (s : App) : AppAct → Prop
  | .start => True
  | .stop => s.state = .stopped → s.Quiet
  | .destroy => s.state = .stopped → s.Quiet
  | .gui _ => s.gui = .startCreate → s.Quiet
  | .engine t _ => s.engine t = .failed → s.gui ≠ .stopTest

instance (s : App) : Decidable s.Quiet :=
  inferInstanceAs (Decidable (∀ t, t < s.created → (s.engine t).running = false))

instance (s : App) : ∀ a, Decidable (s.LifeOk a)
  | .start => .isTrue trivial
  | .stop => inferInstanceAs (Decidable (s.state = .stopped → s.Quiet))
  | .destroy => inferInstanceAs (Decidable (s.state = .stopped → s.Quiet))
  | .gui _ => inferInstanceAs (Decidable (s.gui = .startCreate → s.Quiet))
  | .engine t _ => inferInstanceAs (Decidable (s.engine t = .failed → s.gui ≠ .stopTest))

structure App.Life (s : App) : Prop where
  inv : s.Inv
  stopping : s.state = .stopping → s.gui = .join
  test : s.gui = .stopTest → s.state ≠ .stopped
  set : s.gui = .stopSet → s.state = .running
  join : s.gui = .join → s.latest.over = true → s.state = .stopped
  rest : s.gui = .returned ∨ s.gui = .freed → s.state = .stopped ∧ s.Quiet
  earlier : ∀ u, s.engineThread ≠ some u → (s.engine u).running = false
  joins : s.joined.Nodup
  joined : ∀ t ∈ s.joined, t < s.created
  fresh : ∀ t, s.engineThread = some t →
    s.latest.over = false ∨ s.gui = .stopSet ∨ s.gui = .join → t ∉ s.joined

theorem App.init_life : App.init.Life :=
  ⟨App.init_inv, nofun, nofun, nofun, nofun, nofun, fun _ _ => rfl, List.nodup_nil, nofun, nofun⟩

section
variable {s s' : App} {t : ℕ}

theorem App.Inv.quiet (h : s.Inv) (hq : s.Quiet) (t : ℕ) : (s.engine t).running = false := by
  by_cases ht : t < s.created
  · exact hq t ht
  · rw [h.unborn t (by omega)]
    rfl

/-- from `APP_STOPPED` a start creates an engine thread -/
theorem App.restart (hr : s.atRest) (hv : s.state = .stopped) : ∃ s',
    exec App.step s [.start, .gui true, .gui true] = some s' ∧ s'.engine s.created = .starting := by
  have hstart : s.step .start = some { s with gui := .startSet } := by
    show (if s.atRest then _ else _) = _
    rw [if_pos hr, stateSyncCheck, decide_eq_true hv]
    rfl
  refine ⟨_, exec_cons.mpr ⟨_, hstart, exec_cons.mpr ⟨_, rfl, exec_cons.mpr ⟨_, rfl, rfl⟩⟩⟩, ?_⟩
  exact Function.update_self (β := fun _ => EnginePc) s.created .starting s.engine

theorem App.Life.consistent (h : s.Life) : s.Consistent := by
  refine ⟨?_, ?_, ?_, h.joins⟩
  · intro hg
    obtain ⟨hv, hq⟩ := h.rest hg
    have hl := h.inv.latest
    rw [hv] at hl
    have hall := (EnginePc.allows_over hl.over_of_stopped _ _ _ _).mp hl
    exact ⟨hv, hall.1, h.inv.quiet hq⟩
  · intro hg hd
    obtain ⟨hv, _⟩ := h.rest (Or.inl hg)
    exact App.restart ⟨Or.inr hg, hd⟩ hv
  · -- an engine thread that runs is the latest one
    have hlat : ∀ t, (s.engine t).running = true → s.engineThread = some t := by
      intro t ht
      by_contra hne
      rw [h.earlier t hne] at ht
      cases ht
    intro t u ht hu
    exact Option.some.inj ((hlat t ht).symm.trans (hlat u hu))

/-! ## the engine threads -/

/-- a calm GUI thread stays calm when the state is set -/
theorem App.set_gui_ne (v : AppState) (hcalm : s.gui.calm = true) {g : GuiPc} (hg : g.calm = false) :
    (s.set v).gui ≠ g := by
  rintro rfl
  rw [App.set_calm v hcalm] at hg
  cases hg

theorem App.Life.engineStep {ok : Bool} (h : s.Life) (hC : s.LifeOk (.engine t ok))
    (hs : s.engineStep t ok = some s') : s'.Life := by
  have hinv : s'.Inv := App.step_inv s (.engine t ok) s' h.inv hs
  obtain ⟨p, he, hth, hc, hj, hrun, hcase⟩ := App.engine_cases hs
  have ht : s.engineThread = some t := by
    by_contra hne
    rw [h.earlier t hne] at hrun
    cases hrun
  have hlat : s.latest = s.engine t := App.latest_eq ht
  have hlat' : s'.latest = p := by
    rw [App.latest_eq (hth.trans ht), he, Function.update_self]
  -- while the GUI thread has returned no engine thread runs
  have hnr : ¬ (s.gui = .returned ∨ s.gui = .freed) := by
    intro hg
    rw [h.inv.quiet (h.rest hg).2 t] at hrun
    cases hrun
  have hear : ∀ u, s'.engineThread ≠ some u → (s'.engine u).running = false := by
    intro u hu
    rw [hth] at hu
    have hne : u ≠ t := fun e => hu (e ▸ ht)
    rw [he, Function.update_of_ne hne]
    exact h.earlier u hu
  have hall := h.inv.latest
  rw [hlat, ht] at hall
  rcases hcase with ⟨hover, hv, hg, _⟩ | ⟨e, rfl, rfl⟩ | ⟨e, rfl, rfl⟩ | ⟨e, rfl, rfl⟩
  · refine ⟨hinv, ?_, ?_, ?_, ?_, ?_, hear, hj ▸ h.joins, ?_, ?_⟩
    · rw [hv, hg]
      exact h.stopping
    · rw [hv, hg]
      exact h.test
    · rw [hv, hg]
      exact h.set
    · rw [hv, hg, hlat', hover, ← hlat]
      exact h.join
    · rw [hg]
      exact fun hr => absurd hr hnr
    · rw [hj, hc]
      exact h.joined
    · rw [hth, hg, hj, hlat', hover, ← hlat]
      exact h.fresh
  · -- the start has failed
    rw [e] at hall
    have hcalm : s.gui.calm = true := hall.2.1
    have hst : (s.set .stopped).state = .stopped := App.set_state s _
    have hnt : (s.set .stopped).gui ≠ .stopTest := by
      have hne := hC e
      rcases s.set_gui .stopped with eg | eg
      · rw [eg]
        exact hne
      · rw [eg]
        cases g : s.gui <;> first | exact absurd g hne | exact nofun
    refine ⟨hinv, ?_, fun hg => absurd hg hnt, fun hg => absurd hg (App.set_gui_ne _ hcalm rfl),
      fun hg => absurd hg (App.set_gui_ne _ hcalm rfl), ?_, hear, h.joins, h.joined, ?_⟩
    · intro hv
      rw [show ((s.set .stopped).put t .returning).state = .stopped from hst] at hv
      cases hv
    · rintro (hg | hg)
      · exact absurd hg (App.set_gui_ne _ hcalm rfl)
      · exact absurd hg (App.set_gui_ne _ hcalm rfl)
    · rintro u hu (ho | hg | hg)
      · rw [hlat'] at ho
        cases ho
      · exact absurd hg (App.set_gui_ne _ hcalm rfl)
      · exact absurd hg (App.set_gui_ne _ hcalm rfl)
  · -- the engine runs
    rw [e] at hall
    have hcalm : s.gui.calm = true := hall.2.1
    have hst : ((s.set .running).put t .labelling).state = .running := App.set_state s _
    refine ⟨hinv, ?_, ?_, fun _ => hst, fun hg => absurd hg (App.set_gui_ne _ hcalm rfl), ?_, hear,
      h.joins, h.joined, ?_⟩
    · rw [hst]
      exact nofun
    · rw [hst]
      exact fun _ => nofun
    · rintro (hg | hg)
      · exact absurd hg (App.set_gui_ne _ hcalm rfl)
      · exact absurd hg (App.set_gui_ne _ hcalm rfl)
    · intro u hu _
      exact h.fresh u hu (Or.inl (by rw [hlat, e]; rfl))
  · -- the engine has been cleaned up
    rw [e] at hall
    have hg : s.gui = .join := hall.2.2
    have hst : ((s.set .stopped).put t .returning).state = .stopped := App.set_state s _
    have hg' : ((s.set .stopped).put t .returning).gui = .join := App.set_join _ hg
    refine ⟨hinv, ?_, ?_, ?_, fun _ _ => hst, ?_, hear, h.joins, h.joined, ?_⟩
    · rw [hst]
      exact nofun
    · rw [hg']
      exact nofun
    · rw [hg']
      exact nofun
    · rw [hg']
      exact nofun
    · intro u hu _
      exact h.fresh u hu (Or.inr (Or.inr hg))

/-! ## the GUI thread -/

/-- a step of the GUI thread that keeps the state and stays in its call -/
theorem App.Life.guiMove (h : s.Life) (hinv : s'.Inv) (hv : s'.state = s.state)
    (he : s'.engine = s.engine) (hth : s'.engineThread = s.engineThread)
    (hc : s'.created = s.created) (hj : s'.joined = s.joined) (hgj : s.gui ≠ .join)
    (hgj' : s'.gui ≠ .join) (htest : s'.gui = .stopTest → s.state ≠ .stopped)
    (hset : s'.gui = .stopSet → s.state = .running)
    (hrest : s'.gui = .returned ∨ s'.gui = .freed → s.state = .stopped ∧ s.Quiet) : s'.Life := by
  have hl : s'.latest = s.latest := by
    unfold App.latest
    rw [hth, he]
  refine ⟨hinv, ?_, ?_, ?_, fun hg => absurd hg hgj', ?_, ?_, hj ▸ h.joins, ?_, ?_⟩
  · rw [hv]
    exact fun hst => absurd (h.stopping hst) hgj
  · rw [hv]
    exact htest
  · rw [hv]
    exact hset
  · rw [hv]
    unfold App.Quiet
    rw [hc, he]
    exact hrest
  · rw [hth, he]
    exact h.earlier
  · rw [hj, hc]
    exact h.joined
  · intro t ht hor
    rw [hth] at ht
    rw [hj]
    rw [hl] at hor
    rcases hor with ho | hg | hg
    · exact h.fresh t ht (Or.inl ho)
    · -- where the state is `APP_RUNNING` the engine is not over
      have hrun := hset hg
      have hlat := h.inv.latest
      cases ho : s.latest.over with
      | false => exact h.fresh t ht (Or.inl ho)
      | true =>
        have hall := (EnginePc.allows_over ho _ _ _ _).mp hlat
        exact absurd hrun hall.2.1
    · exact absurd hg hgj'

/-- a position of the GUI thread of which `App.Life` says nothing -/
def GuiPc.plain : GuiPc → Bool
  | .join => false
  | .stopTest => false
  | .stopSet => false
  | .returned => false
  | .freed => false
  | _ => true

theorem App.Life.guiPlain (h : s.Life) (hinv : s'.Inv) (hv : s'.state = s.state)
    (he : s'.engine = s.engine) (hth : s'.engineThread = s.engineThread)
    (hc : s'.created = s.created) (hj : s'.joined = s.joined) (hgj : s.gui ≠ .join)
    (hp : s'.gui.plain = true) : s'.Life := by
  have hne : ∀ g, g.plain = false → s'.gui ≠ g := by
    intro g hg e
    rw [e, hg] at hp
    cases hp
  exact h.guiMove hinv hv he hth hc hj hgj (hne .join rfl) (fun e => absurd e (hne .stopTest rfl))
    (fun e => absurd e (hne .stopSet rfl))
    (fun e => absurd e (not_or.mpr ⟨hne .returned rfl, hne .freed rfl⟩))

theorem App.Life.waitSection (h : s.Life) (hinv : s.waitSection.Inv) (hg : s.gui.waits = true) :
    s.waitSection.Life := by
  have hgj : s.gui ≠ .join := by
    intro e
    rw [e] at hg
    cases hg
  rcases s.waitSection_cases with ⟨hv, e⟩ | ⟨_, e⟩
  · rw [e] at hinv ⊢
    exact h.guiMove hinv rfl rfl rfl rfl rfl hgj nofun nofun (fun _ => hv) nofun
  · rw [e] at hinv ⊢
    exact h.guiPlain hinv rfl rfl rfl rfl rfl hgj rfl

/-- `pthread_create`, while no engine thread runs -/
theorem App.Life.create (h : s.Life) (hinv : App.Inv { s.put s.created .starting with
      engineThread := some s.created, created := s.created + 1, gui := .idle })
    (hg : s.gui = .startCreate) (hq : s.Quiet) :
    App.Life { s.put s.created .starting with
      engineThread := some s.created, created := s.created + 1, gui := .idle } := by
  have hst : s.state ≠ .stopping := by
    intro e
    have := h.stopping e
    rw [hg] at this
    cases this
  refine ⟨hinv, fun e => absurd e hst, nofun, nofun, nofun, nofun, ?_, h.joins, ?_, ?_⟩
  · intro u hu
    have hne : u ≠ s.created := by
      rintro rfl
      exact hu rfl
    show (Function.update s.engine s.created .starting u).running = false
    rw [Function.update_of_ne hne]
    exact h.inv.quiet hq u
  · intro u hu
    have := h.joined u hu
    show u < s.created + 1
    omega
  · intro u hu _ hm
    cases hu
    exact absurd (h.joined _ hm) (Nat.lt_irrefl _)

theorem App.Life.join_return (h : s.Life) {t : ℕ} (hg : s.gui = .join)
    (ht : s.engineThread = some t) (hend : s.engine t = .ended)
    (hinv : App.Inv { s with gui := .returned, joined := t :: s.joined }) :
    App.Life { s with gui := .returned, joined := t :: s.joined } := by
  have hlat := App.latest_eq ht
  rw [hend] at hlat
  have ho : s.latest.over = true := by
    rw [hlat]
    rfl
  have hst := h.join hg ho
  have hlt : t < s.created := by
    have := h.inv.handle t ht
    omega
  have hq : s.Quiet := by
    intro u _
    by_cases hu : s.engineThread = some u
    · rw [← App.latest_eq hu, hlat]
      rfl
    · exact h.earlier u hu
  refine ⟨hinv, ?_, nofun, nofun, nofun, fun _ => ⟨hst, hq⟩, h.earlier, ?_, ?_, ?_⟩
  · intro e
    have e' : s.state = .stopping := e
    rw [hst] at e'
    cases e'
  · exact List.nodup_cons.mpr ⟨h.fresh t ht (Or.inr (Or.inr hg)), h.joins⟩
  · intro u hu
    rcases List.mem_cons.mp hu with rfl | hu
    · exact hlt
    · exact h.joined u hu
  · rintro u hu (ho' | hg' | hg')
    · have ho'' : s.latest.over = false := ho'
      rw [ho] at ho''
      cases ho''
    · cases hg'
    · cases hg'

/-- the first `state_sync_set` of a start -/
theorem App.Life.startSet (h : s.Life) (g : s.gui = .startSet)
    (hinv : App.Inv { s.set .starting with gui := .startCreate }) :
    App.Life { s.set .starting with gui := .startCreate } := by
  have hst : ({ s.set .starting with gui := .startCreate } : App).state = .starting :=
    App.set_state s _
  have hl := h.inv.latest
  rw [g] at hl
  have ho := hl.over rfl GuiPc.noConfusion GuiPc.noConfusion
  refine ⟨hinv, ?_, GuiPc.noConfusion, GuiPc.noConfusion, GuiPc.noConfusion, ?_, h.earlier,
    h.joins, h.joined, ?_⟩
  · rw [hst]
    exact AppState.noConfusion
  · exact fun hg => hg.elim GuiPc.noConfusion GuiPc.noConfusion
  · rintro u hu (ho' | hg | hg)
    · have ho'' : s.latest.over = false := ho'
      rw [ho] at ho''
      cases ho''
    · cases hg
    · cases hg

/-- the `state_sync_set` of a stop -/
theorem App.Life.stopSet (h : s.Life) (g : s.gui = .stopSet)
    (hinv : App.Inv { s.set .stopping with gui := .join }) :
    App.Life { s.set .stopping with gui := .join } := by
  have hrun := h.set g
  have ho : s.latest.over = false := by
    cases ho : s.latest.over with
    | false => rfl
    | true => exact absurd hrun ((EnginePc.allows_over ho _ _ _ _).mp h.inv.latest).2.1
  refine ⟨hinv, fun _ => rfl, GuiPc.noConfusion, GuiPc.noConfusion, ?_, ?_, h.earlier, h.joins,
    h.joined, ?_⟩
  · intro _ ho'
    have ho'' : s.latest.over = true := ho'
    rw [ho] at ho''
    cases ho''
  · exact fun hg => hg.elim GuiPc.noConfusion GuiPc.noConfusion
  · intro u hu _
    exact h.fresh u hu (Or.inl ho)

theorem App.Life.guiStep {ok : Bool} (h : s.Life) (hC : s.LifeOk (.gui ok))
    (hs : s.guiStep ok = some s') : s'.Life := by
  have hinv : s'.Inv := App.step_inv s (.gui ok) s' h.inv hs
  cases App.guiStep_move hs with
  | startSet g => exact h.startSet g hinv
  | create g => exact h.create hinv g (hC g)
  | createFail g =>
    exact h.guiPlain hinv rfl rfl rfl rfl rfl (by rw [g]; exact GuiPc.noConfusion) rfl
  | seesStarting g hv =>
    exact h.guiPlain hinv rfl rfl rfl rfl rfl (by rw [g]; exact GuiPc.noConfusion) rfl
  | seesOther g hv =>
    have hgj : s.gui ≠ .join := by
      rw [g]
      exact GuiPc.noConfusion
    refine h.guiMove hinv rfl rfl rfl rfl rfl hgj GuiPc.noConfusion GuiPc.noConfusion (fun _ => ?_)
      (fun hg => hg.elim GuiPc.noConfusion GuiPc.noConfusion)
    cases hst : s.state with
    | stopped => exact absurd hst (h.test g)
    | starting => exact absurd hst hv
    | running => rfl
    | stopping => exact absurd (h.stopping hst) hgj
  | wait g => exact h.waitSection hinv g
  | stopSet g => exact h.stopSet g hinv
  | join g ht hend => exact h.join_return g ht hend hinv
  | free g hd =>
    exact h.guiMove hinv rfl rfl rfl rfl rfl (by rw [g]; exact GuiPc.noConfusion) GuiPc.noConfusion
      GuiPc.noConfusion GuiPc.noConfusion
      fun _ => h.rest (Or.inl g)

theorem App.atRest.ne_join (hr : s.atRest) : s.gui ≠ .join := by
  rcases hr.1 with g | g <;> rw [g] <;> exact nofun

/-- the first test of `vpn_app_stop_engine` -/
theorem App.Life.stopCall (h : s.Life) (hr : s.atRest) (hinv : s.stopCall.Inv)
    (hC : s.state = .stopped → s.Quiet) : s.stopCall.Life := by
  unfold App.stopCall at hinv ⊢
  by_cases hv : s.state = .stopped
  · rw [stateSyncCheck, decide_eq_true hv] at hinv ⊢
    exact h.guiMove hinv rfl rfl rfl rfl rfl hr.ne_join GuiPc.noConfusion GuiPc.noConfusion
      GuiPc.noConfusion fun _ => ⟨hv, hC hv⟩
  · rw [stateSyncCheck, decide_eq_false hv] at hinv ⊢
    exact h.guiMove hinv rfl rfl rfl rfl rfl hr.ne_join GuiPc.noConfusion (fun _ => hv)
      GuiPc.noConfusion (fun hg => hg.elim GuiPc.noConfusion GuiPc.noConfusion)

theorem App.step_life (s : App) (a : AppAct) (s' : App) (h : s.Life) (hC : s.LifeOk a)
    (hs : s.step a = some s') : s'.Life := by
  have hinv := App.step_inv s a s' h.inv hs
  cases a with
  | start =>
    simp only [App.step, Option.ite_none_right_eq_some, Option.some.injEq] at hs
    obtain ⟨hr, rfl⟩ := hs
    by_cases hv : s.state = .stopped
    · rw [stateSyncCheck, decide_eq_true hv] at hinv ⊢
      exact h.guiPlain hinv rfl rfl rfl rfl rfl hr.ne_join rfl
    · rw [stateSyncCheck, decide_eq_false hv] at hinv ⊢
      exact h.guiPlain hinv rfl rfl rfl rfl rfl hr.ne_join rfl
  | stop =>
    simp only [App.step, Option.ite_none_right_eq_some, Option.some.injEq] at hs
    obtain ⟨hr, rfl⟩ := hs
    exact h.stopCall hr hinv hC
  | destroy =>
    simp only [App.step, Option.ite_none_right_eq_some, Option.some.injEq] at hs
    obtain ⟨hr, rfl⟩ := hs
    obtain ⟨_, hstop, htest, hset, hjoin, hrest, hear, hj, hjd, hf⟩ :=
      h.stopCall hr (h.inv.stopCall hr) hC
    exact ⟨hinv, hstop, htest, hset, hjoin, hrest, hear, hj, hjd, hf⟩
  | gui ok => exact h.guiStep hC hs
  | engine t ok => exact h.engineStep hC hs

end

/-- **The life cycle of the engine.**  In every run of starts, stops and a final destroy in which no
start fails between the two tests of a stop, and in which the GUI thread does not act on `APP_STOPPED`
before the thread that has set it has ended, every state is consistent. -/
theorem app_consistent (l : List AppAct) (h : Along App.step App.LifeOk App.init l) :
    Always App.step App.Consistent App.init l :=
  always_of_along (fun _ hs => App.Life.consistent hs) App.step_life App.init_life h

/-- a start that fails, a start that is stopped while it runs, and the end -/
def failThenStop : List AppAct :=
  [.start, .gui true, .gui true, .engine 0 false, .engine 0 true, .engine 0 true, .engine 0 true,
    .stop, .start, .gui true, .gui true, .engine 1 true, .engine 1 true, .engine 1 true, .stop,
    .gui true, .gui true, .engine 1 true, .engine 1 true, .engine 1 true, .engine 1 true,
    .engine 1 true, .engine 1 true, .engine 1 true, .gui true, .destroy, .gui true]

theorem app_consistent_failThenStop :
    ∃ s, exec App.step App.init failThenStop = some s ∧ s.gui = .freed ∧ s.joined = [1] ∧
      Along App.step App.LifeOk App.init failThenStop ∧
      Always App.step App.Consistent App.init failThenStop :=
  ⟨_, rfl, rfl, rfl, by decide, app_consistent failThenStop (by decide)⟩

/-- the start fails between the two tests of the stop: the stop overwrites `APP_STOPPED`, joins and
returns in `APP_STOPPING`, which nothing resets; the next stop joins the same thread again -/
theorem stop_leaves_stopping :
    ∃ s, exec App.step App.init [.start, .gui true, .gui true, .stop, .engine 0 false, .engine 0 true,
        .engine 0 true, .engine 0 true, .gui true, .gui true, .gui true] = some s ∧
      s.gui = .returned ∧ s.state = .stopping ∧ ¬ s.Consistent ∧
      ∃ s', exec App.step s [.start, .stop, .gui true, .gui true, .gui true] = some s' ∧
        s'.created = 1 ∧ s'.joined = [0, 0] := by
  refine ⟨_, rfl, rfl, rfl, fun h => ?_, _, rfl, rfl, rfl⟩
  have hst := (h.stopped (Or.inl rfl)).1
  cases hst

end QuicVpn
