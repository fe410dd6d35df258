import Mathlib.Logic.Function.Basic
import Mathlib.Data.Nat.Notation
import QuicVpn.Lib.Exec
import QuicVpn.Common.StateSync

/-!
# The application around the client engine (`vpn_app.c`)

The GUI thread calls `vpn_app_start_engine`, `vpn_app_stop_engine` and at last `vpn_app_destroy`; each
successful start creates an engine thread that runs `engine_thread_routine`.  They share `app->state`,
a `state_sync_t`, and `app->session`.  A step of the system is one access to the shared state:

* `start`, `stop`, `destroy`   a call of the GUI thread, up to and including its first test;
* `gui ok`                     the next access of the GUI thread; `ok` is the outcome of a
                               `pthread_create`;
* `engine t ok`                the next access of the engine thread `t`; `ok` tells whether
                               `vpn_engine_start` succeeds.

`App.Inv` relates the position of the latest engine thread to the positions of the GUI thread and the
state, in every run (`App.step_inv`); all earlier threads are over.
-/

set_option linter.unusedSectionVars false

namespace QuicVpn
open Conc

/-- `app_state_t` -/
inductive AppState where
  | stopped
  | starting
  | running
  | stopping
  deriving DecidableEq, Repr

/-- where the GUI thread is; `asleep` and `woken` are inside the loop of `state_sync_wait`, `returned`
is behind the return of `vpn_app_stop_engine` -/
inductive GuiPc where
  | idle
  | startSet
  | startCreate
  | stopTest
  | stopEnter
  | asleep
  | woken
  | stopSet
  | join
  | returned
  | freed
  deriving DecidableEq, Repr

/-- where an engine thread is in `engine_thread_routine`; `returning` is behind its last
`state_sync_set` -/
inductive EnginePc where
  | unborn
  | starting
  | tested
  | failed
  | ready
  | labelling
  | looping
  | leaving
  | cleaning
  | clearing
  | finishing
  | returning
  | ended
  deriving DecidableEq, Repr

/-- `vpn_app_t` with the threads that work on it; `session` tells whether the pointer is set -/
structure App where
  state : AppState
  session : Bool
  engineThread : Option ℕ
  gui : GuiPc
  destroying : Bool
  created : ℕ
  engine : ℕ → EnginePc
  joined : List ℕ

inductive AppAct where
  | start
  | stop
  | destroy
  | gui (ok : Bool)
  | engine (t : ℕ) (ok : Bool)

/-- `vpn_app_create` -/
def App.init : App := ⟨.stopped, false, none, .idle, false, 0, fun _ => .unborn, []⟩

/-- a broadcast reaches the GUI thread if it sleeps -/
def GuiPc.broadcast : GuiPc → GuiPc
  | .asleep => .woken
  | g => g

/-- `state_sync_set(&app->state, v)` -/
def App.set (s : App) (v : AppState) : App :=
  let r := stateSyncSet s.state v
  { s with state := r.1, gui := if r.2 then s.gui.broadcast else s.gui }

def App.put (s : App) (t : ℕ) (p : EnginePc) : App := { s with engine := Function.update s.engine t p }

/-- the next access of an engine thread -/
def App.engineStep (s : App) (t : ℕ) (ok : Bool) : Option App :=
  match s.engine t with
  | .unborn => none
  | .starting => some { s.put t .tested with session := ok }
  | .tested => some (s.put t (if s.session then .ready else .failed))
  | .failed => some ((s.set .stopped).put t .returning)
  | .ready => some ((s.set .running).put t .labelling)
  | .labelling => some (s.put t .looping)
  | .looping => some (s.put t (if stateSyncCheck s.state .running then .looping else .leaving))
  | .leaving => some (s.put t (if s.session then .cleaning else .finishing))
  | .cleaning => some (s.put t .clearing)
  | .clearing => some { s.put t .finishing with session := false }
  | .finishing => some ((s.set .stopped).put t .returning)
  | .returning => some (s.put t .ended)
  | .ended => none

/-- a section of `state_sync_wait(&app->state, APP_RUNNING)` -/
def App.waitSection (s : App) : App :=
  match stateSyncWait s.state .running with
  | some _ => { s with gui := .stopSet }
  | none => { s with gui := .asleep }

/-- the next access of the GUI thread inside a call -/
def App.guiStep (s : App) (ok : Bool) : Option App :=
  match s.gui with
  | .idle => none
  | .startSet => some { s.set .starting with gui := .startCreate }
  | .startCreate =>
    -- the result of `pthread_create` is not looked at
    if ok then
      some { s.put s.created .starting with engineThread := some s.created, created := s.created + 1,
                                            gui := .idle }
    else some { s with gui := .idle }
  | .stopTest => some { s with gui := if stateSyncCheck s.state .starting then .stopEnter else .stopSet }
  | .stopEnter => some s.waitSection
  | .asleep => some s.waitSection
  | .woken => some s.waitSection
  | .stopSet => some { s.set .stopping with gui := .join }
  | .join =>
    match s.engineThread with
    | some t =>
      if s.engine t = .ended then some { s with gui := .returned, joined := t :: s.joined } else none
    | none => none
  | .returned => if s.destroying then some { s with gui := .freed } else none
  | .freed => none

/-- the GUI thread is in no call -/
def App.atRest (s : App) : Prop := (s.gui = .idle ∨ s.gui = .returned) ∧ s.destroying = false

instance (s : App) : Decidable s.atRest := inferInstanceAs (Decidable (_ ∧ _))

/-- the first test of `vpn_app_stop_engine` -/
def App.stopCall (s : App) : App :=
  { s with gui := if stateSyncCheck s.state .stopped then .returned else .stopTest }

def App.step (s : App) : AppAct → Option App
  | .start =>
    if s.atRest then
      some { s with gui := if stateSyncCheck s.state .stopped then .startSet else .idle }
    else none
  | .stop => if s.atRest then some s.stopCall else none
  | .destroy => if s.atRest then some { s.stopCall with destroying := true } else none
  | .gui ok => s.guiStep ok
  | .engine t ok => s.engineStep t ok

/-- an engine thread that will not touch the shared state any more -/
def EnginePc.over : EnginePc → Bool
  | .unborn => true
  | .returning => true
  | .ended => true
  | _ => false

/-- an engine thread that has been created and has not ended -/
def EnginePc.running : EnginePc → Bool
  | .unborn => false
  | .ended => false
  | _ => true

/-- inside `state_sync_wait` -/
def GuiPc.waits : GuiPc → Bool
  | .stopEnter => true
  | .asleep => true
  | .woken => true
  | _ => false

/-- positions of the GUI thread that do not depend on the engine having left its loop -/
def GuiPc.calm : GuiPc → Bool
  | .idle => true
  | .stopTest => true
  | g => g.waits

/-- an engine thread that may still report `APP_RUNNING` -/
def EnginePc.hopeful (session : Bool) : EnginePc → Bool
  | .starting => true
  | .tested => session
  | .ready => true
  | _ => false

/-! ## what a step does -/

section
variable {s s' : App} {t : ℕ}

/-- what a step of an engine thread does: it goes on, or it sets the state -/
theorem App.engine_cases {ok : Bool} (hs : s.engineStep t ok = some s') :
    ∃ p, s'.engine = Function.update s.engine t p ∧ s'.engineThread = s.engineThread ∧
      s'.created = s.created ∧ s'.joined = s.joined ∧ (s.engine t).running = true ∧
      (p.over = (s.engine t).over ∧ s'.state = s.state ∧ s'.gui = s.gui ∧
          (s.engine t ≠ .starting → p.hopeful s'.session = (s.engine t).hopeful s.session) ∨
        s.engine t = .failed ∧ s' = (s.set .stopped).put t .returning ∧ p = .returning ∨
        s.engine t = .ready ∧ s' = (s.set .running).put t .labelling ∧ p = .labelling ∨
        s.engine t = .finishing ∧ s' = (s.set .stopped).put t .returning ∧ p = .returning) := by
  unfold App.engineStep at hs
  cases e : s.engine t with
  | unborn =>
    rw [e] at hs
    cases hs
  | starting =>
    rw [e] at hs
    cases hs
    exact ⟨_, rfl, rfl, rfl, rfl, rfl, Or.inl ⟨rfl, rfl, rfl, fun hne => absurd rfl hne⟩⟩
  | tested =>
    rw [e] at hs
    cases hs
    refine ⟨_, rfl, rfl, rfl, rfl, rfl, Or.inl ⟨?_, rfl, rfl, fun _ => ?_⟩⟩
    · split <;> rfl
    · show (if s.session then EnginePc.ready else .failed).hopeful s.session = s.session
      cases s.session <;> rfl
  | failed =>
    rw [e] at hs
    cases hs
    exact ⟨_, rfl, rfl, rfl, rfl, rfl, Or.inr (Or.inl ⟨rfl, rfl, rfl⟩)⟩
  | ready =>
    rw [e] at hs
    cases hs
    exact ⟨_, rfl, rfl, rfl, rfl, rfl, Or.inr (Or.inr (Or.inl ⟨rfl, rfl, rfl⟩))⟩
  | labelling =>
    rw [e] at hs
    cases hs
    exact ⟨_, rfl, rfl, rfl, rfl, rfl, Or.inl ⟨rfl, rfl, rfl, fun _ => rfl⟩⟩
  | looping =>
    rw [e] at hs
    cases hs
    refine ⟨_, rfl, rfl, rfl, rfl, rfl, Or.inl ⟨?_, rfl, rfl, fun _ => ?_⟩⟩ <;> split <;> rfl
  | leaving =>
    rw [e] at hs
    cases hs
    refine ⟨_, rfl, rfl, rfl, rfl, rfl, Or.inl ⟨?_, rfl, rfl, fun _ => ?_⟩⟩ <;> split <;> rfl
  | cleaning =>
    rw [e] at hs
    cases hs
    exact ⟨_, rfl, rfl, rfl, rfl, rfl, Or.inl ⟨rfl, rfl, rfl, fun _ => rfl⟩⟩
  | clearing =>
    rw [e] at hs
    cases hs
    exact ⟨_, rfl, rfl, rfl, rfl, rfl, Or.inl ⟨rfl, rfl, rfl, fun _ => rfl⟩⟩
  | finishing =>
    rw [e] at hs
    cases hs
    exact ⟨_, rfl, rfl, rfl, rfl, rfl, Or.inr (Or.inr (Or.inr ⟨rfl, rfl, rfl⟩))⟩
  | returning =>
    rw [e] at hs
    cases hs
    exact ⟨_, rfl, rfl, rfl, rfl, rfl, Or.inl ⟨rfl, rfl, rfl, fun _ => rfl⟩⟩
  | ended =>
    rw [e] at hs
    cases hs

/-- what a step of the GUI thread inside a call does -/
inductive App.GuiMove (s : App) : Bool → App → Prop
  | startSet {ok : Bool} : s.gui = .startSet →
      GuiMove s ok { s.set .starting with gui := .startCreate }
  | create : s.gui = .startCreate →
      GuiMove s true { s.put s.created .starting with
        engineThread := some s.created, created := s.created + 1, gui := .idle }
  | createFail : s.gui = .startCreate → GuiMove s false { s with gui := .idle }
  | seesStarting {ok : Bool} : s.gui = .stopTest → s.state = .starting →
      GuiMove s ok { s with gui := .stopEnter }
  | seesOther {ok : Bool} : s.gui = .stopTest → s.state ≠ .starting →
      GuiMove s ok { s with gui := .stopSet }
  | wait {ok : Bool} : s.gui.waits = true → GuiMove s ok s.waitSection
  | stopSet {ok : Bool} : s.gui = .stopSet → GuiMove s ok { s.set .stopping with gui := .join }
  | join {ok : Bool} {t : ℕ} : s.gui = .join → s.engineThread = some t → s.engine t = .ended →
      GuiMove s ok { s with gui := .returned, joined := t :: s.joined }
  | free {ok : Bool} : s.gui = .returned → s.destroying = true →
      GuiMove s ok { s with gui := .freed }

theorem App.guiStep_move {ok : Bool} (hs : s.guiStep ok = some s') : s.GuiMove ok s' := by
  unfold App.guiStep at hs
  cases g : s.gui with
  | idle =>
    rw [g] at hs
    cases hs
  | startSet =>
    rw [g] at hs
    cases hs
    exact .startSet g
  | startCreate =>
    rw [g] at hs
    cases ok with
    | true =>
      cases hs
      exact .create g
    | false =>
      cases hs
      exact .createFail g
  | stopTest =>
    rw [g] at hs
    cases hs
    by_cases hv : s.state = .starting
    · rw [stateSyncCheck, decide_eq_true hv]
      exact .seesStarting g hv
    · rw [stateSyncCheck, decide_eq_false hv]
      exact .seesOther g hv
  | stopEnter =>
    rw [g] at hs
    cases hs
    exact .wait (by rw [g]; rfl)
  | asleep =>
    rw [g] at hs
    cases hs
    exact .wait (by rw [g]; rfl)
  | woken =>
    rw [g] at hs
    cases hs
    exact .wait (by rw [g]; rfl)
  | stopSet =>
    rw [g] at hs
    cases hs
    exact .stopSet g
  | join =>
    rw [g] at hs
    cases ht : s.engineThread with
    | none =>
      rw [ht] at hs
      cases hs
    | some t =>
      rw [ht] at hs
      simp only [Option.ite_none_right_eq_some, Option.some.injEq] at hs
      obtain ⟨hend, rfl⟩ := hs
      rw [← ht]
      exact .join g ht hend
  | returned =>
    rw [g] at hs
    simp only [Option.ite_none_right_eq_some, Option.some.injEq] at hs
    obtain ⟨hd, rfl⟩ := hs
    exact .free g hd
  | freed =>
    rw [g] at hs
    cases hs

/-- `state_sync_wait` returns, or the GUI thread goes to sleep -/
theorem App.waitSection_cases (s : App) :
    s.state = .running ∧ s.waitSection = { s with gui := .stopSet } ∨
      s.state ≠ .running ∧ s.waitSection = { s with gui := .asleep } := by
  unfold App.waitSection
  by_cases hv : s.state = .running
  · have e : stateSyncWait s.state .running = some 0 := if_neg (not_not_intro hv)
    rw [e]
    exact Or.inl ⟨hv, rfl⟩
  · have e : stateSyncWait s.state .running = none := if_pos hv
    rw [e]
    exact Or.inr ⟨hv, rfl⟩

end

/-! ## the invariant -/

/-- where the GUI thread may be while no engine thread is at work; `born`: there has been one -/
def GuiPc.Alone (v : AppState) (born : Bool) : GuiPc → Prop
  | .startSet => v = .stopped
  | .startCreate => v = .starting
  | .stopTest => v = .starting ∨ born = true
  | .stopSet => born = true
  | .join => born = true
  | _ => True

/-- what the state, the session and the GUI thread may be while the latest engine thread is at a
given position -/
def EnginePc.Allows (g : GuiPc) (v : AppState) (session born : Bool) : EnginePc → Prop
  | .starting => v = .starting ∧ g.calm
  | .tested => v = .starting ∧ g.calm
  | .failed => v = .starting ∧ g.calm ∧ session = false
  | .ready => v = .starting ∧ g.calm ∧ session = true
  | .labelling => session = true ∧
      (v = .running ∧ (g.calm ∨ g = .stopSet) ∨ v = .stopping ∧ g = .join)
  | .looping => session = true ∧
      (v = .running ∧ (g.calm ∨ g = .stopSet) ∨ v = .stopping ∧ g = .join)
  | .leaving => session = true ∧ v = .stopping ∧ g = .join
  | .cleaning => session = true ∧ v = .stopping ∧ g = .join
  | .clearing => session = true ∧ v = .stopping ∧ g = .join
  | .finishing => session = false ∧ v = .stopping ∧ g = .join
  | _ => session = false ∧ v ≠ .running ∧ (born = false → v ≠ .stopping) ∧ g.Alone v born

/-- the thread behind `app->engine_thread` -/
def App.latest (s : App) : EnginePc :=
  match s.engineThread with
  | some t => s.engine t
  | none => .unborn

structure App.Inv (s : App) : Prop where
  handle : ∀ t, s.engineThread = some t → t + 1 = s.created
  nohandle : s.engineThread = none → s.created = 0
  unborn : ∀ u, s.created ≤ u → s.engine u = .unborn
  born : ∀ u, u < s.created → s.engine u ≠ .unborn
  earlier : ∀ u, s.engineThread ≠ some u → (s.engine u).over = true
  latest : s.latest.Allows s.gui s.state s.session s.engineThread.isSome

theorem App.init_inv : App.init.Inv :=
  ⟨nofun, fun _ => rfl, fun _ _ => rfl, nofun, fun _ _ => rfl, rfl, nofun, fun _ => nofun, trivial⟩

theorem GuiPc.broadcast_calm {g : GuiPc} (h : g.calm = true) : g.broadcast.calm = true := by
  cases g <;> exact h

theorem App.set_state (s : App) (v : AppState) : (s.set v).state = v := stateSyncSet_fst _ _

/-- a broadcast does not change where the GUI thread is in its call -/
theorem App.set_gui (s : App) (v : AppState) :
    (s.set v).gui = s.gui ∨ (s.set v).gui = s.gui.broadcast := by
  unfold App.set
  dsimp only
  split
  · exact Or.inr rfl
  · exact Or.inl rfl

theorem App.set_calm {s : App} (v : AppState) (h : s.gui.calm = true) : (s.set v).gui.calm = true := by
  rcases s.set_gui v with e | e
  · rw [e]
    exact h
  · rw [e]
    exact GuiPc.broadcast_calm h

theorem App.set_join {s : App} (v : AppState) (h : s.gui = .join) : (s.set v).gui = .join := by
  rcases s.set_gui v with e | e
  · rw [e, h]
  · rw [e, h]
    rfl

section
variable {s s' : App} {t : ℕ}

theorem App.latest_eq (ht : s.engineThread = some t) : s.latest = s.engine t := by
  unfold App.latest
  rw [ht]

/-- a step of the latest engine thread -/
theorem App.Inv.move {p : EnginePc} (h : s.Inv) (ht : s.engineThread = some t)
    (he : s'.engine = Function.update s.engine t p) (hth : s'.engineThread = s.engineThread)
    (hc : s'.created = s.created) (hb : p ≠ .unborn)
    (hp : p.Allows s'.gui s'.state s'.session true) : s'.Inv := by
  refine ⟨?_, ?_, ?_, ?_, ?_, ?_⟩
  · rw [hth, hc]
    exact h.handle
  · rw [hth, hc]
    exact h.nohandle
  · intro u hu
    rw [hc] at hu
    have hlt := h.handle t ht
    rw [he, Function.update_of_ne (by omega)]
    exact h.unborn u hu
  · intro u hu
    rw [hc] at hu
    rw [he]
    by_cases hut : u = t
    · subst hut
      rw [Function.update_self]
      exact hb
    · rw [Function.update_of_ne hut]
      exact h.born u hu
  · intro u hu
    rw [hth] at hu
    have hne : u ≠ t := fun e => hu (e ▸ ht)
    rw [he, Function.update_of_ne hne]
    exact h.earlier u hu
  · rw [App.latest_eq (hth.trans ht), he, Function.update_self, hth, ht]
    exact hp

/-- a step of the GUI thread that creates no thread -/
theorem App.Inv.guiMove (h : s.Inv) (he : s'.engine = s.engine)
    (hth : s'.engineThread = s.engineThread) (hc : s'.created = s.created)
    (hp : s.latest.Allows s'.gui s'.state s'.session s.engineThread.isSome) : s'.Inv := by
  have hl : s'.latest = s.latest := by
    unfold App.latest
    rw [hth, he]
  refine ⟨?_, ?_, ?_, ?_, ?_, ?_⟩
  · rw [hth, hc]
    exact h.handle
  · rw [hth, hc]
    exact h.nohandle
  · rw [hc, he]
    exact h.unborn
  · rw [hc, he]
    exact h.born
  · rw [hth, he]
    exact h.earlier
  · rw [hl, hth]
    exact hp

/-- an engine thread that is over only ends -/
theorem App.engineStep_over {ok : Bool} (ho : (s.engine t).over = true)
    (hs : s.engineStep t ok = some s') : s.engine t = .returning ∧ s' = s.put t .ended := by
  unfold App.engineStep at hs
  cases e : s.engine t with
  | returning =>
    rw [e] at hs
    exact ⟨rfl, (Option.some.inj hs).symm⟩
  | unborn =>
    rw [e] at hs
    cases hs
  | ended =>
    rw [e] at hs
    cases hs
  | _ =>
    rw [e] at ho
    cases ho

theorem App.put_earlier (p : EnginePc) (ht : s.engineThread ≠ some t) :
    (s.put t p).latest = s.latest := by
  show (match s.engineThread with
    | some u => Function.update s.engine t p u
    | none => .unborn) = s.latest
  unfold App.latest
  split
  · rename_i u hu
    have hne : u ≠ t := fun e => ht (e ▸ hu)
    rw [Function.update_of_ne hne]
  · rfl

theorem App.Inv.earlier_step {ok : Bool} (h : s.Inv) (ht : s.engineThread ≠ some t)
    (hs : s.engineStep t ok = some s') : s'.Inv := by
  obtain ⟨e, rfl⟩ := App.engineStep_over (h.earlier t ht) hs
  have hl := App.put_earlier .ended ht
  refine ⟨h.handle, h.nohandle, ?_, ?_, ?_, ?_⟩
  · intro u hu
    have hne : u ≠ t := by
      rintro rfl
      rw [h.unborn u hu] at e
      cases e
    show Function.update s.engine t .ended u = .unborn
    rw [Function.update_of_ne hne]
    exact h.unborn u hu
  · intro u hu
    show Function.update s.engine t .ended u ≠ .unborn
    by_cases hut : u = t
    · subst hut
      rw [Function.update_self]
      exact nofun
    · rw [Function.update_of_ne hut]
      exact h.born u hu
  · intro u hu
    show (Function.update s.engine t .ended u).over = true
    by_cases hut : u = t
    · subst hut
      rw [Function.update_self]
      rfl
    · rw [Function.update_of_ne hut]
      exact h.earlier u hu
  · rw [hl]
    exact h.latest

theorem GuiPc.alone_of_calm {g : GuiPc} (v : AppState) (h : g.calm = true) : g.Alone v true := by
  cases g <;> first | trivial | exact Or.inr rfl

/-- a step of the latest engine thread -/
theorem App.Inv.latest_step {ok : Bool} (h : s.Inv) (ht : s.engineThread = some t)
    (hs : s.engineStep t ok = some s') : s'.Inv := by
  have hl := h.latest
  rw [App.latest_eq ht, ht, Option.isSome_some] at hl
  unfold App.engineStep at hs
  cases e : s.engine t with
  | unborn =>
    rw [e] at hs
    cases hs
  | starting =>
    rw [e] at hl hs
    cases hs
    exact h.move ht rfl rfl rfl nofun hl
  | tested =>
    rw [e] at hl hs
    cases hs
    cases hse : s.session with
    | true => exact h.move ht rfl rfl rfl nofun ⟨hl.1, hl.2, hse⟩
    | false => exact h.move ht rfl rfl rfl nofun ⟨hl.1, hl.2, hse⟩
  | failed =>
    rw [e] at hl hs
    cases hs
    obtain ⟨_, hcalm, hse⟩ := hl
    refine h.move ht rfl rfl rfl nofun ⟨hse, ?_, nofun, GuiPc.alone_of_calm _ (App.set_calm _ hcalm)⟩
    show (s.set .stopped).state ≠ .running
    rw [App.set_state]
    exact nofun
  | ready =>
    rw [e] at hl hs
    cases hs
    obtain ⟨_, hcalm, hse⟩ := hl
    exact h.move ht rfl rfl rfl nofun
      ⟨hse, Or.inl ⟨App.set_state s _, Or.inl (App.set_calm _ hcalm)⟩⟩
  | labelling =>
    rw [e] at hl hs
    cases hs
    exact h.move ht rfl rfl rfl nofun hl
  | looping =>
    rw [e] at hl hs
    cases hs
    by_cases hv : s.state = .running
    · rw [stateSyncCheck, decide_eq_true hv]
      exact h.move ht rfl rfl rfl nofun hl
    · rw [stateSyncCheck, decide_eq_false hv]
      obtain ⟨hse, hrun | hstop⟩ := hl
      · exact absurd hrun.1 hv
      · exact h.move ht rfl rfl rfl nofun ⟨hse, hstop⟩
  | leaving =>
    rw [e] at hl hs
    cases hs
    rw [hl.1]
    exact h.move ht rfl rfl rfl nofun hl
  | cleaning =>
    rw [e] at hl hs
    cases hs
    exact h.move ht rfl rfl rfl nofun hl
  | clearing =>
    rw [e] at hl hs
    cases hs
    exact h.move ht rfl rfl rfl nofun ⟨rfl, hl.2⟩
  | finishing =>
    rw [e] at hl hs
    cases hs
    obtain ⟨hse, _, hj⟩ := hl
    refine h.move ht rfl rfl rfl nofun ⟨hse, ?_, nofun, ?_⟩
    · show (s.set .stopped).state ≠ .running
      rw [App.set_state]
      exact nofun
    · show GuiPc.Alone _ _ (s.set .stopped).gui
      rw [App.set_join _ hj]
      rfl
  | returning =>
    rw [e] at hl hs
    cases hs
    exact h.move ht rfl rfl rfl nofun hl
  | ended =>
    rw [e] at hs
    cases hs

/-! ## the GUI thread -/

/-- without an engine thread at work -/
theorem EnginePc.allows_over {e : EnginePc} (he : e.over = true) (g : GuiPc) (v : AppState)
    (session born : Bool) : e.Allows g v session born ↔
      session = false ∧ v ≠ .running ∧ (born = false → v ≠ .stopping) ∧ g.Alone v born := by
  cases e <;> first | exact Iff.rfl | cases he

theorem EnginePc.Allows.alone {e : EnginePc} {g g' : GuiPc} {v : AppState} {session born : Bool}
    (h : e.Allows g v session born) (ho : e.over = true) (hg : g'.Alone v born) :
    e.Allows g' v session born := by
  obtain ⟨hse, hv, hb, _⟩ := (EnginePc.allows_over ho _ _ _ _).mp h
  exact (EnginePc.allows_over ho _ _ _ _).mpr ⟨hse, hv, hb, hg⟩

/-- only a GUI thread that has seen the engine leave its loop, or that starts, needs it over -/
theorem EnginePc.Allows.over {e : EnginePc} {g : GuiPc} {v : AppState} {session born : Bool}
    (h : e.Allows g v session born) (hc : g.calm = false) (hs : g ≠ .stopSet) (hj : g ≠ .join) :
    e.over = true := by
  cases e <;> simp_all [EnginePc.Allows, EnginePc.over]

theorem EnginePc.Allows.over_of_stopped {e : EnginePc} {g : GuiPc} {session born : Bool}
    (h : e.Allows g .stopped session born) : e.over = true := by
  cases e <;> simp_all [EnginePc.Allows, EnginePc.over]

/-- from one calm position to another -/
theorem EnginePc.Allows.calm {e : EnginePc} {g g' : GuiPc} {v : AppState} {session born : Bool}
    (h : e.Allows g v session born) (hg : g.calm = true) (hg' : g'.calm = true)
    (ha : e.over = true → g'.Alone v born) : e.Allows g' v session born := by
  have hj : g ≠ .join := by
    rintro rfl
    cases hg
  cases e with
  | starting => exact ⟨h.1, hg'⟩
  | tested => exact ⟨h.1, hg'⟩
  | failed => exact ⟨h.1, hg', h.2.2⟩
  | ready => exact ⟨h.1, hg', h.2.2⟩
  | labelling =>
    obtain ⟨hse, hr | hr⟩ := h
    · exact ⟨hse, Or.inl ⟨hr.1, Or.inl hg'⟩⟩
    · exact absurd hr.2 hj
  | looping =>
    obtain ⟨hse, hr | hr⟩ := h
    · exact ⟨hse, Or.inl ⟨hr.1, Or.inl hg'⟩⟩
    · exact absurd hr.2 hj
  | leaving => exact absurd h.2.2 hj
  | cleaning => exact absurd h.2.2 hj
  | clearing => exact absurd h.2.2 hj
  | finishing => exact absurd h.2.2 hj
  | unborn => exact ⟨h.1, h.2.1, h.2.2.1, ha rfl⟩
  | returning => exact ⟨h.1, h.2.1, h.2.2.1, ha rfl⟩
  | ended => exact ⟨h.1, h.2.1, h.2.2.1, ha rfl⟩

/-- `vpn_app_stop_engine` goes on to `state_sync_set` where it has seen the engine run, or after a
start that has failed -/
theorem EnginePc.Allows.stopSet {e : EnginePc} {g : GuiPc} {v : AppState} {session born : Bool}
    (h : e.Allows g v session born) (hg : g.calm = true) (hv : v ≠ .starting)
    (hb : e.over = true → born = true) : e.Allows .stopSet v session born := by
  have hj : g ≠ .join := by
    rintro rfl
    cases hg
  cases e with
  | starting => exact absurd h.1 hv
  | tested => exact absurd h.1 hv
  | failed => exact absurd h.1 hv
  | ready => exact absurd h.1 hv
  | labelling =>
    obtain ⟨hse, hr | hr⟩ := h
    · exact ⟨hse, Or.inl ⟨hr.1, Or.inr rfl⟩⟩
    · exact absurd hr.2 hj
  | looping =>
    obtain ⟨hse, hr | hr⟩ := h
    · exact ⟨hse, Or.inl ⟨hr.1, Or.inr rfl⟩⟩
    · exact absurd hr.2 hj
  | leaving => exact absurd h.2.2 hj
  | cleaning => exact absurd h.2.2 hj
  | clearing => exact absurd h.2.2 hj
  | finishing => exact absurd h.2.2 hj
  | unborn => exact ⟨h.1, h.2.1, h.2.2.1, hb rfl⟩
  | returning => exact ⟨h.1, h.2.1, h.2.2.1, hb rfl⟩
  | ended => exact ⟨h.1, h.2.1, h.2.2.1, hb rfl⟩

/-- the step to `pthread_join` -/
theorem EnginePc.Allows.join {e : EnginePc} {v : AppState} {session born : Bool}
    (h : e.Allows .stopSet v session born) : e.Allows .join .stopping session born := by
  cases e with
  | starting => cases h.2
  | tested => cases h.2
  | failed => cases h.2.1
  | ready => cases h.2.1
  | labelling => exact ⟨h.1, Or.inr ⟨rfl, rfl⟩⟩
  | looping => exact ⟨h.1, Or.inr ⟨rfl, rfl⟩⟩
  | leaving => cases h.2.2
  | cleaning => cases h.2.2
  | clearing => cases h.2.2
  | finishing => cases h.2.2
  | unborn =>
    obtain ⟨hse, _, _, rfl⟩ := h
    exact ⟨hse, nofun, nofun, rfl⟩
  | returning =>
    obtain ⟨hse, _, _, rfl⟩ := h
    exact ⟨hse, nofun, nofun, rfl⟩
  | ended =>
    obtain ⟨hse, _, _, rfl⟩ := h
    exact ⟨hse, nofun, nofun, rfl⟩

theorem App.Inv.waitSection (h : s.Inv) (hg : s.gui.waits = true) : s.waitSection.Inv := by
  have hc : s.gui.calm = true := by
    cases e : s.gui <;> rw [e] at hg <;> first | rfl | cases hg
  rcases s.waitSection_cases with ⟨hv, e⟩ | ⟨_, e⟩
  · rw [e]
    refine h.guiMove rfl rfl rfl (h.latest.stopSet hc (by rw [hv]; exact nofun) fun ho => ?_)
    have hl := (EnginePc.allows_over ho _ _ _ _).mp h.latest
    exact absurd hv hl.2.1
  · rw [e]
    exact h.guiMove rfl rfl rfl (h.latest.calm hc rfl fun _ => trivial)

/-- `pthread_create` -/
theorem App.Inv.create (h : s.Inv) (hg : s.gui = .startCreate) :
    App.Inv { s.put s.created .starting with
      engineThread := some s.created, created := s.created + 1, gui := .idle } := by
  have hl := h.latest
  rw [hg] at hl
  have ho := hl.over rfl nofun nofun
  have hall := (EnginePc.allows_over ho _ _ _ _).mp hl
  refine ⟨?_, nofun, ?_, ?_, ?_, ?_⟩
  · intro t ht
    cases ht
    rfl
  · intro u hu
    have hu' : s.created + 1 ≤ u := hu
    show Function.update s.engine s.created .starting u = .unborn
    rw [Function.update_of_ne (by omega)]
    exact h.unborn u (by omega)
  · intro u hu
    have hu' : u < s.created + 1 := hu
    show Function.update s.engine s.created .starting u ≠ .unborn
    by_cases huc : u = s.created
    · subst huc
      rw [Function.update_self]
      exact nofun
    · rw [Function.update_of_ne huc]
      exact h.born u (by omega)
  · intro u hu
    have hne : u ≠ s.created := by
      rintro rfl
      exact hu rfl
    show (Function.update s.engine s.created .starting u).over = true
    rw [Function.update_of_ne hne]
    by_cases hth : s.engineThread = some u
    · rw [← App.latest_eq hth]
      exact ho
    · exact h.earlier u hth
  · show EnginePc.Allows .idle s.state s.session true (Function.update s.engine s.created .starting
      s.created)
    rw [Function.update_self]
    exact ⟨hall.2.2.2, rfl⟩

theorem App.Inv.guiStep {ok : Bool} (h : s.Inv) (hs : s.guiStep ok = some s') : s'.Inv := by
  have hl := h.latest
  cases App.guiStep_move hs with
  | startSet g =>
    rw [g] at hl
    have ho := hl.over rfl nofun nofun
    have hall := (EnginePc.allows_over ho _ _ _ _).mp hl
    refine h.guiMove rfl rfl rfl ((EnginePc.allows_over ho _ _ _ _).mpr ?_)
    show _ ∧ (s.set .starting).state ≠ _ ∧ (_ → (s.set .starting).state ≠ _) ∧
      GuiPc.Alone (s.set .starting).state _ _
    rw [App.set_state]
    exact ⟨hall.1, nofun, fun _ => nofun, rfl⟩
  | create g => exact h.create g
  | createFail g =>
    rw [g] at hl
    exact h.guiMove rfl rfl rfl (hl.alone (hl.over rfl nofun nofun) trivial)
  | seesStarting g hv =>
    rw [g] at hl
    exact h.guiMove rfl rfl rfl (hl.calm rfl rfl fun _ => trivial)
  | seesOther g hv =>
    rw [g] at hl
    refine h.guiMove rfl rfl rfl (hl.stopSet rfl hv fun ho => ?_)
    have hall := (EnginePc.allows_over ho _ _ _ _).mp hl
    exact hall.2.2.2.resolve_left hv
  | wait g => exact h.waitSection g
  | stopSet g =>
    rw [g] at hl
    refine h.guiMove rfl rfl rfl ?_
    show EnginePc.Allows .join (s.set .stopping).state _ _ _
    rw [App.set_state]
    exact hl.join
  | join g ht hend =>
    rw [g] at hl
    have ho : s.latest.over = true := by
      rw [App.latest_eq ht, hend]
      rfl
    exact h.guiMove rfl rfl rfl (hl.alone ho trivial)
  | free g hd =>
    rw [g] at hl
    exact h.guiMove rfl rfl rfl (hl.alone (hl.over rfl nofun nofun) trivial)

/-- a call of the GUI thread that starts -/
theorem App.Inv.startCall (h : s.Inv) (hr : s.atRest) :
    App.Inv { s with gui := if stateSyncCheck s.state .stopped then .startSet else .idle } := by
  have hl := h.latest
  refine h.guiMove rfl rfl rfl ?_
  show EnginePc.Allows (if stateSyncCheck s.state .stopped then .startSet else .idle) s.state
    s.session _ _
  by_cases hv : s.state = .stopped
  · rw [stateSyncCheck, decide_eq_true hv]
    rw [hv] at hl ⊢
    exact hl.alone hl.over_of_stopped rfl
  · rw [stateSyncCheck, decide_eq_false hv]
    rcases hr.1 with g | g
    · rw [g] at hl
      exact hl
    · rw [g] at hl
      exact hl.alone (hl.over rfl nofun nofun) trivial

/-- a call of the GUI thread that stops -/
theorem App.Inv.stopCall (h : s.Inv) (hr : s.atRest) : s.stopCall.Inv := by
  have hl := h.latest
  refine h.guiMove rfl rfl rfl ?_
  show EnginePc.Allows (if stateSyncCheck s.state .stopped then .returned else .stopTest) s.state
    s.session _ _
  by_cases hv : s.state = .stopped
  · rw [stateSyncCheck, decide_eq_true hv]
    rw [hv] at hl ⊢
    exact hl.alone hl.over_of_stopped trivial
  · rw [stateSyncCheck, decide_eq_false hv]
    -- without an engine thread the state can only be `APP_STARTING`
    have halone : s.latest.over = true → s.state = .starting ∨ s.engineThread.isSome = true := by
      intro ho
      have hall := (EnginePc.allows_over ho _ _ _ _).mp hl
      cases hb : s.engineThread.isSome with
      | true => exact Or.inr rfl
      | false =>
        have hns := hall.2.2.1 hb
        have hnr := hall.2.1
        left
        cases hst : s.state with
        | stopped => exact absurd hst hv
        | starting => rfl
        | running => exact absurd hst hnr
        | stopping => exact absurd hst hns
    rcases hr.1 with g | g
    · rw [g] at hl
      exact hl.calm rfl rfl halone
    · rw [g] at hl
      have ho := hl.over rfl nofun nofun
      exact hl.alone ho (halone ho)

theorem App.step_inv (s : App) (a : AppAct) (s' : App) (h : s.Inv) (hs : s.step a = some s') :
    s'.Inv := by
  cases a with
  | start =>
    simp only [App.step, Option.ite_none_right_eq_some, Option.some.injEq] at hs
    obtain ⟨hr, rfl⟩ := hs
    exact h.startCall hr
  | stop =>
    simp only [App.step, Option.ite_none_right_eq_some, Option.some.injEq] at hs
    obtain ⟨hr, rfl⟩ := hs
    exact h.stopCall hr
  | destroy =>
    simp only [App.step, Option.ite_none_right_eq_some, Option.some.injEq] at hs
    obtain ⟨hr, rfl⟩ := hs
    have h' := h.stopCall hr
    exact ⟨h'.handle, h'.nohandle, h'.unborn, h'.born, h'.earlier, h'.latest⟩
  | gui ok => exact h.guiStep hs
  | engine t ok =>
    by_cases ht : s.engineThread = some t
    · exact h.latest_step ht hs
    · exact h.earlier_step ht hs

end

end QuicVpn
