import QuicVpn.Client.Config
import QuicVpn.Lib.Exec

/-!
# TUN devices and the cleanup of the client

The stream callback handles control frames while another thread may run `vpn_engine_cleanup`.  They
meet in `session->tun`.  A step is

* `frame raw h`     the callback takes the frame `raw`, up to the outcome of `tun_start`;
* `finish`          it publishes the device, or undoes it;
* `cleanupTun h`    the cleanup tests `session->tun` and tears the device down;
* `shutdown`        `MsQuicShutdown`: it waits for the callback, and none runs after it.

Handles are told apart by a number also after they were freed.  `opened` are those for which
`tun_open` returned `0`.

`Engine.Inv` holds while every device is published into an empty slot before the test of the
cleanup; `Engine.Orphan` is a device that no party will tear down any more.
-/

set_option linter.unusedSectionVars false

namespace QuicVpn
open Conc

/-- a host whose undo commands work -/
abbrev WorkingHost := { h : Host // h.Undoes }

/-- what the callback does next with the device it made -/
inductive Handling where
  | idle
  | publish (p : ℕ)
  | undo (p : ℕ) (h : WorkingHost)

/-- how far `vpn_engine_cleanup` has come -/
inductive CleanupPhase where
  | running
  | tunTested
  | returned
  deriving DecidableEq, Repr

structure Engine where
  session : ClientSession
  handling : Handling
  cleanup : CleanupPhase
  heap : List ℕ
  opened : List ℕ

inductive EngineAct where
  | frame (raw : PktCtrl) (h : WorkingHost)
  | finish
  | cleanupTun (h : WorkingHost)
  | shutdown

instance (raw : PktCtrl) : Decidable (IsConfigResp raw) := inferInstanceAs (Decidable (_ ∧ _))

/-- the calls on the device in `vpn_engine_cleanup` -/
def engineTeardown (h : Host) (d : TunDev) : TunDev :=
  (tunDestroy h (tunRulesClear h (tunClearDns h (tunFlushRoutes h d).2).2).2).2

/-- the callback has made and configured the handle `p` -/
def Engine.begin (e : Engine) (raw : PktCtrl) (h : WorkingHost) (p : ℕ) : Engine :=
  { e with
    session := e.session.setDev p (configDev h.1 e.session raw).state
    handling := if (configDev h.1 e.session raw).ok then .publish p else .undo p h
    heap := p :: e.heap
    opened := if (tunOpen h.1 tunCreate).1 = 0 then p :: e.opened else e.opened }

def Engine.step (e : Engine) : EngineAct → Option Engine
  | .frame raw h =>
    match e.handling with
    | .idle =>
      if e.cleanup = .returned then none
      else if IsConfigResp raw then
        match h.1.calloc with
        | none => some { e with session := { e.session with tunState := .fail } }
        | some p => if p ∈ e.heap then none else some (e.begin raw h p)
      else some e
    | _ => none
  | .finish =>
    match e.handling with
    | .publish p => some { e with
        session := { e.session with tun := some p, tunState := .ready }, handling := .idle }
    | .undo p h => some { e with
        session := { e.session.setDev p (undoConfig h.1 (e.session.mem p)) with tunState := .fail }
        handling := .idle }
    | .idle => none
  | .cleanupTun h =>
    if e.cleanup = .running then
      match e.session.tun with
      | none => some { e with cleanup := .tunTested }
      | some p => some { e with
          session := { e.session.setDev p (engineTeardown h.1 (e.session.mem p)) with tun := none }
          cleanup := .tunTested }
    else none
  | .shutdown =>
    match e.handling with
    | .idle => if e.cleanup = .tunTested then some { e with cleanup := .returned } else none
    | _ => none

/-- an engine before its first frame -/
def Engine.init (s : ClientSession) : Engine := ⟨{ s with tun := none }, .idle, .running, [], []⟩

/-- a step and then the finish of the callback are one call of `process_ctrl_pkt` -/
theorem frame_finish {e e1 e2 : Engine} {raw : PktCtrl} {h : WorkingHost} (hr : IsConfigResp raw)
    (h1 : e.step (.frame raw h) = some e1) (hc : h.1.calloc.isSome = true)
    (h2 : e1.step .finish = some e2) :
    e2.session = (clientProcessCtrlPkt h.1 e.session raw).session := by
  obtain ⟨p, hp⟩ := Option.isSome_iff_exists.mp hc
  have he1 : e1 = e.begin raw h p := by
    simp only [Engine.step] at h1
    split at h1
    · simp only [hp, if_pos hr, Option.ite_none_left_eq_some, Option.some.injEq] at h1
      exact h1.2.2.symm
    · exact absurd h1 (Option.some_ne_none e1).symm
  subst he1
  rw [clientProcessCtrlPkt_of_configResp hr]
  by_cases hok : (configDev h.1 e.session raw).ok = true
  · rw [processConfigResp_ok hp hok]
    simp only [Engine.step, Engine.begin, hok, if_true] at h2
    rw [← Option.some.inj h2]
  · rw [processConfigResp_fail hp hok]
    simp only [Engine.step, Engine.begin, if_neg hok] at h2
    rw [← Option.some.inj h2]
    simp only [ClientSession.setDev, Function.update_self, Function.update_idem]

/-- what a step can do -/
inductive Engine.Move (e : Engine) : EngineAct → Engine → Prop where
  | skip {raw : PktCtrl} {h : WorkingHost} (hh : e.handling = .idle)
      (hc : e.cleanup ≠ .returned) (hr : ¬ IsConfigResp raw) : Move e (.frame raw h) e
  | noHandle {raw : PktCtrl} {h : WorkingHost} (hh : e.handling = .idle)
      (hc : e.cleanup ≠ .returned) :
    Move e (.frame raw h) { e with session := { e.session with tunState := .fail } }
  | begin {raw : PktCtrl} {h : WorkingHost} {p : ℕ} (hh : e.handling = .idle)
      (hc : e.cleanup ≠ .returned) (hp : p ∉ e.heap) :
    Move e (.frame raw h) (e.begin raw h p)
  | publish {p : ℕ} (hh : e.handling = .publish p) :
    Move e .finish { e with
      session := { e.session with tun := some p, tunState := .ready }, handling := .idle }
  | undo {p : ℕ} {h : WorkingHost} (hh : e.handling = .undo p h) :
    Move e .finish { e with
      session := { e.session.setDev p (undoConfig h.1 (e.session.mem p)) with tunState := .fail }
      handling := .idle }
  | noTun {h : WorkingHost} (hc : e.cleanup = .running) (ht : e.session.tun = none) :
    Move e (.cleanupTun h) { e with cleanup := .tunTested }
  | teardown {h : WorkingHost} {p : ℕ} (hc : e.cleanup = .running) (ht : e.session.tun = some p) :
    Move e (.cleanupTun h) { e with
      session := { e.session.setDev p (engineTeardown h.1 (e.session.mem p)) with tun := none }
      cleanup := .tunTested }
  | shutdown (hh : e.handling = .idle) (hc : e.cleanup = .tunTested) :
    Move e .shutdown { e with cleanup := .returned }

theorem Engine.step_move {e e' : Engine} {a : EngineAct} (hs : e.step a = some e') :
    e.Move a e' := by
  cases a with
  | frame raw h =>
    simp only [Engine.step] at hs
    split at hs
    · rename_i hh
      split_ifs at hs with hc hr
      · split at hs
        · exact Option.some.inj hs ▸ .noHandle hh hc
        · rw [Option.ite_none_left_eq_some] at hs
          exact Option.some.inj hs.2 ▸ .begin hh hc hs.1
      · exact Option.some.inj hs ▸ .skip hh hc hr
    · exact absurd hs (Option.some_ne_none e').symm
  | finish =>
    simp only [Engine.step] at hs
    split at hs
    · rename_i p hh
      exact Option.some.inj hs ▸ .publish hh
    · rename_i p h hh
      exact Option.some.inj hs ▸ .undo hh
    · exact absurd hs (Option.some_ne_none e').symm
  | cleanupTun h =>
    simp only [Engine.step, Option.ite_none_right_eq_some] at hs
    obtain ⟨hc, hs⟩ := hs
    split at hs
    · rename_i ht
      exact Option.some.inj hs ▸ .noTun hc ht
    · rename_i p ht
      exact Option.some.inj hs ▸ .teardown hc ht
  | shutdown =>
    simp only [Engine.step] at hs
    split at hs
    · rename_i hh
      rw [Option.ite_none_right_eq_some] at hs
      exact Option.some.inj hs.2 ▸ .shutdown hh hs.1
    · exact absurd hs (Option.some_ne_none e').symm

/-! ## the descriptor of a device -/

section
variable {h : Host} {d : TunDev}

theorem setFlagsOn_link {flags : BitVec 64} (r : ℤ × TunDev) :
    (setFlagsOn flags r).2.link = r.2.link := by
  unfold setFlagsOn
  split <;> rfl

/-- only `tun_open` and `tun_destroy` touch the descriptor -/
theorem TunCall.run_fdOpen {c : TunCall} (hc : c ≠ .openDev) :
    (c.run h d).2.link.fdOpen = d.link.fdOpen := by
  rw [c.run_eq, setFlagsOn_link]
  exact (TunCall.drive_kept hc).fdOpen

/-- a device that gets published was opened and has its descriptor -/
theorem configDev_fdOpen {s : ClientSession} {raw : PktCtrl}
    (hok : (configDev h s raw).ok = true) : (tunOpen h tunCreate).1 = 0 ∧
      (configDev h s raw).state.link.fdOpen = true := by
  obtain ⟨h1, h2, h3, h4⟩ : TunCall.openDev.Works h :=
    configDev_ok_iff.mp hok _ List.mem_cons_self rfl
  have hz : (tunOpen h tunCreate).1 = 0 := (tunOpen_opened ⟨h1, h2, h3, h4⟩).1
  have hfd : (tunOpen h tunCreate).2.link.fdOpen = true := by
    rw [tunOpen, setFlagsOn_link]
    simp [sysTunOpen, h1, h2, h3, h4]
  have hgo : ¬ (TunCall.tested .openDev = true ∧ (TunCall.run h .openDev tunCreate).1 ≠ 0) :=
    fun hc => hc.2 hz
  refine ⟨hz, ?_⟩
  unfold configDev
  rw [configCalls_cons, attempt_cons_go hgo]
  exact attempt_inv (I := fun d : TunDev => d.link.fdOpen = true)
    (fun c hc d hd => (TunCall.run_fdOpen (configCalls_tail hc)).trans hd) hfd

end

/-! ## devices that somebody will tear down -/

/-- the device the callback is working on -/
def Handling.holder : Handling → Option ℕ
  | .idle => none
  | .publish p => some p
  | .undo p _ => some p

structure Engine.Inv (e : Engine) : Prop where
  heap : ∀ p ∈ e.opened, p ∈ e.heap
  held : ∀ p, e.handling.holder = some p →
    p ∈ e.heap ∧ e.session.tun ≠ some p ∧ (e.session.mem p).Ok
  publish : ∀ p, e.handling = .publish p →
    p ∈ e.opened ∧ (e.session.mem p).link.fdOpen = true
  slot : ∀ p, e.session.tun = some p → e.cleanup = .running ∧ p ∈ e.opened ∧
    (e.session.mem p).Ok ∧ (e.session.mem p).link.fdOpen = true
  devs : ∀ p ∈ e.opened,
    (e.session.mem p).link = Link.clear ∨ e.handling.holder = some p ∨ e.session.tun = some p
  idle : e.cleanup = .returned → e.handling.holder = none

/-- an open device that neither the callback nor the cleanup will tear down -/
def Engine.Orphan (e : Engine) : Prop :=
  ∃ p ∈ e.opened, p ∈ e.heap ∧ (e.session.mem p).link.fdOpen = true ∧
    e.handling.holder ≠ some p ∧ (e.session.tun = some p → e.cleanup ≠ .running)

/-- a device is published into an empty slot, before the cleanup looks at it -/
def Engine.InTime (e : Engine) (a : EngineAct) : Prop :=
  ∀ p, a = .finish → e.handling = .publish p → e.session.tun = none ∧ e.cleanup = .running

theorem Engine.init_inv (s : ClientSession) : (Engine.init s).Inv :=
  ⟨fun _ hp => absurd hp List.not_mem_nil, fun _ hp => absurd hp (Option.some_ne_none _).symm,
    fun _ hp => Handling.noConfusion hp, fun _ hp => absurd hp (Option.some_ne_none _).symm,
    fun _ hp => absurd hp List.not_mem_nil, fun _ => rfl⟩

section
variable {e : Engine} {raw : PktCtrl} {h : WorkingHost} {p : ℕ}

theorem Engine.begin_mem_of_ne {q : ℕ} (hq : q ≠ p) :
    (e.begin raw h p).session.mem q = e.session.mem q := Function.update_of_ne hq ..

theorem Engine.begin_mem_self :
    (e.begin raw h p).session.mem p = (configDev h.1 e.session raw).state :=
  Function.update_self ..

theorem Engine.begin_opened {q : ℕ} (hq : q ∈ (e.begin raw h p).opened) : q = p ∨ q ∈ e.opened := by
  unfold Engine.begin at hq
  simp only at hq
  split at hq
  · exact List.mem_cons.mp hq
  · exact Or.inr hq

theorem Engine.begin_holder : (e.begin raw h p).handling.holder = some p := by
  unfold Engine.begin
  simp only
  split <;> rfl

theorem Engine.Inv.begin (hi : e.Inv) (hh : e.handling = .idle) (hc : e.cleanup ≠ .returned)
    (hp : p ∉ e.heap) : (e.begin raw h p).Inv := by
  have hne : ∀ q ∈ e.opened, q ≠ p := fun q hq hqp => hp (hqp ▸ hi.heap q hq)
  have hslot : e.session.tun ≠ some p := fun ht => hp (hi.heap p (hi.slot p ht).2.1)
  refine ⟨fun q hq => ?_, fun q hq => ?_, fun q hq => ?_, fun q hq => ?_, fun q hq => ?_,
    fun hr => absurd hr hc⟩
  · rcases Engine.begin_opened hq with rfl | hq
    · exact List.mem_cons_self
    · exact List.mem_cons_of_mem p (hi.heap q hq)
  · rw [Engine.begin_holder] at hq
    obtain rfl := Option.some.inj hq
    refine ⟨List.mem_cons_self, hslot, ?_⟩
    rw [Engine.begin_mem_self]
    exact configDev_state_ok
  · have hok : (configDev h.1 e.session raw).ok = true := by
      by_contra hok
      simp only [Engine.begin, if_neg hok] at hq
      exact Handling.noConfusion hq
    obtain ⟨hz, hfd⟩ := configDev_fdOpen hok
    have hqp : q = p := by
      simp only [Engine.begin, hok, if_true, Handling.publish.injEq] at hq
      exact hq.symm
    subst hqp
    refine ⟨?_, ?_⟩
    · simp only [Engine.begin, hz, if_true]
      exact List.mem_cons_self
    · rw [Engine.begin_mem_self]
      exact hfd
  · obtain ⟨h1, h2, h3, h4⟩ := hi.slot q hq
    have hqp := hne q h2
    refine ⟨h1, ?_, ?_, ?_⟩
    · unfold Engine.begin
      simp only
      split
      · exact List.mem_cons_of_mem p h2
      · exact h2
    · rw [Engine.begin_mem_of_ne hqp]
      exact h3
    · rw [Engine.begin_mem_of_ne hqp]
      exact h4
  · rcases Engine.begin_opened hq with rfl | hq
    · exact Or.inr (Or.inl Engine.begin_holder)
    · rw [Engine.begin_mem_of_ne (hne q hq)]
      rcases hi.devs q hq with hl | hl | hl
      · exact Or.inl hl
      · rw [hh] at hl
        exact absurd hl (Option.some_ne_none q).symm
      · exact Or.inr (Or.inr hl)

theorem Engine.Inv.publish_slot (hi : e.Inv) (hh : e.handling = .publish p)
    (ht : e.session.tun = none) (hc : e.cleanup = .running) : Engine.Inv { e with
      session := { e.session with tun := some p, tunState := .ready }, handling := .idle } := by
  obtain ⟨hopen, hfd⟩ := hi.publish p hh
  have hheld : e.handling.holder = some p := by
    rw [hh]
    rfl
  refine ⟨hi.heap, fun q hq => absurd hq (Option.some_ne_none q).symm,
    fun q hq => Handling.noConfusion hq, fun q hq => ?_, fun q hq => ?_, fun _ => rfl⟩
  · obtain rfl : p = q := Option.some.inj hq
    exact ⟨hc, hopen, (hi.held p hheld).2.2, hfd⟩
  · rcases hi.devs q hq with hl | hl | hl
    · exact Or.inl hl
    · rw [hheld] at hl
      exact Or.inr (Or.inr hl)
    · rw [ht] at hl
      exact absurd hl (Option.some_ne_none q).symm

theorem Engine.Inv.undo_dev (hi : e.Inv) (hh : e.handling = .undo p h) : Engine.Inv { e with
    session := { e.session.setDev p (undoConfig h.1 (e.session.mem p)) with tunState := .fail }
    handling := .idle } := by
  have hheld : e.handling.holder = some p := by
    rw [hh]
    rfl
  obtain ⟨-, hslot, hok⟩ := hi.held p hheld
  refine ⟨hi.heap, fun q hq => absurd hq (Option.some_ne_none q).symm,
    fun q hq => Handling.noConfusion hq, fun q hq => ?_, fun q hq => ?_, fun _ => rfl⟩
  · have hqp : q ≠ p := fun hqp => hslot (hqp ▸ hq)
    show _ ∧ _ ∧ (Function.update e.session.mem p _ q).Ok ∧
      (Function.update e.session.mem p _ q).link.fdOpen = true
    rw [Function.update_of_ne hqp]
    exact hi.slot q hq
  · show (Function.update e.session.mem p _ q).link = Link.clear ∨ _ ∨ _
    by_cases hqp : q = p
    · rw [hqp, Function.update_self]
      exact Or.inl (teardown_down_link h.2 hok)
    · rw [Function.update_of_ne hqp]
      rcases hi.devs q hq with hl | hl | hl
      · exact Or.inl hl
      · exact absurd (Option.some.inj (hheld.symm.trans hl)).symm hqp
      · exact Or.inr (Or.inr hl)

theorem Engine.Inv.teardown (hi : e.Inv) (ht : e.session.tun = some p) : Engine.Inv { e with
    session := { e.session.setDev p (engineTeardown h.1 (e.session.mem p)) with tun := none }
    cleanup := .tunTested } := by
  obtain ⟨-, -, hok, -⟩ := hi.slot p ht
  refine ⟨hi.heap, fun q hq => ?_, fun q hq => ?_,
    fun q hq => absurd hq (Option.some_ne_none q).symm, fun q hq => ?_,
    fun hr => CleanupPhase.noConfusion hr⟩
  · obtain ⟨h1, h2, h3⟩ := hi.held q hq
    have hqp : q ≠ p := fun hqp => h2 (hqp ▸ ht)
    refine ⟨h1, (Option.some_ne_none q).symm, ?_⟩
    show (Function.update e.session.mem p _ q).Ok
    rw [Function.update_of_ne hqp]
    exact h3
  · have hheld : e.handling.holder = some q := by
      rw [show e.handling = .publish q from hq]
      rfl
    have hqp : q ≠ p := fun hqp => (hi.held q hheld).2.1 (hqp ▸ ht)
    show _ ∧ (Function.update e.session.mem p _ q).link.fdOpen = true
    rw [Function.update_of_ne hqp]
    exact hi.publish q hq
  · show (Function.update e.session.mem p _ q).link = Link.clear ∨ _ ∨ _
    by_cases hqp : q = p
    · rw [hqp, Function.update_self]
      exact Or.inl (teardown_link h.2 hok)
    · rw [Function.update_of_ne hqp]
      rcases hi.devs q hq with hl | hl | hl
      · exact Or.inl hl
      · exact Or.inr (Or.inl hl)
      · exact absurd (Option.some.inj (ht.symm.trans hl)).symm hqp

end

theorem Engine.step_inv {e e' : Engine} {a : EngineAct} (hi : e.Inv) (hC : e.InTime a)
    (hs : e.step a = some e') : e'.Inv := by
  rcases Engine.step_move hs with ⟨_, _, _⟩ | ⟨hh, hc⟩ | ⟨hh, hc, hp⟩ | hh | hh | ⟨hc, ht⟩ |
    ⟨hc, ht⟩ | ⟨hh, hc⟩
  · exact hi
  · exact ⟨hi.heap, hi.held, hi.publish, hi.slot, hi.devs, hi.idle⟩
  · exact hi.begin hh hc hp
  · obtain ⟨ht, hc⟩ := hC _ rfl hh
    exact hi.publish_slot hh ht hc
  · exact hi.undo_dev hh
  · refine ⟨hi.heap, hi.held, hi.publish, fun q hq => ?_, hi.devs,
      fun hr => CleanupPhase.noConfusion hr⟩
    exact absurd (ht.symm.trans hq) (Option.some_ne_none q).symm
  · exact hi.teardown ht
  · refine ⟨hi.heap, hi.held, hi.publish, fun q hq => ?_, hi.devs, fun _ => ?_⟩
    · exact absurd (hc.symm.trans (hi.slot q hq).1) CleanupPhase.noConfusion
    · rw [show e.handling = .idle from hh]
      rfl

/-! ## orphans -/

/-- a device published too late, or over another one, makes an orphan -/
theorem Engine.late_orphan {e e' : Engine} {a : EngineAct} (hi : e.Inv) (hC : ¬ e.InTime a)
    (hs : e.step a = some e') : e'.Orphan := by
  simp only [Engine.InTime, not_forall, not_and] at hC
  obtain ⟨p, rfl, hh, hlate⟩ := hC
  obtain ⟨hopen, hfd⟩ := hi.publish p hh
  have he' : e' = { e with
      session := { e.session with tun := some p, tunState := .ready }, handling := .idle } := by
    simp only [Engine.step, hh] at hs
    exact (Option.some.inj hs).symm
  have hheld : e.handling.holder = some p := by
    rw [hh]
    rfl
  subst he'
  by_cases ht : e.session.tun = none
  · exact ⟨p, hopen, hi.heap p hopen, hfd, (Option.some_ne_none p).symm, fun _ => hlate ht⟩
  · obtain ⟨q, hq⟩ := Option.ne_none_iff_exists'.mp ht
    obtain ⟨-, hqo, -, hqfd⟩ := hi.slot q hq
    refine ⟨q, hqo, hi.heap q hqo, hqfd, (Option.some_ne_none q).symm, fun hpq => ?_⟩
    obtain rfl : p = q := Option.some.inj hpq
    exact absurd hq (hi.held p hheld).2.1

/-- nobody finds an orphan again -/
theorem Engine.step_orphan {e e' : Engine} {a : EngineAct} (ho : e.Orphan)
    (hs : e.step a = some e') : e'.Orphan := by
  obtain ⟨p, hopen, hheap, hfd, hheld, hslot⟩ := ho
  have hm := Engine.step_move hs
  cases hm with
  | skip => exact ⟨p, hopen, hheap, hfd, hheld, hslot⟩
  | noHandle => exact ⟨p, hopen, hheap, hfd, hheld, hslot⟩
  | @begin raw h q hh hc hq =>
    have hpq : p ≠ q := fun hpq => hq (hpq ▸ hheap)
    refine ⟨p, ?_, List.mem_cons_of_mem q hheap, ?_, ?_, hslot⟩
    · unfold Engine.begin
      simp only
      split
      · exact List.mem_cons_of_mem q hopen
      · exact hopen
    · rw [Engine.begin_mem_of_ne hpq]
      exact hfd
    · rw [Engine.begin_holder]
      exact fun hqp => hpq (Option.some.inj hqp).symm
  | @publish q hh =>
    have hqp : q ≠ p := fun hqp => hheld (by rw [hh, hqp]; rfl)
    exact ⟨p, hopen, hheap, hfd, (Option.some_ne_none p).symm,
      fun ht => absurd (Option.some.inj ht) hqp⟩
  | @undo q h hh =>
    have hpq : p ≠ q := fun hpq => hheld (by rw [hh, hpq]; rfl)
    refine ⟨p, hopen, hheap, ?_, (Option.some_ne_none p).symm, hslot⟩
    show (Function.update e.session.mem q _ p).link.fdOpen = true
    rw [Function.update_of_ne hpq]
    exact hfd
  | noTun hc ht =>
    exact ⟨p, hopen, hheap, hfd, hheld, fun _ => CleanupPhase.noConfusion⟩
  | @teardown h q hc ht =>
    have hpq : p ≠ q := fun hpq => hslot (hpq ▸ ht) hc
    refine ⟨p, hopen, hheap, ?_, hheld, fun hp => absurd hp (Option.some_ne_none p).symm⟩
    show (Function.update e.session.mem q _ p).link.fdOpen = true
    rw [Function.update_of_ne hpq]
    exact hfd
  | shutdown hh hc =>
    exact ⟨p, hopen, hheap, hfd, hheld, fun _ => CleanupPhase.noConfusion⟩

/-- every device that was opened has been torn down -/
def Engine.Clean (e : Engine) : Prop := ∀ p ∈ e.opened, (e.session.mem p).link = Link.clear

theorem Engine.Inv.clean {e : Engine} (hi : e.Inv) (hr : e.cleanup = .returned) : e.Clean := by
  intro p hp
  rcases hi.devs p hp with hl | hl | hl
  · exact hl
  · exact absurd ((hi.idle hr).symm.trans hl) (Option.some_ne_none p).symm
  · exact absurd (hr.symm.trans (hi.slot p hl).1) CleanupPhase.noConfusion

theorem Engine.Orphan.not_clean {e : Engine} (ho : e.Orphan) : ¬ e.Clean := by
  obtain ⟨p, hopen, -, hfd, -⟩ := ho
  intro hc
  rw [hc p hopen] at hfd
  exact absurd hfd Bool.false_ne_true

/-- **No TUN device is orphaned** in a run of frames and one cleanup that ends with the return of
`vpn_engine_cleanup`, exactly when every device was published into an empty slot before the cleanup
looked at it. -/
theorem tun_never_orphaned_iff (s : ClientSession) {l : List EngineAct} {u : Engine}
    (h : exec Engine.step (Engine.init s) l = some u) (hr : u.cleanup = .returned) :
    u.Clean ↔ Along Engine.step Engine.InTime (Engine.init s) l :=
  exec_iff_along (fun _ _ _ hi hC hs => Engine.step_inv hi hC hs)
    (fun _ _ _ hi hC hs => Engine.late_orphan hi hC hs)
    (fun _ _ _ ho hs => Engine.step_orphan ho hs) (Engine.init_inv s) h (fun hi => hi.clean hr)
    (fun ho => ho.not_clean)

/-! ## a second response -/

theorem Engine.step_frame_begin {e : Engine} {raw : PktCtrl} {h : WorkingHost} {p : ℕ}
    (hh : e.handling = .idle) (hc : e.cleanup ≠ .returned) (hr : IsConfigResp raw)
    (hp : h.1.calloc = some p) (hm : p ∉ e.heap) :
    e.step (.frame raw h) = some (e.begin raw h p) := by
  simp only [Engine.step, hh, if_neg hc, if_pos hr, hp, if_neg hm]

/-- the callback has published the handle `p`, configured from `raw` -/
def Engine.published (e : Engine) (raw : PktCtrl) (h : WorkingHost) (p : ℕ) : Engine :=
  { e.begin raw h p with
    session := { (e.begin raw h p).session with tun := some p, tunState := .ready }
    handling := .idle }

theorem exec_published {e : Engine} {raw : PktCtrl} {h : WorkingHost} {p : ℕ}
    (hh : e.handling = .idle) (hc : e.cleanup ≠ .returned) (hr : IsConfigResp raw)
    (hp : h.1.calloc = some p) (hm : p ∉ e.heap) (hok : (configDev h.1 e.session raw).ok = true)
    (l : List EngineAct) :
    exec Engine.step e (.frame raw h :: .finish :: l) =
      exec Engine.step (e.published raw h p) l := by
  have h1 : e.step (.frame raw h) = some (e.begin raw h p) :=
    Engine.step_frame_begin hh hc hr hp hm
  have h2 : (e.begin raw h p).step .finish = some (e.published raw h p) := by
    have hb : (e.begin raw h p).handling = .publish p := if_pos hok
    simp only [Engine.step, hb, Engine.published]
  simp only [exec, h1, h2, Option.bind_some]

theorem Engine.published_opened {e : Engine} {raw : PktCtrl} {h : WorkingHost} {p : ℕ}
    (hok : (configDev h.1 e.session raw).ok = true) :
    (e.published raw h p).opened = p :: e.opened :=
  if_pos (configDev_fdOpen hok).1

theorem Engine.published_mem_of_ne (e : Engine) (raw : PktCtrl) (h : WorkingHost) {p q : ℕ}
    (hq : q ≠ p) : (e.published raw h p).session.mem q = e.session.mem q :=
  Engine.begin_mem_of_ne hq

theorem Engine.published_mem_self (e : Engine) (raw : PktCtrl) (h : WorkingHost) (p : ℕ) :
    (e.published raw h p).session.mem p = (configDev h.1 e.session raw).state :=
  Engine.begin_mem_self

/-- the engine after the whole cleanup, which found the handle `p` -/
def Engine.cleaned (e : Engine) (h : WorkingHost) (p : ℕ) : Engine :=
  { e with
    session := { e.session.setDev p (engineTeardown h.1 (e.session.mem p)) with tun := none }
    cleanup := .returned }

theorem exec_cleaned {e : Engine} {p : ℕ} (hh : e.handling = .idle) (hc : e.cleanup = .running)
    (ht : e.session.tun = some p) (h : WorkingHost) :
    exec Engine.step e [.cleanupTun h, .shutdown] = some (e.cleaned h p) := by
  simp only [exec, Engine.step, hh, hc, ht, if_true, Option.bind_some, Engine.cleaned]

theorem Engine.cleaned_mem_of_ne (e : Engine) (h : WorkingHost) {p q : ℕ} (hq : q ≠ p) :
    (e.cleaned h p).session.mem q = e.session.mem q :=
  Function.update_of_ne hq _ _

/-- the working host that gives the handle `p` -/
def workingHost (p : ℕ) : WorkingHost :=
  ⟨{ willingHost with calloc := some p }, willingHost_undoes.flush, rfl, rfl, rfl, rfl, rfl, rfl⟩

theorem workingHost_ok (p : ℕ) (s : ClientSession) :
    (configDev (workingHost p).1 s usualResp).ok = true :=
  configDev_ok_iff.mpr (usualResp_works ⟨rfl, rfl, rfl, rfl⟩ ⟨rfl, rfl⟩ ⟨rfl, rfl⟩ ⟨rfl, rfl, rfl⟩
    ⟨rfl, rfl⟩ fun _ => rfl)

/-- a usual response is published where the slot of the callback is free -/
theorem exec_usual {e : Engine} {p : ℕ} (hh : e.handling = .idle) (hc : e.cleanup ≠ .returned)
    (hm : p ∉ e.heap) (l : List EngineAct) :
    exec Engine.step e (.frame usualResp (workingHost p) :: .finish :: l) =
      exec Engine.step (e.published usualResp (workingHost p) p) l :=
  exec_published hh hc usualResp_isConfigResp rfl hm (workingHost_ok p e.session) l

/-- one response, then the cleanup: the device is torn down -/
theorem tun_torn_down_after_one_response : ∃ u, exec Engine.step (Engine.init newSession)
    [.frame usualResp (workingHost 0), .finish, .cleanupTun (workingHost 0), .shutdown] = some u ∧
      u.cleanup = .returned ∧ u.Clean := by
  generalize hw : workingHost 0 = w
  have hrun : exec Engine.step (Engine.init newSession)
      [.frame usualResp w, .finish, .cleanupTun w, .shutdown] =
      some (((Engine.init newSession).published usualResp w 0).cleaned w 0) := by
    rw [← hw, exec_usual rfl CleanupPhase.noConfusion List.not_mem_nil]
    exact exec_cleaned rfl rfl rfl _
  refine ⟨_, hrun, rfl, (tun_never_orphaned_iff newSession hrun rfl).mpr ?_⟩
  refine ⟨fun p hp => EngineAct.noConfusion hp, fun e1 h1 => ⟨?_, fun e2 _ => ⟨?_, fun e3 _ =>
    ⟨fun p hp => EngineAct.noConfusion hp, fun e4 _ => trivial⟩⟩⟩⟩
  · intro p _ _
    have hm := Engine.step_move h1
    cases hm with
    | skip => exact ⟨rfl, rfl⟩
    | noHandle => exact ⟨rfl, rfl⟩
    | begin => exact ⟨rfl, rfl⟩
  · exact fun p hp => EngineAct.noConfusion hp

/-- a second response takes the place of the first one, whose device outlives the cleanup -/
theorem tun_orphaned_by_second_response : ∃ u, exec Engine.step (Engine.init newSession)
    [.frame usualResp (workingHost 0), .finish, .frame usualResp (workingHost 1), .finish,
      .cleanupTun (workingHost 1), .shutdown] = some u ∧
      u.cleanup = .returned ∧ 0 ∈ u.opened ∧ (u.session.mem 0).link ≠ Link.clear := by
  have hok0 := workingHost_ok 0 (Engine.init newSession).session
  have hok1 := fun s => workingHost_ok 1 s
  have hrun : exec Engine.step (Engine.init newSession)
      [.frame usualResp (workingHost 0), .finish, .frame usualResp (workingHost 1), .finish,
        .cleanupTun (workingHost 1), .shutdown] =
      some ((((Engine.init newSession).published usualResp (workingHost 0) 0).published usualResp
        (workingHost 1) 1).cleaned (workingHost 1) 1) := by
    rw [exec_usual rfl CleanupPhase.noConfusion List.not_mem_nil,
      exec_usual rfl CleanupPhase.noConfusion (show 1 ∉ [0] by decide)]
    exact exec_cleaned rfl rfl rfl _
  refine ⟨_, hrun, rfl, ?_, ?_⟩
  · show 0 ∈ (Engine.published _ usualResp (workingHost 1) 1).opened
    rw [Engine.published_opened (hok1 _), Engine.published_opened hok0]
    exact List.mem_cons_of_mem 1 List.mem_cons_self
  · -- the handle `1` was written twice since, the handle `0` never
    have hmem : ((((Engine.init newSession).published usualResp (workingHost 0) 0).published
        usualResp (workingHost 1) 1).cleaned (workingHost 1) 1).session.mem 0 =
          (configDev (workingHost 0).1 (Engine.init newSession).session usualResp).state := by
      rw [Engine.cleaned_mem_of_ne _ _ (by decide), Engine.published_mem_of_ne _ _ _ (by decide),
        Engine.published_mem_self]
    have hfd := (configDev_fdOpen hok0).2
    rw [hmem]
    intro hl
    rw [hl] at hfd
    exact absurd hfd Bool.false_ne_true

end QuicVpn
