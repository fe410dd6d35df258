import QuicVpn.Server.Conn

/-!
# Starting the server

`setup_msquic` of the server fills a context of its own and stores it in `session->MsQuic` as its
last act, after `MsQuicListenerStart` has returned.  From the moment `ListenerStart` is issued
MsQuic may deliver `NEW_CONNECTION`, and then the events of the connection and of its streams; each
of the three callbacks begins with `assert(MsQuic)` on `session->MsQuic`.

* `setupCall`          the calls of `setup_msquic`, with the fields of the context they fill;
* `StartUp.step`       these calls, the sections of `Server/Conn.lean` and the other events;
* `StartUp.Asserted`   no `assert(MsQuic)` has failed;
* `StartUp.AfterSetup` a listener event is delivered only after `setup_msquic` has returned `0`;
* `published_complete` what `session->MsQuic` points to has all its handles;
* `context_asserted_iff`   the assertions hold along a run exactly as long as the listener events
                       keep to `AfterSetup`.
-/

set_option linter.unusedSectionVars false

namespace QuicVpn
open Conc

/-- `SERVER_QUIC_CONTEXT`: which of its fields have been set -/
structure QuicContext where
  api : Bool
  registration : Bool
  localAddr : Bool
  creds : Bool
  alpn : Bool
  configuration : Bool
  listener : Bool
  deriving DecidableEq, Repr

/-- `calloc` -/
def QuicContext.zero : QuicContext := ⟨false, false, false, false, false, false, false⟩

/-- where `setup_msquic` is: before each call, in the call of `ListenerStart`, before the write of
`session->MsQuic`, at its end -/
inductive SetupPt where
  | msQuicCreate
  | msQuicOpen2
  | registrationOpen
  | quicAddrFromString
  | quicAddrGetFamily
  | configCredentials
  | configParameters
  | configurationOpen
  | configurationLoadCredential
  | listenerOpen
  | listenerStart
  | listenerStarting
  | assign
  | returned (r : ℤ)
  deriving DecidableEq, Repr

/-- one call of `setup_msquic` with its outcome; every failure inside of `MsQuicRegister`,
`MsQuicConfigLocalAddr` or `MsQuicListenerStart` ends it with `-1` -/
def setupCall (c : QuicContext) (ok : Bool) : SetupPt → Option (QuicContext × SetupPt)
  | .msQuicCreate => some (if ok then (.zero, .msQuicOpen2) else (c, .returned (-1)))
  | .msQuicOpen2 =>
    some (if ok then ({ c with api := true }, .registrationOpen) else (c, .returned (-1)))
  | .registrationOpen =>
    some (if ok then ({ c with registration := true }, .quicAddrFromString)
      else (c, .returned (-1)))
  | .quicAddrFromString =>
    some (if ok then ({ c with localAddr := true }, .quicAddrGetFamily)
      else ({ c with localAddr := false }, .returned (-1)))
  | .quicAddrGetFamily => some (c, if ok then .configCredentials else .returned (-1))
  -- certificate and key are given and the ALPN is: these two do not fail
  | .configCredentials => some ({ c with creds := true }, .configParameters)
  | .configParameters => some ({ c with alpn := true }, .configurationOpen)
  | .configurationOpen =>
    some (if ok then ({ c with configuration := true }, .configurationLoadCredential)
      else (c, .returned (-1)))
  | .configurationLoadCredential => some (c, if ok then .listenerOpen else .returned (-1))
  | .listenerOpen =>
    some (if ok then ({ c with listener := true }, .listenerStart)
      else ({ c with listener := false }, .returned (-1)))
  | .listenerStart => some (c, .listenerStarting)
  | .listenerStarting => some (c, if ok then .assign else .returned (-1))
  | .assign => some (c, .returned 0)
  | .returned _ => none

/-- the three callbacks -/
inductive Callback where
  | serverListenerCallback
  | serverConnectionCallback
  | serverStreamCallback
  deriving DecidableEq, Repr

/-- `context` is the local variable of `setup_msquic`, `msQuic` is `session->MsQuic`; `streams`
gives the connection of a stream whose callback has been set, and `failed` the callback whose
`assert(MsQuic)` has ended the process -/
structure StartUp (K S : Type) where
  context : QuicContext
  pt : SetupPt
  msQuic : Option QuicContext
  issued : Bool
  server : Server K
  streams : S → Option K
  failed : Option Callback

/-- a call of `setup_msquic`, an event that is not in `ConnAct`, or one of these -/
inductive StartAct (K S : Type) where
  | setup (ok : Bool)
  | listenerEvent
  | act (a : ConnAct K)
  | peerStreamStarted (k : K) (st : S) (malloc : Bool)
  | connectionEvent (k : K)
  | streamEvent (st : S)
  | streamShutdownComplete (st : S)

/-- the label delivers an event to `ServerListenerCallback` -/
def StartAct.listener {K S : Type} : StartAct K S → Bool
  | .listenerEvent => true
  | .act (.newConnection _) => true
  | _ => false

section
variable {K S : Type} [DecidableEq K] [DecidableEq S]

/-- the next section of a connection's handlers -/
def StartUp.serve (s : StartUp K S) (a : ConnAct K) : Option (StartUp K S) :=
  (s.server.step a).map fun t => { s with server := t }

/-- the beginning of a callback -/
def StartUp.enter (s : StartUp K S) (cb : Callback) (rest : Option (StartUp K S)) :
    Option (StartUp K S) :=
  match s.msQuic with
  | none => some { s with failed := some cb }
  | some _ => rest

/-- what MsQuic and `setup_msquic` can do as long as the process runs -/
def StartUp.go (s : StartUp K S) : StartAct K S → Option (StartUp K S)
  | .setup ok => (setupCall s.context ok s.pt).map fun r =>
      { s with
        context := r.1, pt := r.2
        issued := s.issued || decide (s.pt = .listenerStart)
        msQuic := if s.pt = .assign then some s.context else s.msQuic }
  | .listenerEvent => if s.issued then s.enter .serverListenerCallback (some s) else none
  | .act a =>
    match a with
    | .newConnection k =>
      if s.issued = true ∧ s.server.ph k = .idle then s.enter .serverListenerCallback (s.serve a)
      else none
    | .connected k | .shutdownComplete k =>
      if (s.server.ph k).up then s.enter .serverConnectionCallback (s.serve a) else none
    | _ => s.serve a
  | .peerStreamStarted k st malloc =>
    if (s.server.ph k).up = true ∧ s.streams st = none then
      s.enter .serverConnectionCallback (some { s with
        streams := if malloc then Function.update s.streams st (some k) else s.streams })
    else none
  | .connectionEvent k =>
    if (s.server.ph k).up then s.enter .serverConnectionCallback (some s) else none
  | .streamEvent st =>
    match s.streams st with
    | some k => if (s.server.ph k).up then s.enter .serverStreamCallback (some s) else none
    | none => none
  | .streamShutdownComplete st =>
    match s.streams st with
    | some k =>
      if (s.server.ph k).up then
        s.enter .serverStreamCallback (some { s with streams := Function.update s.streams st none })
      else none
    | none => none

def StartUp.step (s : StartUp K S) (a : StartAct K S) : Option (StartUp K S) :=
  if s.failed = none then s.go a else none

/-- `main` before `setup_msquic`, with a zeroed `session->MsQuic` -/
def StartUp.init (session : Session K) : StartUp K S :=
  ⟨.zero, .msQuicCreate, none, false, Server.init session, fun _ => none, none⟩

/-- no `assert(MsQuic)` has failed -/
def StartUp.Asserted (s : StartUp K S) : Prop := s.failed = none

/-- an event of the listener comes after `setup_msquic` has returned `0` -/
def StartUp.AfterSetup (s : StartUp K S) (a : StartAct K S) : Prop :=
  a.listener = true → s.pt = .returned 0

instance (s : StartUp K S) (a : StartAct K S) : Decidable (s.AfterSetup a) :=
  inferInstanceAs (Decidable (_ → _))

/-! ## what a step can do -/

/-- the label is an event, or a section of a handler that one has begun -/
def StartUp.Caused (s : StartUp K S) (a : StartAct K S) : Prop :=
  a.listener = true ∨ ∃ k, s.server.ph k ≠ .idle

inductive StartUp.Move (s : StartUp K S) : StartAct K S → StartUp K S → Prop where
  | call {ok : Bool} {c : QuicContext} {p : SetupPt} {i : Bool} {m : Option QuicContext}
      (hp : setupCall s.context ok s.pt = some (c, p))
      (hm : m = if s.pt = .assign then some s.context else s.msQuic) :
    Move s (.setup ok) { s with context := c, pt := p, issued := i, msQuic := m }
  | abort {a : StartAct K S} (cb : Callback) (hm : s.msQuic = none) (hc : s.Caused a) :
    Move s a { s with failed := some cb }
  | serve {a : StartAct K S} {t : Server K} (hm : a.listener = true → s.msQuic ≠ none)
      (hc : s.Caused a) : Move s a { s with server := t }
  | handle {a : StartAct K S} {f : S → Option K} (hm : s.msQuic ≠ none) :
    Move s a { s with streams := f }

/-- without a connection only `NEW_CONNECTION` is possible -/
theorem Server.step_idle {s t : Server K} {a : ConnAct K} (h : s.step a = some t) :
    (∃ k, a = .newConnection k) ∨ ∃ k, s.ph k ≠ .idle := by
  have hne {k : K} {q : Phase} (hk : s.ph k = q) (hq : q ≠ .idle) : ∃ k, s.ph k ≠ .idle :=
    ⟨k, fun e => hq (hk.symm.trans e)⟩
  cases Server.step_move h with
  | noSlot _ _ => exact Or.inl ⟨_, rfl⟩
  | offer _ _ => exact Or.inl ⟨_, rfl⟩
  | alloc hk _ | block hk _ | full hk _ | reserve hk _ | outOfRange hk _ | clear hk _
  | unlist hk _ | put hk _ => exact Or.inr (hne hk nofun)
  | configured hk | configFailed hk | connected hk | shutdown hk | allocDone hk | allocFailed hk
  | fill hk | noEntry hk | entry hk | assign hk | clearHandle hk | close hk | closeConfig hk | fail hk =>
    exact Or.inr (hne hk nofun)

theorem StartUp.enter_some {s s' : StartUp K S} {cb : Callback} {rest : Option (StartUp K S)}
    (h : s.enter cb rest = some s') :
    (s.msQuic = none ∧ s' = { s with failed := some cb }) ∨ (s.msQuic ≠ none ∧ rest = some s') := by
  unfold StartUp.enter at h
  split at h
  · next hm => exact Or.inl ⟨hm, (Option.some.inj h).symm⟩
  · next c hm =>
    refine Or.inr ⟨?_, h⟩
    rw [hm]
    exact Option.some_ne_none c

theorem StartUp.serve_some {s s' : StartUp K S} {a : ConnAct K} (h : s.serve a = some s') :
    ∃ t, s.server.step a = some t ∧ s' = { s with server := t } := by
  obtain ⟨t, ht, e⟩ := Option.map_eq_some_iff.mp h
  exact ⟨t, ht, e.symm⟩

/-- an event that is handled at once: the assertion, then what the handler does with the streams -/
theorem StartUp.Move.event {s s' : StartUp K S} {a : StartAct K S} {cb : Callback}
    {f : S → Option K} (hc : s.Caused a)
    (h : s.enter cb (some { s with streams := f }) = some s') : s.Move a s' := by
  rcases StartUp.enter_some h with ⟨hm, rfl⟩ | ⟨hm, e⟩
  · exact .abort cb hm hc
  · exact Option.some.inj e ▸ .handle hm

/-- an event whose handler is cut into sections -/
theorem StartUp.Move.first {s s' : StartUp K S} {a : ConnAct K} {cb : Callback}
    (hc : s.Caused (.act a)) (h : s.enter cb (s.serve a) = some s') : s.Move (.act a) s' := by
  rcases StartUp.enter_some h with ⟨hm, rfl⟩ | ⟨hm, e⟩
  · exact .abort cb hm hc
  · obtain ⟨t, -, rfl⟩ := StartUp.serve_some e
    exact .serve (fun _ => hm) hc

/-- a later section -/
theorem StartUp.Move.later {s s' : StartUp K S} {a : ConnAct K}
    (hl : (StartAct.act a : StartAct K S).listener = false) (h : s.serve a = some s') :
    s.Move (.act a) s' := by
  obtain ⟨t, ht, rfl⟩ := StartUp.serve_some h
  rcases Server.step_idle ht with ⟨k, rfl⟩ | hk
  · exact absurd hl Bool.true_eq_false.mp
  · exact .serve (fun e => absurd (hl.symm.trans e) Bool.false_ne_true) (Or.inr hk)

theorem StartUp.go_move {s s' : StartUp K S} {a : StartAct K S} (h : s.go a = some s') :
    s.Move a s' := by
  have hup {k : K} (hk : (s.server.ph k).up = true) : ∃ k, s.server.ph k ≠ .idle :=
    ⟨k, Phase.up_ne_idle hk⟩
  cases a with
  | setup ok =>
    obtain ⟨⟨c, p⟩, hp, e⟩ := Option.map_eq_some_iff.mp h
    exact e ▸ .call hp rfl
  | listenerEvent =>
    simp only [StartUp.go, Option.ite_none_right_eq_some] at h
    exact .event (Or.inl rfl) h.2
  | act a =>
    cases a with
    | newConnection k =>
      simp only [StartUp.go, Option.ite_none_right_eq_some] at h
      exact .first (Or.inl rfl) h.2
    | connected k =>
      simp only [StartUp.go, Option.ite_none_right_eq_some] at h
      exact .first (Or.inr (hup h.1)) h.2
    | shutdownComplete k =>
      simp only [StartUp.go, Option.ite_none_right_eq_some] at h
      exact .first (Or.inr (hup h.1)) h.2
    | alloc k r => exact .later rfl h
    | configured k ok => exact .later rfl h
    | run k => exact .later rfl h
  | peerStreamStarted k st malloc =>
    simp only [StartUp.go, Option.ite_none_right_eq_some] at h
    exact .event (Or.inr (hup h.1.1)) h.2
  | connectionEvent k =>
    simp only [StartUp.go, Option.ite_none_right_eq_some] at h
    exact .event (Or.inr (hup h.1)) h.2
  | streamEvent st =>
    simp only [StartUp.go] at h
    split at h
    case h_2 => exact absurd h (Option.some_ne_none s').symm
    rw [Option.ite_none_right_eq_some] at h
    exact .event (Or.inr (hup h.1)) h.2
  | streamShutdownComplete st =>
    simp only [StartUp.go] at h
    split at h
    case h_2 => exact absurd h (Option.some_ne_none s').symm
    rw [Option.ite_none_right_eq_some] at h
    exact .event (Or.inr (hup h.1)) h.2

theorem StartUp.step_move {s s' : StartUp K S} {a : StartAct K S} (h : s.step a = some s') :
    s.failed = none ∧ s.Move a s' := by
  unfold StartUp.step at h
  rw [Option.ite_none_right_eq_some] at h
  exact ⟨h.1, StartUp.go_move h.2⟩

/-! ## `setup_msquic` on its own -/

/-- the context `setup_msquic` has at a point where no call has failed -/
def SetupPt.filled : SetupPt → QuicContext
  | .msQuicCreate | .msQuicOpen2 => .zero
  | .registrationOpen => ⟨true, false, false, false, false, false, false⟩
  | .quicAddrFromString => ⟨true, true, false, false, false, false, false⟩
  | .quicAddrGetFamily | .configCredentials => ⟨true, true, true, false, false, false, false⟩
  | .configParameters => ⟨true, true, true, true, false, false, false⟩
  | .configurationOpen => ⟨true, true, true, true, true, false, false⟩
  | .configurationLoadCredential | .listenerOpen => ⟨true, true, true, true, true, true, false⟩
  | .listenerStart | .listenerStarting | .assign | .returned _ =>
    ⟨true, true, true, true, true, true, true⟩

/-- the calls fill the context in order -/
theorem setupCall_filled {c : QuicContext} {p p' : SetupPt} {ok : Bool} {c' : QuicContext}
    (hc : c = p.filled) (h : setupCall c ok p = some (c', p')) :
    p' = .returned (-1) ∨ c' = p'.filled := by
  subst hc
  cases p with
  | returned r => exact absurd h (Option.some_ne_none _).symm
  | _ => cases ok <;> cases h <;> first | exact Or.inl rfl | exact Or.inr rfl

/-- `setup_msquic` returns `0` after the write of `session->MsQuic` only -/
theorem setupCall_zero {c c' : QuicContext} {p p' : SetupPt} {ok : Bool}
    (h : setupCall c ok p = some (c', p')) : p' = .returned 0 ↔ p = .assign := by
  cases p with
  | returned r => exact absurd h (Option.some_ne_none _).symm
  | _ => cases ok <;> cases h <;> decide

theorem setupCall_returned {c : QuicContext} {ok : Bool} {p : SetupPt} {r : QuicContext × SetupPt}
    (h : setupCall c ok p = some r) {n : ℤ} : p ≠ .returned n := by
  rintro rfl
  exact absurd h (Option.some_ne_none r).symm

/-! ## the invariants -/

/-- `session->MsQuic` is set when `setup_msquic` has returned `0`, and then with all its fields -/
structure StartUp.Sound (s : StartUp K S) : Prop where
  set : s.msQuic ≠ none ↔ s.pt = .returned 0
  local_filled : s.pt = .returned (-1) ∨ s.context = s.pt.filled
  filled : ∀ c, s.msQuic = some c → c = SetupPt.assign.filled

theorem StartUp.step_sound {s s' : StartUp K S} {a : StartAct K S} (hi : s.Sound)
    (h : s.step a = some s') : s'.Sound := by
  obtain ⟨-, hmove⟩ := StartUp.step_move h
  cases hmove with
  | @call ok c p i m hp hm =>
    have hz := setupCall_zero hp
    have hr {n : ℤ} : s.pt ≠ .returned n := setupCall_returned hp
    have hnone : s.msQuic = none := not_not.mp fun hne => hr (hi.set.mp hne)
    have hctx : s.context = s.pt.filled := hi.local_filled.resolve_left hr
    refine ⟨?_, setupCall_filled hctx hp, fun d hd => ?_⟩
    · show m ≠ none ↔ p = .returned 0
      rw [hz, hm]
      by_cases ha : s.pt = .assign
      · rw [if_pos ha]
        exact ⟨fun _ => ha, fun _ => Option.some_ne_none _⟩
      · rw [if_neg ha]
        exact ⟨fun hne => absurd hnone hne, fun e => absurd e ha⟩
    · have hd : m = some d := hd
      rw [hm] at hd
      by_cases ha : s.pt = .assign
      · rw [if_pos ha] at hd
        rw [← Option.some.inj hd, hctx, ha]
      · rw [if_neg ha, hnone] at hd
        exact absurd hd (Option.some_ne_none d).symm
  | abort cb hm hc => exact ⟨hi.set, hi.local_filled, hi.filled⟩
  | serve hm hc => exact ⟨hi.set, hi.local_filled, hi.filled⟩
  | handle hm => exact ⟨hi.set, hi.local_filled, hi.filled⟩

theorem StartUp.init_sound (session : Session K) : (StartUp.init session : StartUp K S).Sound :=
  ⟨⟨fun h => absurd rfl h, nofun⟩, Or.inr rfl, nofun⟩

/-- in every run, what `session->MsQuic` points to has its API table and all its handles -/
theorem published_complete {session : Session K} {l : List (StartAct K S)} {u : StartUp K S}
    {c : QuicContext} (h : exec StartUp.step (StartUp.init session) l = some u)
    (hc : u.msQuic = some c) : c = ⟨true, true, true, true, true, true, true⟩ := by
  have hi : u.Sound :=
    exec_inv (fun _ _ _ hi hs => StartUp.step_sound hi hs) (StartUp.init_sound session) h
  exact hi.filled c hc

/-- moreover no assertion has failed, and connections exist only after `setup_msquic` -/
structure StartUp.Served (s : StartUp K S) : Prop where
  sound : s.Sound
  asserted : s.Asserted
  later : ∀ k, s.server.ph k ≠ .idle → s.pt = .returned 0

/-- what an event or a handler can rely on -/
theorem StartUp.Served.caused {s : StartUp K S} {a : StartAct K S} (hi : s.Served)
    (hC : s.AfterSetup a) (hc : s.Caused a) : s.pt = .returned 0 := by
  rcases hc with hl | ⟨k, hk⟩
  · exact hC hl
  · exact hi.later k hk

theorem StartUp.step_served {s s' : StartUp K S} {a : StartAct K S} (hi : s.Served)
    (hC : s.AfterSetup a) (h : s.step a = some s') : s'.Served := by
  have hsound := StartUp.step_sound hi.sound h
  obtain ⟨-, hmove⟩ := StartUp.step_move h
  cases hmove with
  | call hp hm =>
    refine ⟨hsound, hi.asserted, fun k hk => ?_⟩
    exact absurd (hi.later k hk) (setupCall_returned hp)
  | abort cb hm hc => exact absurd hm (hi.sound.set.mpr (hi.caused hC hc))
  | serve hm hc => exact ⟨hsound, hi.asserted, fun _ _ => hi.caused hC hc⟩
  | handle hm => exact ⟨hsound, hi.asserted, hi.later⟩

theorem StartUp.init_served (session : Session K) : (StartUp.init session : StartUp K S).Served :=
  ⟨StartUp.init_sound session, rfl, fun _ hk => absurd rfl hk⟩

/-- a listener event before the end of `setup_msquic` finds no context -/
theorem StartUp.early_fails {s s' : StartUp K S} {a : StartAct K S} (hi : s.Served)
    (hC : ¬ s.AfterSetup a) (h : s.step a = some s') : ¬ s'.Asserted := by
  obtain ⟨hl, hpt⟩ := Classical.not_imp.mp hC
  have hnone : s.msQuic = none := not_not.mp fun hne => hpt (hi.sound.set.mp hne)
  obtain ⟨-, hmove⟩ := StartUp.step_move h
  cases hmove with
  | call hp hm => exact absurd hl Bool.false_ne_true
  | abort cb hm hc => exact Option.some_ne_none cb
  | serve hm hc => exact absurd hnone (hm hl)
  | handle hm => exact absurd hnone hm

/-- **The callbacks of the server find their context** in every state of a run, whatever fails in
`setup_msquic` and whenever MsQuic delivers its events, exactly when each event of the listener is
delivered after `setup_msquic` has returned `0`. -/
theorem context_asserted_iff {session : Session K} {l : List (StartAct K S)} {u : StartUp K S}
    (h : exec StartUp.step (StartUp.init session) l = some u) :
    Always StartUp.step StartUp.Asserted (StartUp.init session) l ↔
      Along StartUp.step StartUp.AfterSetup (StartUp.init session) l :=
  always_iff_along (fun _ hi => hi.asserted) (fun _ _ _ hi hC hs => StartUp.step_served hi hC hs)
    (fun _ _ _ hi hC hs => StartUp.early_fails hi hC hs) (StartUp.init_served session) h

end

/-! ## runs -/

/-- `setup_msquic` up to the call of `ListenerStart`, which is issued -/
def setupToListenerStart : List (StartAct Unit Unit) := List.replicate 11 (.setup true)

/-- NEW_CONNECTION, a control stream and an event of it -/
def oneStream : List (StartAct Unit Unit) :=
  (oneClient ()).map .act ++ [.peerStreamStarted () () true, .streamEvent ()]

/-- a client that connects after `setup_msquic` -/
theorem context_asserted_after_setup : ∃ u, exec StartUp.step
    (StartUp.init (fourSlots Unit)) (setupToListenerStart ++ [.setup true, .setup true] ++
      oneStream) = some u ∧
    Always StartUp.step StartUp.Asserted (StartUp.init (fourSlots Unit))
      (setupToListenerStart ++ [.setup true, .setup true] ++ oneStream) := by
  have h : (exec StartUp.step (StartUp.init (fourSlots Unit)) (setupToListenerStart ++
      [.setup true, .setup true] ++ oneStream)).isSome = true := by decide
  obtain ⟨u, hu⟩ := Option.isSome_iff_exists.mp h
  exact ⟨u, hu, (context_asserted_iff hu).mpr (by decide)⟩

/-- a client that connects while `setup_msquic` is still in `ListenerStart` ends the process -/
theorem context_unset_at_listener_start : ∃ u, exec StartUp.step
    (StartUp.init (fourSlots Unit)) (setupToListenerStart ++ [.act (.newConnection ())]) =
      some u ∧ u.pt = .listenerStarting ∧ u.failed = some .serverListenerCallback ∧
      ¬ u.Asserted := by
  have h : (exec StartUp.step (StartUp.init (fourSlots Unit)) (setupToListenerStart ++
      [.act (.newConnection ())])).map (fun u => (u.pt, u.failed)) =
        some (.listenerStarting, some .serverListenerCallback) := by decide
  obtain ⟨u, hu, e⟩ := Option.map_eq_some_iff.mp h
  obtain ⟨hp, hf⟩ := Prod.mk.inj e
  refine ⟨u, hu, hp, hf, fun ha => ?_⟩
  exact Option.some_ne_none _ (hf.symm.trans ha)

end QuicVpn
