import QuicVpn.Lib.Attempt
import Mathlib.Data.List.Count
import Mathlib.Tactic.SplitIfs

/-!
# What a failed start of the client gives back

`vpn_engine_start` acquires the objects of a session one after the other and goes to `err` at the first
failure.  `session_create` has an error path of its own; behind it, `vpn_engine_cleanup` looks at the
fields of the session.

* `StartCall`            the fallible calls, with their answers in `StartEnv`;
* `sessionCreate`, `vpnEngineStart`   the calls in the order of the source;
* `StartSession.createErr`, `StartSession.cleanup`   what the two error paths release;
* `Starting.Balanced`    everything acquired is released once, and nothing else is released;
* `StartEnv.Clean`       the failures after which this is so.

The main result is `start_balanced_iff`.
-/

set_option linter.unusedSectionVars false

namespace QuicVpn
open Conc

/-- what a start acquires; the threads count as released when they are joined -/
inductive StartRes where
  | session
  | tunState
  | conState
  | streamState
  | shutdownFd
  | poolSend
  | poolRecv
  | queue
  | wan
  | msQuic
  | threadSend
  | threadRecv
  deriving DecidableEq, Repr

inductive StartCall where
  | resolveHostname
  | initTunState
  | initConState
  | initStreamState
  | eventfd
  | initPoolSend
  | initPoolRecv
  | initQueue
  | routeInfo
  | addrInfo
  | linkInfo
  | mallocWan
  | msQuicCreate
  | msQuicRegister
  | configAddr
  | configParameters
  | configCredentials
  | connectionStart
  | streamOpen
  | streamStart
  | streamWait
  | streamSend
  | waitReady
  | createSend
  | createRecv
  deriving DecidableEq, Repr

/-- the result of `eventfd` is not looked at -/
def StartCall.tested : StartCall → Bool
  | .eventfd => false
  | _ => true

/-- what the call acquires when it succeeds -/
def StartCall.res : StartCall → Option StartRes
  | .initTunState => some .tunState
  | .initConState => some .conState
  | .initStreamState => some .streamState
  | .eventfd => some .shutdownFd
  | .initPoolSend => some .poolSend
  | .initPoolRecv => some .poolRecv
  | .initQueue => some .queue
  | .mallocWan => some .wan
  | .msQuicCreate => some .msQuic
  | .createSend => some .threadSend
  | .createRecv => some .threadRecv
  | _ => none

/-- the answers to a start; `stored`: the stream callback has stored a device in `session->tun` by the
time the cleanup looks there -/
structure StartEnv where
  alloc : Bool
  answers : StartCall → Bool
  stored : Bool

/-- the fields of `session_t` that decide what is released; a pointer is `true` when it is set -/
structure StartSession where
  poolPktDataSend : Bool
  poolPktDataRecv : Bool
  queuePktDataRecv : Bool
  wan : Bool
  tun : Bool
  msQuic : Bool
  runningPktDataSend : Bool
  runningPktDataRecv : Bool

structure Starting where
  session : StartSession
  acquired : List StartRes
  released : List StartRes

/-- behind the `memset` of `session_create` -/
def Starting.init : Starting :=
  ⟨⟨false, false, false, false, false, false, false, false⟩, [.session], []⟩

/-- what is written before the outcome of a call is known: the `running` flags are set in front of
`pthread_create`, and the stream callback may run once the stream is started -/
def StartCall.before (e : StartEnv) (s : StartSession) : StartCall → StartSession
  | .createSend => { s with runningPktDataSend := true }
  | .createRecv => { s with runningPktDataRecv := true }
  | .streamWait => { s with tun := e.stored }
  | _ => s

/-- what is written when it succeeds; `TUN_READY` is set behind `session->tun` -/
def StartCall.done (s : StartSession) : StartCall → StartSession
  | .initPoolSend => { s with poolPktDataSend := true }
  | .initPoolRecv => { s with poolPktDataRecv := true }
  | .initQueue => { s with queuePktDataRecv := true }
  | .mallocWan => { s with wan := true }
  | .msQuicCreate => { s with msQuic := true }
  | .waitReady => { s with tun := true }
  | _ => s

/-- the codes are only compared with `0` -/
def StartCall.run (e : StartEnv) (c : StartCall) (s : Starting) : ℤ × Starting :=
  if e.answers c then
    (0, { s with session := c.done (c.before e s.session), acquired := c.res.toList ++ s.acquired })
  else (-1, { s with session := c.before e s.session })

/-- a release behind a test of its field -/
def releaseIf (b : Bool) (r : StartRes) : List StartRes := if b then [r] else []

/-- the error path of `session_create`; the pointers are tested by `pool_destroy` and `queue_destroy` -/
def StartSession.createErr (s : StartSession) : List StartRes :=
  [.tunState, .conState, .streamState] ++ releaseIf s.poolPktDataSend .poolSend ++
    releaseIf s.poolPktDataRecv .poolRecv ++ releaseIf s.queuePktDataRecv .queue

/-- `vpn_engine_cleanup` on the session -/
def StartSession.cleanup (s : StartSession) : List StartRes :=
  releaseIf s.runningPktDataSend .threadSend ++ releaseIf s.runningPktDataSend .shutdownFd ++
    releaseIf s.runningPktDataRecv .threadRecv ++ releaseIf s.tun .tunState ++
    releaseIf s.msQuic .msQuic ++ releaseIf s.wan .wan ++ [.conState, .streamState] ++
    releaseIf s.poolPktDataSend .poolSend ++ releaseIf s.poolPktDataRecv .poolRecv ++
    releaseIf s.queuePktDataRecv .queue ++ [.session]

def vpnEngineCleanup (s : Starting) : Starting := { s with released := s.session.cleanup }

def createCalls : List StartCall :=
  [.resolveHostname, .initTunState, .initConState, .initStreamState, .eventfd, .initPoolSend,
   .initPoolRecv, .initQueue]

def detectDefaultWan : List StartCall := [.routeInfo, .addrInfo, .linkInfo, .mallocWan]

/-- up to the start of the stream -/
def connectCalls : List StartCall :=
  [.msQuicCreate, .msQuicRegister, .configAddr, .configParameters, .configCredentials,
   .connectionStart, .streamOpen, .streamStart]

def setupMsquic : List StartCall := connectCalls ++ [.streamWait]

def requestVirtip : List StartCall := [.streamSend, .waitReady]

def startThreads : List StartCall := [.createSend, .createRecv]

/-- `session_create`; the flag is `false` when it returns `NULL` -/
def sessionCreate (e : StartEnv) : Bool × Starting :=
  if e.alloc then
    let t := attempt (StartCall.run e) StartCall.tested createCalls Starting.init
    if t.ok then (true, t.state)
    else (false, { t.state with released := t.state.session.createErr })
  else (false, { Starting.init with acquired := [] })

/-- `vpn_engine_start`; the cleanup does nothing when there is no session -/
def vpnEngineStart (e : StartEnv) : Bool × Starting :=
  match sessionCreate e with
  | (false, s) => (false, s)
  | (true, s) =>
    let t := attempt (StartCall.run e) StartCall.tested
      (detectDefaultWan ++ setupMsquic ++ requestVirtip ++ startThreads) s
    if t.ok then (true, t.state)
    else (false, vpnEngineCleanup t.state)

/-- everything acquired is released exactly once, and nothing else is -/
def Starting.Balanced (s : Starting) : Prop :=
  ∀ r, s.released.count r = if r ∈ s.acquired then 1 else 0

/-- there was no session at all; or there was no `eventfd`, and the start failed after the callback had
stored a device and before the threads -/
def StartEnv.Clean (e : StartEnv) : Prop :=
  e.alloc = false ∨
    e.answers .eventfd = false ∧ e.stored = true ∧
    (∀ c ∈ createCalls ++ detectDefaultWan ++ connectCalls, c.tested = true → e.answers c = true) ∧
    ∃ c ∈ [StartCall.streamWait, .streamSend, .waitReady], e.answers c = false

/-! ## what the cleanup releases -/

/-- the cleanup of a session with these fields releases `r` -/
def StartSession.frees (s : StartSession) : StartRes → Bool
  | .threadSend => s.runningPktDataSend
  | .shutdownFd => s.runningPktDataSend
  | .threadRecv => s.runningPktDataRecv
  | .tunState => s.tun
  | .msQuic => s.msQuic
  | .wan => s.wan
  | .poolSend => s.poolPktDataSend
  | .poolRecv => s.poolPktDataRecv
  | .queue => s.queuePktDataRecv
  | .conState => true
  | .streamState => true
  | .session => true

theorem releaseIf_count (b : Bool) (x r : StartRes) :
    (releaseIf b x).count r = (b && decide (x = r)).toNat := by
  cases b with
  | false => rfl
  | true =>
    show [x].count r = (decide (x = r)).toNat
    by_cases h : x = r
    · rw [h, List.count_singleton_self, decide_eq_true rfl]
      rfl
    · rw [List.count_eq_zero_of_not_mem (List.mem_singleton.not.mpr (Ne.symm h)),
        decide_eq_false h]
      rfl

theorem StartSession.cleanup_count (s : StartSession) (r : StartRes) :
    s.cleanup.count r = (s.frees r).toNat := by
  simp only [StartSession.cleanup, List.count_append, releaseIf_count]
  cases r <;> simp [StartSession.frees]

/-- so the balance is one of the fields against what was acquired -/
theorem cleanup_balanced_iff (s : Starting) :
    (vpnEngineCleanup s).Balanced ↔
      ∀ r, s.session.frees r = true ↔ r ∈ s.acquired := by
  refine forall_congr' fun r => ?_
  show s.session.cleanup.count r = (if r ∈ s.acquired then 1 else 0) ↔ _
  rw [StartSession.cleanup_count]
  cases s.session.frees r with
  | false =>
    by_cases hr : r ∈ s.acquired
    · rw [if_pos hr]
      exact iff_of_false Nat.zero_ne_one fun h => Bool.false_ne_true (h.mpr hr)
    · rw [if_neg hr]
      exact iff_of_true rfl (iff_of_false Bool.false_ne_true hr)
  | true =>
    by_cases hr : r ∈ s.acquired
    · rw [if_pos hr]
      exact iff_of_true rfl (iff_of_true rfl hr)
    · rw [if_neg hr]
      exact iff_of_false Nat.one_ne_zero fun h => hr (h.mp rfl)

/-- the error path of `session_create` does not free the record -/
theorem StartSession.session_not_mem_createErr (s : StartSession) : .session ∉ s.createErr := by
  unfold StartSession.createErr releaseIf
  split_ifs <;> simp

/-! ## the calls -/

section
variable {e : StartEnv} {s : Starting}

theorem StartCall.run_zero (e : StartEnv) (c : StartCall) (s : Starting) :
    (c.run e s).1 = 0 ↔ e.answers c = true := by
  unfold StartCall.run
  cases e.answers c with
  | false => exact iff_of_false (show (-1 : ℤ) ≠ 0 by decide) Bool.false_ne_true
  | true => exact iff_of_true rfl rfl

/-- what has been acquired stays so -/
theorem StartCall.run_acquired {r : StartRes} (c : StartCall) (h : r ∈ s.acquired) :
    r ∈ (c.run e s).2.acquired := by
  unfold StartCall.run
  cases e.answers c with
  | false => exact h
  | true => exact List.mem_append_right _ h

/-- a call that neither acquires anything nor writes a field -/
theorem StartCall.run_same {c : StartCall} (hr : c.res = none) (hb : c.before e s.session = s.session)
    (hd : c.done s.session = s.session) : (c.run e s).2 = s := by
  unfold StartCall.run
  cases e.answers c with
  | false =>
    show ({ s with session := c.before e s.session } : Starting) = s
    rw [hb]
  | true =>
    show ({ s with session := c.done (c.before e s.session),
                   acquired := c.res.toList ++ s.acquired } : Starting) = s
    rw [hb, hd, hr]
    rfl

/-- a failing `session_create` leaves the record behind -/
theorem createErr_not_balanced {s : Starting} (h : .session ∈ s.acquired) :
    ¬ Starting.Balanced { s with released := s.session.createErr } := by
  intro hb
  have h1 : s.session.createErr.count .session = if .session ∈ s.acquired then 1 else 0 :=
    hb .session
  rw [if_pos h, List.count_eq_zero_of_not_mem s.session.session_not_mem_createErr] at h1
  exact Nat.zero_ne_one h1

/-- what holds from the return of `session_create` to the threads -/
structure Starting.Ready (e : StartEnv) (s : Starting) : Prop where
  owned : ∀ r ∈ [StartRes.session, .tunState, .conState, .streamState, .poolSend, .poolRecv, .queue],
    r ∈ s.acquired
  pointers : s.session.poolPktDataSend = true ∧ s.session.poolPktDataRecv = true ∧
    s.session.queuePktDataRecv = true
  wan : s.session.wan = true ↔ .wan ∈ s.acquired
  msQuic : s.session.msQuic = true ↔ .msQuic ∈ s.acquired
  fd : .shutdownFd ∈ s.acquired ↔ e.answers .eventfd = true

/-- what is left to look at is the descriptor, the threads and the device -/
theorem Starting.Ready.balanced_iff (h : s.Ready e) :
    (vpnEngineCleanup s).Balanced ↔
      (s.session.runningPktDataSend = true ↔ .threadSend ∈ s.acquired) ∧
      (s.session.runningPktDataSend = true ↔ e.answers .eventfd = true) ∧
      (s.session.runningPktDataRecv = true ↔ .threadRecv ∈ s.acquired) ∧
      s.session.tun = true := by
  have hown : ∀ r ∈ [StartRes.session, .tunState, .conState, .streamState, .poolSend, .poolRecv,
      .queue], s.session.frees r = true → (s.session.frees r = true ↔ r ∈ s.acquired) :=
    fun r hr hf => iff_of_true hf (h.owned r hr)
  rw [cleanup_balanced_iff]
  constructor
  · intro hall
    exact ⟨hall .threadSend, (hall .shutdownFd).trans h.fd, hall .threadRecv,
      (hall .tunState).mpr (h.owned .tunState (by decide))⟩
  · rintro ⟨h1, h2, h3, h4⟩ r
    cases r with
    | threadSend => exact h1
    | shutdownFd => exact h2.trans h.fd.symm
    | threadRecv => exact h3
    | tunState => exact hown .tunState (by decide) h4
    | msQuic => exact h.msQuic
    | wan => exact h.wan
    | session => exact hown .session (by decide) rfl
    | conState => exact hown .conState (by decide) rfl
    | streamState => exact hown .streamState (by decide) rfl
    | poolSend => exact hown .poolSend (by decide) h.pointers.1
    | poolRecv => exact hown .poolRecv (by decide) h.pointers.2.1
    | queue => exact hown .queue (by decide) h.pointers.2.2

/-- up to the start of the stream there is no device, and no thread -/
structure Starting.Quiet (e : StartEnv) (s : Starting) : Prop where
  ready : s.Ready e
  tun : s.session.tun = false
  send : s.session.runningPktDataSend = false
  recv : s.session.runningPktDataRecv = false
  noSend : .threadSend ∉ s.acquired
  noRecv : .threadRecv ∉ s.acquired

/-- behind a `session_create` that succeeds -/
theorem create_quiet (hok : (attempt (StartCall.run e) StartCall.tested createCalls
    Starting.init).ok = true) :
    (attempt (StartCall.run e) StartCall.tested createCalls Starting.init).state.Quiet e := by
  have hall := (attempt_ok_iff_forall (StartCall.run_zero e) createCalls Starting.init).mp hok
  have hstate : (attempt (StartCall.run e) StartCall.tested createCalls Starting.init).state =
      ⟨⟨true, true, true, false, false, false, false, false⟩,
        [.queue, .poolRecv, .poolSend] ++ ((if e.answers .eventfd then [.shutdownFd] else []) ++
          [.streamState, .conState, .tunState, .session]), []⟩ := by
    rw [attempt_state hok]
    simp only [createCalls, List.foldl_cons, List.foldl_nil, StartCall.run,
      hall .resolveHostname (by decide) rfl, hall .initTunState (by decide) rfl,
      hall .initConState (by decide) rfl, hall .initStreamState (by decide) rfl,
      hall .initPoolSend (by decide) rfl, hall .initPoolRecv (by decide) rfl,
      hall .initQueue (by decide) rfl, if_true]
    cases e.answers .eventfd <;> rfl
  rw [hstate]
  cases hfd : e.answers .eventfd with
  | false =>
    exact ⟨⟨by decide, ⟨rfl, rfl, rfl⟩, by decide, by decide, iff_of_false (by decide) (by
      rw [hfd]; exact Bool.false_ne_true)⟩, rfl, rfl, rfl, by decide, by decide⟩
  | true =>
    exact ⟨⟨by decide, ⟨rfl, rfl, rfl⟩, by decide, by decide, iff_of_true (by decide) hfd⟩, rfl, rfl,
      rfl, by decide, by decide⟩

/-- a call that acquires `r`, which has a field of its own, and no thread -/
theorem Starting.Quiet.acquire (h : s.Quiet e) {r : StartRes} {f : StartSession}
    (hp : f.poolPktDataSend = true ∧ f.poolPktDataRecv = true ∧ f.queuePktDataRecv = true)
    (ht : f.tun = false) (hs : f.runningPktDataSend = false) (hr : f.runningPktDataRecv = false)
    (hwan : f.wan = true ↔ .wan ∈ r :: s.acquired) (hmq : f.msQuic = true ↔ .msQuic ∈ r :: s.acquired)
    (h1 : r ≠ .shutdownFd) (h2 : r ≠ .threadSend) (h3 : r ≠ .threadRecv) :
    Starting.Quiet e { s with session := f, acquired := r :: s.acquired } := by
  have hne : ∀ x, r ≠ x → (x ∈ r :: s.acquired ↔ x ∈ s.acquired) := fun x hx =>
    List.mem_cons.trans (or_iff_right (Ne.symm hx))
  refine ⟨⟨fun x hx => List.mem_cons_of_mem r (h.ready.owned x hx), hp, hwan, hmq, ?_⟩, ht, hs, hr,
    ?_, ?_⟩
  · exact (hne _ h1).trans h.ready.fd
  · exact (hne _ h2).not.mpr h.noSend
  · exact (hne _ h3).not.mpr h.noRecv

/-- `detect_default_wan` and the part of `setup_msquic` in front of the stream -/
theorem Starting.Quiet.run (h : s.Quiet e) {c : StartCall} (hc : c ∈ detectDefaultWan ++ connectCalls) :
    (c.run e s).2.Quiet e := by
  cases c with
  | mallocWan =>
    unfold StartCall.run
    split_ifs
    · refine h.acquire h.ready.pointers h.tun h.send h.recv (iff_of_true rfl List.mem_cons_self) ?_
        StartRes.noConfusion StartRes.noConfusion StartRes.noConfusion
      exact h.ready.msQuic.trans (by simp)
    · exact h
  | msQuicCreate =>
    unfold StartCall.run
    split_ifs
    · refine h.acquire h.ready.pointers h.tun h.send h.recv ?_ (iff_of_true rfl List.mem_cons_self)
        StartRes.noConfusion StartRes.noConfusion StartRes.noConfusion
      exact h.ready.wan.trans (by simp)
    · exact h
  | routeInfo | addrInfo | linkInfo | msQuicRegister | configAddr | configParameters
  | configCredentials | connectionStart | streamOpen | streamStart =>
    rw [StartCall.run_same rfl rfl rfl]
    exact h
  | resolveHostname | initTunState | initConState | initStreamState | eventfd | initPoolSend
  | initPoolRecv | initQueue | streamWait | streamSend | waitReady | createSend | createRecv =>
    exact absurd hc (by decide)

/-- the device is in its place, the threads are not -/
theorem Starting.Quiet.withTun (h : s.Quiet e) (b : Bool) :
    Starting.Ready e { s with session := { s.session with tun := b } } :=
  ⟨h.ready.owned, h.ready.pointers, h.ready.wan, h.ready.msQuic, h.ready.fd⟩

/-- the calls between the start of the stream and the threads -/
def addressCalls : List StartCall := [.streamWait, .streamSend, .waitReady]

/-- where one of them fails, what counts is whether the callback has stored a device -/
theorem address_fail (hok : (attempt (StartCall.run e) StartCall.tested addressCalls s).ok = false) :
    (attempt (StartCall.run e) StartCall.tested addressCalls s).state =
      { s with session := { s.session with tun := e.stored } } := by
  cases h1 : e.answers .streamWait with
  | false => simp [addressCalls, attempt, StartCall.run, StartCall.tested, StartCall.before, h1]
  | true =>
    cases h2 : e.answers .streamSend with
    | false =>
      simp [addressCalls, attempt, StartCall.run, StartCall.tested, StartCall.before, StartCall.done,
        StartCall.res, h1, h2]
    | true =>
      cases h3 : e.answers .waitReady with
      | false =>
        simp [addressCalls, attempt, StartCall.run, StartCall.tested, StartCall.before,
          StartCall.done, StartCall.res, h1, h2, h3]
      | true =>
        rw [Bool.eq_false_iff] at hok
        refine absurd ((attempt_ok_iff_forall (StartCall.run_zero e) _ _).mpr ?_) hok
        intro c hc _
        simp only [addressCalls, List.mem_cons, List.not_mem_nil, or_false] at hc
        rcases hc with rfl | rfl | rfl
        · exact h1
        · exact h2
        · exact h3

theorem address_ok (hok : (attempt (StartCall.run e) StartCall.tested addressCalls s).ok = true) :
    (attempt (StartCall.run e) StartCall.tested addressCalls s).state =
      { s with session := { s.session with tun := true } } := by
  have hall := (attempt_ok_iff_forall (StartCall.run_zero e) addressCalls s).mp hok
  rw [attempt_state hok]
  simp only [addressCalls, List.foldl_cons, List.foldl_nil, StartCall.run,
    hall .streamWait (by decide) rfl, hall .streamSend (by decide) rfl,
    hall .waitReady (by decide) rfl, if_true]
  rfl

/-- a thread that could not be created is joined -/
theorem threads_fail (h : s.Quiet e) (b : Bool)
    (hok : (attempt (StartCall.run e) StartCall.tested startThreads
      { s with session := { s.session with tun := b } }).ok = false) :
    ¬ (vpnEngineCleanup (attempt (StartCall.run e) StartCall.tested startThreads
      { s with session := { s.session with tun := b } }).state).Balanced := by
  rw [cleanup_balanced_iff]
  generalize hu : (attempt (StartCall.run e) StartCall.tested startThreads
    { s with session := { s.session with tun := b } }).state = u
  intro hb
  cases h1 : e.answers .createSend with
  | false =>
    have hu' : u = { s with session := { s.session with tun := b, runningPktDataSend := true } } := by
      simp [← hu, startThreads, attempt, StartCall.run, StartCall.tested, StartCall.before, h1]
    rw [hu'] at hb
    exact h.noSend ((hb .threadSend).mp rfl)
  | true =>
    cases h2 : e.answers .createRecv with
    | false =>
      have hu' : u = ⟨{ s.session with
          tun := b, runningPktDataSend := true, runningPktDataRecv := true },
          .threadSend :: s.acquired, s.released⟩ := by
        simp [← hu, startThreads, attempt, StartCall.run, StartCall.tested, StartCall.before,
          StartCall.done, StartCall.res, h1, h2]
      rw [hu'] at hb
      have hm := (hb .threadRecv).mp rfl
      exact h.noRecv (List.mem_of_ne_of_mem StartRes.noConfusion hm)
    | true =>
      rw [Bool.eq_false_iff] at hok
      refine absurd ((attempt_ok_iff_forall (StartCall.run_zero e) _ _).mpr ?_) hok
      intro c hc _
      simp only [startThreads, List.mem_cons, List.not_mem_nil, or_false] at hc
      rcases hc with rfl | rfl
      · exact h1
      · exact h2

/-! ## the main result -/

/-- the calls behind `session_create`, cut at the start of the stream and in front of the threads -/
theorem startCalls_eq : detectDefaultWan ++ setupMsquic ++ requestVirtip ++ startThreads =
    (detectDefaultWan ++ connectCalls) ++ (addressCalls ++ startThreads) := rfl

/-- behind a `session_create` that succeeds -/
theorem rest_balanced_iff (h : s.Quiet e)
    (hok : (attempt (StartCall.run e) StartCall.tested
      (detectDefaultWan ++ setupMsquic ++ requestVirtip ++ startThreads) s).ok = false) :
    (vpnEngineCleanup (attempt (StartCall.run e) StartCall.tested
      (detectDefaultWan ++ setupMsquic ++ requestVirtip ++ startThreads) s).state).Balanced ↔
      e.answers .eventfd = false ∧ e.stored = true ∧
      (∀ c ∈ detectDefaultWan ++ connectCalls, c.tested = true → e.answers c = true) ∧
      ∃ c ∈ addressCalls, e.answers c = false := by
  rw [startCalls_eq] at hok ⊢
  have hpre : (attempt (StartCall.run e) StartCall.tested (detectDefaultWan ++ connectCalls)
      s).state.Quiet e :=
    attempt_inv (I := Starting.Quiet e) (fun c hc s hi => hi.run hc) h
  have hpre_iff : (attempt (StartCall.run e) StartCall.tested (detectDefaultWan ++ connectCalls)
      s).ok = true ↔ ∀ c ∈ detectDefaultWan ++ connectCalls, c.tested = true → e.answers c = true :=
    attempt_ok_iff_forall (StartCall.run_zero e) _ s
  cases h1 : (attempt (StartCall.run e) StartCall.tested (detectDefaultWan ++ connectCalls) s).ok with
  | false =>
    -- there is no device yet, so `tun_state` is not destroyed
    rw [attempt_append_fail h1, hpre.ready.balanced_iff, hpre.tun]
    refine iff_of_false (fun hb => Bool.false_ne_true hb.2.2.2) fun hc => ?_
    exact absurd (hpre_iff.mpr hc.2.2.1) (Bool.eq_false_iff.mp h1)
  | true =>
    generalize hs1 : (attempt (StartCall.run e) StartCall.tested (detectDefaultWan ++ connectCalls)
      s).state = s1 at hpre
    have haddr_iff : (attempt (StartCall.run e) StartCall.tested addressCalls s1).ok = true ↔
        ∀ c ∈ addressCalls, c.tested = true → e.answers c = true :=
      attempt_ok_iff_forall (StartCall.run_zero e) _ s1
    rw [attempt_append h1, hs1] at hok ⊢
    cases h2 : (attempt (StartCall.run e) StartCall.tested addressCalls s1).ok with
    | false =>
      have hsome : ∃ c ∈ addressCalls, e.answers c = false := by
        by_contra hn
        refine Bool.eq_false_iff.mp h2 (haddr_iff.mpr fun c hc _ => ?_)
        by_contra hne
        exact hn ⟨c, hc, Bool.not_eq_true _ ▸ hne⟩
      rw [attempt_append_fail h2, address_fail h2, (hpre.withTun e.stored).balanced_iff]
      have hs : s1.session.runningPktDataSend ≠ true := Bool.eq_false_iff.mp hpre.send
      have hr : s1.session.runningPktDataRecv ≠ true := Bool.eq_false_iff.mp hpre.recv
      constructor
      · rintro ⟨-, hfd, -, ht⟩
        exact ⟨Bool.eq_false_iff.mpr (hfd.not.mp hs), ht, hpre_iff.mp h1, hsome⟩
      · rintro ⟨hfd, ht, -, -⟩
        exact ⟨iff_of_false hs hpre.noSend, iff_of_false hs (Bool.eq_false_iff.mp hfd),
          iff_of_false hr hpre.noRecv, ht⟩
    | true =>
      have ht : ∀ c ∈ addressCalls, c.tested = true := by decide
      rw [attempt_append h2, address_ok h2] at hok ⊢
      refine iff_of_false (threads_fail hpre true hok) ?_
      rintro ⟨-, -, -, c, hc, hf⟩
      exact Bool.false_ne_true (hf.symm.trans (haddr_iff.mp h2 c hc (ht c hc)))

end

/-- **A failed start.**  When `vpn_engine_start` fails, everything it acquired is released exactly once
and nothing else is released, if and only if there was no session at all, or the `eventfd` could not be
created and the start failed after the stream callback had stored a device and before the threads. -/
theorem start_balanced_iff (e : StartEnv) (hf : (vpnEngineStart e).1 = false) :
    (vpnEngineStart e).2.Balanced ↔ e.Clean := by
  unfold vpnEngineStart sessionCreate at hf ⊢
  cases ha : e.alloc with
  | false =>
    simp only [Bool.false_eq_true, if_false]
    exact iff_of_true (fun r => rfl) (.inl ha)
  | true =>
    have hclean : e.Clean ↔ e.answers .eventfd = false ∧ e.stored = true ∧
        (∀ c ∈ createCalls ++ detectDefaultWan ++ connectCalls, c.tested = true →
          e.answers c = true) ∧ ∃ c ∈ addressCalls, e.answers c = false :=
      or_iff_right (Bool.eq_false_iff.not.mpr (not_not.mpr ha))
    have hcreate : (attempt (StartCall.run e) StartCall.tested createCalls Starting.init).ok = true ↔
        ∀ c ∈ createCalls, c.tested = true → e.answers c = true :=
      attempt_ok_iff_forall (StartCall.run_zero e) _ _
    rw [hclean]
    simp only [ha, if_true] at hf ⊢
    cases hok : (attempt (StartCall.run e) StartCall.tested createCalls Starting.init).ok with
    | false =>
      simp only [Bool.false_eq_true, if_false]
      refine iff_of_false (createErr_not_balanced ?_) ?_
      · have h0 : .session ∈ Starting.init.acquired := List.mem_cons_self
        exact attempt_inv (I := fun s : Starting => .session ∈ s.acquired)
          (fun c _ s hs => StartCall.run_acquired c hs) h0
      · rintro ⟨-, -, hall, -⟩
        refine absurd (hcreate.mpr fun c hc => hall c ?_) (Bool.eq_false_iff.mp hok)
        exact List.mem_append_left _ (List.mem_append_left _ hc)
    | true =>
      simp only [hok, if_true] at hf ⊢
      have hq := create_quiet hok
      have hall := hcreate.mp hok
      generalize (attempt (StartCall.run e) StartCall.tested createCalls Starting.init).state = s1
        at hf hq ⊢
      cases hrest : (attempt (StartCall.run e) StartCall.tested
          (detectDefaultWan ++ setupMsquic ++ requestVirtip ++ startThreads) s1).ok with
      | true =>
        rw [hrest, if_pos rfl] at hf
        cases hf
      | false =>
        rw [if_neg Bool.false_ne_true, rest_balanced_iff hq hrest]
        refine and_congr_right fun _ => and_congr_right fun _ => and_congr_left fun _ => ?_
        constructor
        · intro h c hc
          rw [List.append_assoc] at hc
          exact (List.mem_append.mp hc).elim (hall c) (h c)
        · intro h c hc
          refine h c ?_
          rw [List.append_assoc]
          exact List.mem_append_right _ hc

/-- no answer comes in time, but the callback stores its device before the cleanup looks; `eventfd` has
failed -/
def lateAnswer : StartEnv := ⟨true, fun c => c != .eventfd && c != .waitReady, true⟩

theorem start_balanced_iff_lateAnswer :
    (vpnEngineStart lateAnswer).1 = false ∧ lateAnswer.Clean ∧
      .msQuic ∈ (vpnEngineStart lateAnswer).2.released ∧
      (vpnEngineStart lateAnswer).2.Balanced := by
  have hC : lateAnswer.Clean := .inr ⟨rfl, rfl, by decide, .waitReady, by decide, rfl⟩
  exact ⟨by decide, hC, by decide, (start_balanced_iff lateAnswer (by decide)).mpr hC⟩

/-- a start in which only the call `c` fails -/
def failsAt (c : StartCall) : StartEnv := ⟨true, fun d => d != c, false⟩

/-- the host name does not resolve: the record is lost, and three `state_sync_t` that were never
initialised are destroyed.  There is no WAN interface: `tun_state` and `shutdown_fd` are lost.  The
second thread cannot be created: it is joined -/
theorem start_not_balanced :
    ((vpnEngineStart (failsAt .resolveHostname)).1 = false ∧
      (vpnEngineStart (failsAt .resolveHostname)).2.acquired = [.session] ∧
      (vpnEngineStart (failsAt .resolveHostname)).2.released = [.tunState, .conState, .streamState] ∧
      ¬ (vpnEngineStart (failsAt .resolveHostname)).2.Balanced) ∧
    ((vpnEngineStart (failsAt .routeInfo)).1 = false ∧
      .tunState ∈ (vpnEngineStart (failsAt .routeInfo)).2.acquired ∧
      .tunState ∉ (vpnEngineStart (failsAt .routeInfo)).2.released ∧
      .shutdownFd ∈ (vpnEngineStart (failsAt .routeInfo)).2.acquired ∧
      .shutdownFd ∉ (vpnEngineStart (failsAt .routeInfo)).2.released ∧
      ¬ (vpnEngineStart (failsAt .routeInfo)).2.Balanced) ∧
    ((vpnEngineStart (failsAt .createRecv)).1 = false ∧
      .threadRecv ∉ (vpnEngineStart (failsAt .createRecv)).2.acquired ∧
      .threadRecv ∈ (vpnEngineStart (failsAt .createRecv)).2.released ∧
      ¬ (vpnEngineStart (failsAt .createRecv)).2.Balanced) := by
  refine ⟨⟨by decide, by decide, by decide, fun h => ?_⟩, ⟨by decide, by decide, by decide, by decide,
    by decide, fun h => ?_⟩, ⟨by decide, by decide, by decide, fun h => ?_⟩⟩
  · exact absurd (h .session) (by decide)
  · exact absurd (h .tunState) (by decide)
  · exact absurd (h .threadRecv) (by decide)

end QuicVpn
