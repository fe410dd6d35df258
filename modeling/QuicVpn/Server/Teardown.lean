import QuicVpn.Packet.Buffers
import QuicVpn.Server.Conn
import QuicVpn.Server.Ctrl

/-!
# The end of the server (`vpn_engine_cleanup` of the server)

`vpn_engine_cleanup` stops the two threads, takes the TUN device down, destroys the six objects of
the session one after another and leaves the process with `exit(0)`; the call of `MsQuicShutdown`
stands after that.  MsQuic delivers its events all the while.

* `Teardown.step`       the cleanup, next to the connection handlers of `Server/Conn.lean`, the
                        threads and the datagram events of `Packet/Buffers.lean`, and RECEIVE on
                        the streams;
* `Teardown.touches`    the objects that the next section of a callback works on;
* `Teardown.mayUse`     the objects that the handlers in progress on a connection may yet work on;
* `Teardown.Intact`     no callback has worked on a destroyed object;
* `Teardown.Drained`    an object is destroyed only when no handler may use it, and an event comes
                        only as long as the objects that its handler may use are there;
* `intact_of_drained`   then no run has a use after the teardown.
-/

set_option linter.unusedSectionVars false

namespace QuicVpn
open Conc

/-- the objects of the session that the callbacks work on and the cleanup destroys -/
inductive SharedObj where
  | poolPktDataRecv
  | poolPktDataSend
  | queuePktDataRecv
  | ipPool
  | clientPool
  | clientList
  deriving DecidableEq, Repr

/-- where `vpn_engine_cleanup` is: each point is named after what is next -/
inductive CleanupPt where
  | notCalled
  | freeWan
  | stopSend
  | joinSend
  | stopRecv
  | joinRecv
  | tun
  | poolPktDataRecv
  | poolPktDataSend
  | queuePktDataRecv
  | ipPool
  | clientPool
  | clientListLock
  | clientList
  | exit
  | exited
  deriving DecidableEq, Repr

def CleanupPt.next : CleanupPt → CleanupPt
  | .notCalled => .freeWan
  | .freeWan => .stopSend
  | .stopSend => .joinSend
  | .joinSend => .stopRecv
  | .stopRecv => .joinRecv
  | .joinRecv => .tun
  | .tun => .poolPktDataRecv
  | .poolPktDataRecv => .poolPktDataSend
  | .poolPktDataSend => .queuePktDataRecv
  | .queuePktDataRecv => .ipPool
  | .ipPool => .clientPool
  | .clientPool => .clientListLock
  | .clientListLock => .clientList
  | .clientList => .exit
  | .exit => .exited
  | .exited => .exited

/-- what the call at this point destroys -/
def CleanupPt.destroys : CleanupPt → Option SharedObj
  | .poolPktDataRecv => some .poolPktDataRecv
  | .poolPktDataSend => some .poolPktDataSend
  | .queuePktDataRecv => some .queuePktDataRecv
  | .ipPool => some .ipPool
  | .clientPool => some .clientPool
  | .clientList => some .clientList
  | _ => none

/-- where the handler of RECEIVE is: the frames it has still to process, after the search for the
client of a CONFIG_REQ or not -/
inductive StreamPt where
  | idle
  | frames (l : List PktCtrl)
  | entry (client : Blk) (l : List PktCtrl)

def StreamPt.isIdle : StreamPt → Bool
  | .idle => true
  | _ => false

/-- `started` says whether the two threads run, and `fault` is the destroyed object a callback has
worked on; what happens after that is undefined -/
structure Teardown (K : Type) where
  pt : CleanupPt
  started : Bool
  destroyed : List SharedObj
  server : Server K
  buffers : Buffers K
  stream : K → StreamPt
  fault : Option SharedObj

inductive TeardownAct (K : Type) where
  | cleanup
  | conn (a : ConnAct K)
  | buf (a : BufAct K)
  | receive (k : K) (l : List PktCtrl)
  | stream (k : K)

instance (raw : PktCtrl) : Decidable (IsConfigReq raw) := inferInstanceAs (Decidable (_ ∧ _))

section
variable {K : Type} [DecidableEq K]

/-- no datagram event and no RECEIVE is in progress on the connection -/
def Teardown.between (s : Teardown K) (k : K) : Bool :=
  decide (s.buffers.callback k = .idle) && (s.stream k).isIdle

/-- MsQuic delivers the events of one connection one after another, and the threads run once they
have been created -/
def Teardown.connFree (s : Teardown K) : ConnAct K → Bool
  | .connected k | .shutdownComplete k => s.between k
  | _ => true

def Teardown.bufFree (s : Teardown K) : BufAct K → Bool
  | .sender _ | .receiver _ => s.started
  | .callback k (.received _) => (s.server.ph k).up && s.between k
  | _ => true

/-- the next call of `vpn_engine_cleanup` -/
def Teardown.advance (s : Teardown K) : Teardown K :=
  { s with pt := s.pt.next, destroyed := s.pt.destroys.toList ++ s.destroyed }

/-- the next section of the handler of RECEIVE on the stream of `k` -/
def Teardown.runStream (s : Teardown K) (k : K) : Option StreamPt :=
  match s.stream k, s.server.ph k with
  | .frames [], _ => some .idle
  | .frames (raw :: l), .live b _ =>
    if IsConfigReq raw then
      match listFindClientByUid s.server.session (s.server.session.mem b).uid with
      | some client => some (.entry client l)
      | none => some (.frames l)
    else some (.frames l)
  | .entry client l, _ =>
    -- `client->ip_entry->ip`
    if (s.server.session.mem client).ipEntry.isSome then some (.frames l) else none
  | _, _ => none

def Teardown.go (s : Teardown K) : TeardownAct K → Option (Teardown K)
  | .cleanup =>
    match s.pt with
    | .joinSend =>
      if s.started = false ∨ s.buffers.sender = .joined then some s.advance else none
    | .joinRecv =>
      if s.started = false ∨ s.buffers.receiver = .joined then some s.advance else none
    | _ => some s.advance
  | .conn a =>
    if s.connFree a then (s.server.step a).map fun t => { s with server := t } else none
  | .buf a =>
    if s.bufFree a then (s.buffers.step .server a).map fun t => { s with buffers := t } else none
  | .receive k l =>
    if (s.server.ph k).up = true ∧ s.between k = true then
      some { s with stream := Function.update s.stream k (.frames l) }
    else none
  | .stream k => (s.runStream k).map fun q => { s with stream := Function.update s.stream k q }

/-! ## what a section works on -/

/-- the object that a pool of packet buffers is -/
def PoolId.obj : PoolId → SharedObj
  | .send => .poolPktDataSend
  | .recv => .poolPktDataRecv

/-- the next section of a connection handler; after `pool_put` the record is the pool's -/
def Phase.touches (mem : Blk → Client K) : Phase → List SharedObj
  | .slot _ | .allocated _ _ => [.clientPool]
  | .filling _ _ => [.clientList]
  | .removing b _ => if (mem b).slotIdx < 0 then [] else [.ipPool]
  | .unlisting _ _ => [.clientList]
  | .putting _ _ => [.clientPool]
  | .removed _ .shutdown => [.clientPool]
  | .closing _ => [.clientPool]
  | _ => []

def Server.touches (s : Server K) : ConnAct K → List SharedObj
  | .newConnection _ =>
    if s.session.ipPool.maxClients = 0 then [.ipPool] else [.ipPool, .clientList]
  -- `pool_try_get` reads `p->block_size` after it has dropped the lock
  | .alloc _ _ => [.clientPool]
  | .connected _ => [.ipPool]
  | .shutdownComplete k =>
    match s.ph k with
    | .live b _ => if (s.session.mem b).ipEntry.isSome then [.ipPool] else []
    | _ => []
  | .run k => (s.ph k).touches s.session.mem
  | _ => []

/-- a section of a datagram event; `pool_put` finds the pool in the header of the block -/
def Buffers.touches (s : Buffers K) : BufAct K → List SharedObj
  | .callback _ (.received false) => [.poolPktDataRecv]
  | .callback _ (.alloc _) => [.poolPktDataRecv]
  | .callback _ .done => [.poolPktDataRecv]
  | .callback _ (.push _) => [.queuePktDataRecv]
  | .stateChanged b .sent | .stateChanged b .canceled => [(s.home b).obj]
  | _ => []

/-- a section of RECEIVE -/
def Teardown.streamTouches (s : Teardown K) (k : K) : List SharedObj :=
  match s.stream k, s.server.ph k with
  | .frames (raw :: _), .live b _ =>
    if IsConfigReq raw ∧ (s.server.session.mem b).uid ≠ 0 then [.ipPool, .clientList] else []
  | .entry _ _, _ => [.ipPool]
  | _, _ => []

def Teardown.touches (s : Teardown K) : TeardownAct K → List SharedObj
  | .conn a => s.server.touches a
  | .buf a => s.buffers.touches a
  | .stream k => s.streamTouches k
  | _ => []

/-- one step, as long as the process is there; the first destroyed object among those the section
works on is noted -/
def Teardown.step (s : Teardown K) (a : TeardownAct K) : Option (Teardown K) :=
  if s.fault = none ∧ s.pt ≠ .exited then
    (s.go a).map fun t =>
      match (s.touches a).find? fun o => decide (o ∈ s.destroyed) with
      | some o => { s with fault := some o }
      | none => t
  else none

/-- `setup_msquic` has returned, and the threads are started or not; nothing has happened yet -/
def Teardown.init (session : Session K) (pool : PoolId → Pool) (home : Blk → PoolId)
    (started : Bool) : Teardown K :=
  ⟨.notCalled, started, [], Server.init session, Buffers.init pool home, fun _ => .idle, none⟩

/-- no callback has worked on a destroyed object -/
def Teardown.Intact (s : Teardown K) : Prop := s.fault = none

/-! ## what a handler may yet work on -/

/-- the objects of the connection handlers, in the order in which `list_remove_client` comes to
them -/
def connObjs : List SharedObj := [.ipPool, .clientList, .clientPool]

/-- how many of `connObjs` the handlers of the connection are done with -/
def Phase.past : Phase → ℕ
  | .slot _ | .reserved _ | .allocated _ _ | .filling _ _ | .configuring _ => 0
  | .removing _ _ => 0
  | .unlisting _ _ => 1
  | .putting _ _ => 2
  | .removed _ .shutdown => 2
  | .closing _ => 2
  | _ => 3

/-- the objects of DATAGRAM_RECEIVED, in its order -/
def dataObjs : List SharedObj := [.poolPktDataRecv, .queuePktDataRecv]

def CbPt.past : CbPt → ℕ
  | .reserved | .allocated _ => 0
  | .copy _ | .push _ => 1
  | .idle => 2

/-- the objects that the search for the client of a CONFIG_REQ works on -/
def reqObjs (l : List PktCtrl) : List SharedObj :=
  if ∃ raw ∈ l, IsConfigReq raw then [.ipPool, .clientList] else []

def StreamPt.mayUse : StreamPt → List SharedObj
  | .idle => []
  | .frames l => reqObjs l
  | .entry _ l => .ipPool :: reqObjs l

/-- what the handlers in progress on the connection may yet work on -/
def Teardown.mayUse (s : Teardown K) (k : K) : List SharedObj :=
  connObjs.drop (s.server.ph k).past ++ dataObjs.drop (s.buffers.callback k).past ++
    (s.stream k).mayUse

/-- what the handler of the event may work on, if the label is one -/
def ConnAct.asks : ConnAct K → List SharedObj
  | .newConnection _ | .shutdownComplete _ => connObjs
  | .connected _ => [.ipPool]
  | _ => []

def Buffers.asks (s : Buffers K) : BufAct K → List SharedObj
  | .callback _ (.received false) => dataObjs
  | .stateChanged b e => s.touches (.stateChanged b e)
  | _ => []

def Teardown.asks (s : Teardown K) : TeardownAct K → List SharedObj
  | .conn a => a.asks
  | .buf a => s.buffers.asks a
  | .receive _ l => reqObjs l
  | _ => []

/-- an object is destroyed when no handler may use it any more, and an event is delivered when the
objects its handler may use have not been destroyed -/
def Teardown.Drained (s : Teardown K) : TeardownAct K → Prop
  | .cleanup => ∀ o ∈ s.pt.destroys, ∀ k, o ∉ s.mayUse k
  | a => ∀ o ∈ s.asks a, o ∉ s.destroyed

instance [Fintype K] (s : Teardown K) (a : TeardownAct K) : Decidable (s.Drained a) :=
  match a with
  | .cleanup => inferInstanceAs (Decidable (∀ o ∈ s.pt.destroys, ∀ k, o ∉ s.mayUse k))
  | .conn a => inferInstanceAs (Decidable (∀ o ∈ s.asks (.conn a), o ∉ s.destroyed))
  | .buf a => inferInstanceAs (Decidable (∀ o ∈ s.asks (.buf a), o ∉ s.destroyed))
  | .receive k l => inferInstanceAs (Decidable (∀ o ∈ s.asks (.receive k l), o ∉ s.destroyed))
  | .stream k => inferInstanceAs (Decidable (∀ o ∈ s.asks (.stream k), o ∉ s.destroyed))

/-! ## connection handlers -/

/-- a section works on what is yet to come -/
theorem Phase.touches_past (mem : Blk → Client K) (q : Phase) :
    q.touches mem ⊆ connObjs.drop q.past := by
  have hp : [SharedObj.clientPool] ⊆ connObjs := by decide
  have hl : [SharedObj.clientList] ⊆ connObjs := by decide
  cases q with
  | slot _ | allocated _ _ => exact hp
  | filling _ _ => exact hl
  | removing b why =>
    simp only [Phase.touches]
    split
    · exact List.nil_subset _
    · exact List.cons_subset.mpr ⟨List.mem_cons_self, List.nil_subset _⟩
  | unlisting _ _ => exact List.cons_subset.mpr ⟨List.mem_cons_self, List.nil_subset _⟩
  | putting _ _ | closing _ => exact List.Subset.refl _
  | removed b why =>
    cases why with
    | shutdown => exact List.Subset.refl _
    | config => exact List.nil_subset _
  | _ => exact List.nil_subset _

theorem Server.touches_used {s t : Server K} {a : ConnAct K} {o : SharedObj}
    (h : s.step a = some t) (ho : o ∈ s.touches a) :
    o ∈ a.asks ∨ ∃ k, o ∈ connObjs.drop (s.ph k).past := by
  cases a with
  | newConnection k =>
    refine Or.inl ?_
    simp only [Server.touches] at ho
    split at ho
    · exact List.mem_of_mem_take (i := 1) ho
    · exact List.mem_of_mem_take (i := 2) ho
  | connected k => exact Or.inl ho
  | shutdownComplete k =>
    refine Or.inl ?_
    simp only [Server.touches] at ho
    split at ho
    case h_2 => exact absurd ho List.not_mem_nil
    split at ho
    · exact List.mem_of_mem_take (i := 1) ho
    · exact absurd ho List.not_mem_nil
  | run k => exact Or.inr ⟨k, Phase.touches_past _ _ ho⟩
  | alloc k r =>
    have hp : [SharedObj.clientPool] ⊆ connObjs := by decide
    cases Server.step_move h with
    | alloc hk hr =>
      refine Or.inr ⟨k, ?_⟩
      rw [hk]
      exact hp ho
  | configured k ok => exact absurd ho List.not_mem_nil

theorem Server.past_update {s : Server K} {k : K} {q0 q : Phase} (hk : s.ph k = q0)
    (hq : q0.past ≤ q.past) (u : K) : (s.ph u).past ≤ (Function.update s.ph k q u).past := by
  by_cases hu : u = k
  · rw [hu, Function.update_self, hk]
    exact hq
  · rw [Function.update_of_ne hu]

/-- only an event gives a connection something to work on -/
theorem Server.step_past {s t : Server K} {a : ConnAct K} (h : s.step a = some t) :
    a.asks = connObjs ∨ ∀ u, (s.ph u).past ≤ (t.ph u).past := by
  cases Server.step_move h with
  | noSlot hk hslot | offer hk hslot => exact Or.inl rfl
  | shutdown hk => exact Or.inl rfl
  | outOfRange hk ht => exact Or.inr (Server.past_update hk (Nat.zero_le _))
  | @put k b why _ hk ht =>
    refine Or.inr (Server.past_update hk ?_)
    cases why with
    | config => exact Nat.le_succ 2
    | shutdown => exact Nat.le_refl 2
  | alloc hk _ | block hk _ | full hk _ | reserve hk _ | clear hk _ | unlist hk _ =>
    exact Or.inr (Server.past_update hk (Nat.le_of_ble_eq_true rfl))
  | configured hk | configFailed hk | connected hk | allocDone hk | allocFailed hk
  | fill hk | noEntry hk | entry hk | assign hk | clearHandle hk | close hk | closeConfig hk | fail hk =>
    exact Or.inr (Server.past_update hk (Nat.le_of_ble_eq_true rfl))

/-! ## datagram events -/

theorem Buffers.sendStep_callback {side : Side} {s t : Buffers K} {a : SendAct}
    (h : s.sendStep side a = some t) : t.callback = s.callback := by
  cases a with
  | get =>
    simp only [Buffers.sendStep, Option.ite_none_right_eq_some] at h
    obtain ⟨-, h⟩ := h
    split at h <;> exact Option.some.inj h ▸ rfl
  | alloc r =>
    simp only [Buffers.sendStep, Option.ite_none_right_eq_some] at h
    exact Option.some.inj h.2 ▸ rfl
  | done =>
    simp only [Buffers.sendStep] at h
    split at h
    case h_3 => exact absurd h (Option.some_ne_none t).symm
    all_goals exact Option.some.inj h ▸ rfl
  | next ok =>
    simp only [Buffers.sendStep] at h
    split at h
    · exact Option.some.inj h ▸ rfl
    · exact absurd h (Option.some_ne_none t).symm
  | datagramSend ok =>
    simp only [Buffers.sendStep] at h
    split at h
    case h_2 => exact absurd h (Option.some_ne_none t).symm
    split at h <;> exact Option.some.inj h ▸ rfl
  | put =>
    simp only [Buffers.sendStep] at h
    split at h
    case h_3 => exact absurd h (Option.some_ne_none t).symm
    all_goals exact Option.some.inj h ▸ rfl
  | stop =>
    simp only [Buffers.sendStep, Option.ite_none_right_eq_some] at h
    exact Option.some.inj h.2 ▸ rfl

theorem Buffers.recvStep_callback {s t : Buffers K} {a : RecvAct} (h : s.recvStep a = some t) :
    t.callback = s.callback := by
  cases a with
  | pop =>
    simp only [Buffers.recvStep] at h
    split at h
    · exact Option.some.inj h ▸ rfl
    · exact absurd h (Option.some_ne_none t).symm
  | popNull =>
    simp only [Buffers.recvStep, Option.ite_none_right_eq_some] at h
    exact Option.some.inj h.2 ▸ rfl
  | next ok =>
    simp only [Buffers.recvStep] at h
    split at h
    case h_3 => exact absurd h (Option.some_ne_none t).symm
    all_goals exact Option.some.inj h ▸ rfl
  | put =>
    simp only [Buffers.recvStep] at h
    split at h
    · exact Option.some.inj h ▸ rfl
    · exact absurd h (Option.some_ne_none t).symm

theorem Buffers.stateChanged_callback {s t : Buffers K} {b : Blk} {e : SendState}
    (h : s.stateChanged b e = some t) : t.callback = s.callback := by
  unfold Buffers.stateChanged at h
  split at h <;> rw [Option.ite_none_right_eq_some] at h <;> exact Option.some.inj h.2 ▸ rfl

/-- what a section of DATAGRAM_RECEIVED does to its own point -/
inductive Buffers.CbMove (s : Buffers K) (k : K) : CbAct → CbPt → Prop where
  | received {empty : Bool} (q : CbPt) (hk : s.callback k = .idle) (hq : empty = true → q = .idle) :
    CbMove s k (.received empty) q
  | alloc {r : Option Blk} (hk : s.callback k = .reserved) : CbMove s k (.alloc r) (.allocated r)
  | done {r : Option Blk} (q : CbPt) (hk : s.callback k = .allocated r) : CbMove s k .done q
  | copy {b : Blk} (hk : s.callback k = .copy b) : CbMove s k .copy (.push b)
  | push {ok : Bool} {b : Blk} (hk : s.callback k = .push b) : CbMove s k (.push ok) .idle

theorem Buffers.callbackStep_move {s t : Buffers K} {k : K} {a : CbAct}
    (h : s.callbackStep k a = some t) :
    ∃ q, s.CbMove k a q ∧ t.callback = Function.update s.callback k q := by
  cases a with
  | received empty =>
    simp only [Buffers.callbackStep, Option.ite_none_right_eq_some] at h
    obtain ⟨hk, h⟩ := h
    have hsame : s.callback = Function.update s.callback k .idle := by
      rw [← hk, Function.update_eq_self]
    split at h
    · exact ⟨.idle, .received _ hk fun _ => rfl, Option.some.inj h ▸ hsame⟩
    · next he =>
      split at h <;> obtain rfl := Option.some.inj h
      · exact ⟨_, .received _ hk fun e => absurd e he, rfl⟩
      · exact ⟨.idle, .received _ hk fun _ => rfl, hsame⟩
      · exact ⟨_, .received _ hk fun e => absurd e he, rfl⟩
  | alloc r =>
    simp only [Buffers.callbackStep, Option.ite_none_right_eq_some] at h
    obtain rfl := Option.some.inj h.2
    exact ⟨_, .alloc h.1.1, rfl⟩
  | done =>
    simp only [Buffers.callbackStep] at h
    split at h
    case h_3 => exact absurd h (Option.some_ne_none t).symm
    all_goals
      next hk =>
        obtain rfl := Option.some.inj h
        exact ⟨_, .done _ hk, rfl⟩
  | copy =>
    simp only [Buffers.callbackStep] at h
    split at h
    · next hk =>
      obtain rfl := Option.some.inj h
      exact ⟨_, .copy hk, rfl⟩
    · exact absurd h (Option.some_ne_none t).symm
  | push ok =>
    simp only [Buffers.callbackStep] at h
    split at h
    case h_2 => exact absurd h (Option.some_ne_none t).symm
    next hk =>
      split at h <;> obtain rfl := Option.some.inj h
      · exact ⟨_, .push hk, rfl⟩
      · exact ⟨_, .push hk, rfl⟩

theorem Buffers.CbMove.past {s : Buffers K} {k : K} {a : CbAct} {q : CbPt} (h : s.CbMove k a q) :
    a = .received false ∨ (s.callback k).past ≤ q.past := by
  cases h with
  | @received empty _ hk hq =>
    cases empty with
    | false => exact Or.inl rfl
    | true =>
      rw [hk, hq rfl]
      exact Or.inr (Nat.le_refl _)
  | alloc hk =>
    rw [hk]
    exact Or.inr (Nat.le_refl _)
  | done _ hk =>
    rw [hk]
    exact Or.inr (Nat.zero_le _)
  | copy hk =>
    rw [hk]
    exact Or.inr (Nat.le_refl _)
  | push hk =>
    rw [hk]
    exact Or.inr (Nat.le_succ 1)

theorem Buffers.step_past {side : Side} {s t : Buffers K} {a : BufAct K}
    (h : s.step side a = some t) :
    s.asks a = dataObjs ∨ ∀ u, (s.callback u).past ≤ (t.callback u).past := by
  have same (e : t.callback = s.callback) (u : K) :
      (s.callback u).past ≤ (t.callback u).past := by rw [e]
  cases a with
  | sender a => exact Or.inr (same (Buffers.sendStep_callback h))
  | receiver a => exact Or.inr (same (Buffers.recvStep_callback h))
  | stateChanged b e => exact Or.inr (same (Buffers.stateChanged_callback h))
  | callback k a =>
    obtain ⟨q, hm, e⟩ := Buffers.callbackStep_move h
    rcases hm.past with rfl | hp
    · exact Or.inl rfl
    · refine Or.inr fun u => ?_
      rw [e]
      by_cases hu : u = k
      · rw [hu, Function.update_self]
        exact hp
      · rw [Function.update_of_ne hu]

theorem Buffers.touches_used {side : Side} {s t : Buffers K} {a : BufAct K} {o : SharedObj}
    (h : s.step side a = some t) (ho : o ∈ s.touches a) :
    o ∈ s.asks a ∨ ∃ k, o ∈ dataObjs.drop (s.callback k).past := by
  cases a with
  | sender a => exact absurd ho List.not_mem_nil
  | receiver a => exact absurd ho List.not_mem_nil
  | stateChanged b e => exact Or.inl ho
  | callback k a =>
    obtain ⟨q, hm, -⟩ := Buffers.callbackStep_move h
    cases hm with
    | @received empty _ hk hq =>
      cases empty with
      | true => exact absurd ho List.not_mem_nil
      | false => exact Or.inl (List.mem_of_mem_take (i := 1) ho)
    | done _ hk =>
      refine Or.inr ⟨k, ?_⟩
      rw [hk]
      exact List.mem_of_mem_take (i := 1) ho
    | push hk =>
      refine Or.inr ⟨k, ?_⟩
      rw [hk]
      exact ho
    | alloc hk =>
      refine Or.inr ⟨k, ?_⟩
      rw [hk]
      exact List.mem_of_mem_take (i := 1) ho
    | copy hk => exact absurd ho List.not_mem_nil

/-! ## RECEIVE -/

theorem reqObjs_of_req {raw : PktCtrl} (h : IsConfigReq raw) (l : List PktCtrl) :
    reqObjs (raw :: l) = [.ipPool, .clientList] := if_pos ⟨raw, List.mem_cons_self, h⟩

theorem reqObjs_tail (raw : PktCtrl) (l : List PktCtrl) : reqObjs l ⊆ reqObjs (raw :: l) := by
  by_cases h : ∃ raw ∈ l, IsConfigReq raw
  · obtain ⟨r, hr, hreq⟩ := h
    rw [reqObjs, reqObjs, if_pos ⟨r, hr, hreq⟩, if_pos ⟨r, List.mem_cons_of_mem raw hr, hreq⟩]
    exact List.Subset.refl _
  · rw [reqObjs, if_neg h]
    exact List.nil_subset _

theorem Teardown.streamTouches_used (s : Teardown K) (k : K) :
    s.streamTouches k ⊆ (s.stream k).mayUse := by
  unfold Teardown.streamTouches
  split
  · next raw l _ _ hs _ =>
    rw [hs]
    split
    · next hreq =>
      rw [StreamPt.mayUse, reqObjs_of_req hreq.1]
      exact List.Subset.refl _
    · exact List.nil_subset _
  · next hs =>
    rw [hs]
    exact List.cons_subset_cons _ (List.nil_subset _)
  · exact List.nil_subset _

theorem Teardown.runStream_mayUse {s : Teardown K} {k : K} {q : StreamPt}
    (h : s.runStream k = some q) : q.mayUse ⊆ (s.stream k).mayUse := by
  unfold Teardown.runStream at h
  split at h
  · exact Option.some.inj h ▸ List.nil_subset _
  · next raw l b _ hs _ =>
    rw [hs]
    split at h
    · next hreq =>
      split at h <;> obtain rfl := Option.some.inj h
      · -- the entry of the client that was found, then the rest
        show SharedObj.ipPool :: reqObjs l ⊆ reqObjs (raw :: l)
        refine List.cons_subset.mpr ⟨?_, reqObjs_tail raw l⟩
        rw [reqObjs_of_req hreq]
        exact List.mem_cons_self
      · exact reqObjs_tail raw l
    · obtain rfl := Option.some.inj h
      exact reqObjs_tail raw l
  · next c l hs =>
    rw [hs]
    rw [Option.ite_none_right_eq_some] at h
    exact Option.some.inj h.2 ▸ List.subset_cons_self _ _
  · exact absurd h (Option.some_ne_none q).symm

theorem StreamPt.mayUse_update {f : K → StreamPt} {j k : K} {q : StreamPt} {o : SharedObj}
    (ho : o ∈ (Function.update f j q k).mayUse) :
    (k = j ∧ o ∈ q.mayUse) ∨ o ∈ (f k).mayUse := by
  by_cases hk : k = j
  · rw [hk, Function.update_self] at ho
    exact Or.inl ⟨hk, ho⟩
  · rw [Function.update_of_ne hk] at ho
    exact Or.inr ho

/-! ## the whole -/

inductive Teardown.Move (s : Teardown K) : TeardownAct K → Teardown K → Prop where
  | cleanup : Move s .cleanup s.advance
  | conn {a : ConnAct K} {t : Server K} (h : s.server.step a = some t) :
    Move s (.conn a) { s with server := t }
  | buf {a : BufAct K} {t : Buffers K} (h : s.buffers.step .server a = some t) :
    Move s (.buf a) { s with buffers := t }
  | receive {k : K} {l : List PktCtrl} :
    Move s (.receive k l) { s with stream := Function.update s.stream k (.frames l) }
  | stream {k : K} {q : StreamPt} (h : s.runStream k = some q) :
    Move s (.stream k) { s with stream := Function.update s.stream k q }

theorem Teardown.go_move {s t : Teardown K} {a : TeardownAct K} (h : s.go a = some t) :
    s.Move a t := by
  cases a with
  | cleanup =>
    simp only [Teardown.go] at h
    split at h
    · exact Option.some.inj (Option.ite_none_right_eq_some.mp h).2 ▸ .cleanup
    · exact Option.some.inj (Option.ite_none_right_eq_some.mp h).2 ▸ .cleanup
    · exact Option.some.inj h ▸ .cleanup
  | conn a =>
    simp only [Teardown.go, Option.ite_none_right_eq_some] at h
    obtain ⟨v, hv, e⟩ := Option.map_eq_some_iff.mp h.2
    exact e ▸ .conn hv
  | buf a =>
    simp only [Teardown.go, Option.ite_none_right_eq_some] at h
    obtain ⟨v, hv, e⟩ := Option.map_eq_some_iff.mp h.2
    exact e ▸ .buf hv
  | receive k l =>
    simp only [Teardown.go, Option.ite_none_right_eq_some] at h
    exact Option.some.inj h.2 ▸ .receive
  | stream k =>
    obtain ⟨q, hq, e⟩ := Option.map_eq_some_iff.mp h
    exact e ▸ .stream hq

theorem Teardown.mem_mayUse {s : Teardown K} {k : K} {o : SharedObj} :
    o ∈ s.mayUse k ↔ o ∈ connObjs.drop (s.server.ph k).past ∨
      o ∈ dataObjs.drop (s.buffers.callback k).past ∨ o ∈ (s.stream k).mayUse := by
  rw [Teardown.mayUse, List.mem_append, List.mem_append, or_assoc]

/-- a section works on what its event has asked for -/
theorem Teardown.Move.touches {s t : Teardown K} {a : TeardownAct K} {o : SharedObj}
    (h : s.Move a t) (ho : o ∈ s.touches a) : o ∈ s.asks a ∨ ∃ k, o ∈ s.mayUse k := by
  cases h with
  | cleanup => exact absurd ho List.not_mem_nil
  | conn h =>
    rcases Server.touches_used h ho with ha | ⟨k, hk⟩
    · exact Or.inl ha
    · exact Or.inr ⟨k, Teardown.mem_mayUse.mpr (Or.inl hk)⟩
  | buf h =>
    rcases Buffers.touches_used h ho with ha | ⟨k, hk⟩
    · exact Or.inl ha
    · exact Or.inr ⟨k, Teardown.mem_mayUse.mpr (Or.inr (Or.inl hk))⟩
  | receive => exact absurd ho List.not_mem_nil
  | @stream k q h =>
    have hk := s.streamTouches_used k ho
    exact Or.inr ⟨k, Teardown.mem_mayUse.mpr (Or.inr (Or.inr hk))⟩

/-- and no handler may use more than before, unless its event has asked for it -/
theorem Teardown.Move.mayUse {s t : Teardown K} {a : TeardownAct K} {k : K} {o : SharedObj}
    (h : s.Move a t) (ho : o ∈ t.mayUse k) : o ∈ s.asks a ∨ o ∈ s.mayUse k := by
  rw [Teardown.mem_mayUse] at ho
  rw [Teardown.mem_mayUse]
  cases h with
  | cleanup => exact Or.inr ho
  | conn h =>
    rcases ho with ho | ho
    · rcases Server.step_past h with ha | hp
      · exact Or.inl (show o ∈ ConnAct.asks _ from ha ▸ List.drop_subset _ _ ho)
      · exact Or.inr (Or.inl (List.drop_subset_drop_left _ (hp k) ho))
    · exact Or.inr (Or.inr ho)
  | buf h =>
    rcases ho with ho | ho | ho
    · exact Or.inr (Or.inl ho)
    · rcases Buffers.step_past h with ha | hp
      · exact Or.inl (show o ∈ Buffers.asks _ _ from ha ▸ List.drop_subset _ _ ho)
      · exact Or.inr (Or.inr (Or.inl (List.drop_subset_drop_left _ (hp k) ho)))
    · exact Or.inr (Or.inr (Or.inr ho))
  | @receive j l =>
    rcases ho with ho | ho | ho
    · exact Or.inr (Or.inl ho)
    · exact Or.inr (Or.inr (Or.inl ho))
    · rcases StreamPt.mayUse_update ho with ⟨-, hl⟩ | ho
      · exact Or.inl hl
      · exact Or.inr (Or.inr (Or.inr ho))
  | @stream j q h =>
    rcases ho with ho | ho | ho
    · exact Or.inr (Or.inl ho)
    · exact Or.inr (Or.inr (Or.inl ho))
    · refine Or.inr (Or.inr (Or.inr ?_))
      rcases StreamPt.mayUse_update ho with ⟨rfl, hq⟩ | ho
      · exact Teardown.runStream_mayUse h hq
      · exact ho

/-- what the handlers in progress may use is there -/
structure Teardown.Settled (s : Teardown K) : Prop where
  intact : s.Intact
  present : ∀ k, ∀ o ∈ s.mayUse k, o ∉ s.destroyed

theorem Teardown.Drained.asks {s : Teardown K} {a : TeardownAct K} (h : s.Drained a) :
    ∀ o ∈ s.asks a, o ∉ s.destroyed := by
  cases a with
  | cleanup => exact fun o ho => absurd ho List.not_mem_nil
  | _ => exact h

theorem Teardown.step_settled {s s' : Teardown K} {a : TeardownAct K} (hi : s.Settled)
    (hC : s.Drained a) (h : s.step a = some s') : s'.Settled := by
  unfold Teardown.step at h
  rw [Option.ite_none_right_eq_some] at h
  obtain ⟨t, ht, e⟩ := Option.map_eq_some_iff.mp h.2
  have hmove := Teardown.go_move ht
  have hnone : (s.touches a).find? (fun o => decide (o ∈ s.destroyed)) = none := by
    refine List.find?_eq_none.mpr fun o ho => ?_
    rw [decide_eq_true_iff]
    rcases hmove.touches ho with ha | ⟨k, hk⟩
    · exact hC.asks o ha
    · exact hi.present k o hk
  rw [hnone] at e
  subst e
  have hold (k : K) (o : SharedObj) (ho : o ∈ t.mayUse k) : o ∉ s.destroyed := by
    rcases hmove.mayUse ho with ha | hk
    · exact hC.asks o ha
    · exact hi.present k o hk
  cases hmove with
  | cleanup =>
    refine ⟨hi.intact, fun k o ho hd => ?_⟩
    rcases List.mem_append.mp hd with hd | hd
    · exact hC o (Option.mem_toList.mp hd) k ho
    · exact hold k o ho hd
  | conn _ => exact ⟨hi.intact, hold⟩
  | buf _ => exact ⟨hi.intact, hold⟩
  | receive => exact ⟨hi.intact, hold⟩
  | stream _ => exact ⟨hi.intact, hold⟩

theorem Teardown.init_settled (session : Session K) (pool : PoolId → Pool) (home : Blk → PoolId)
    (started : Bool) : (Teardown.init session pool home started).Settled :=
  ⟨rfl, fun _ _ _ => List.not_mem_nil⟩

/-- **No use after the teardown.**  In a run of `vpn_engine_cleanup` with the callbacks and threads
of the server no callback works on an object that has been destroyed, if each object is destroyed
when no handler in progress may use it any more, and no event is delivered whose handler may use a
destroyed one. -/
theorem intact_of_drained {session : Session K} {pool : PoolId → Pool} {home : Blk → PoolId}
    {started : Bool} {l : List (TeardownAct K)}
    (h : Along Teardown.step Teardown.Drained (Teardown.init session pool home started) l) :
    Always Teardown.step Teardown.Intact (Teardown.init session pool home started) l :=
  always_of_along (fun _ hi => hi.intact) (fun _ _ _ hi hC hs => Teardown.step_settled hi hC hs)
    (Teardown.init_settled session pool home started) h

end

/-! ## runs -/

/-- the cleanup up to its first `pool_destroy`; both threads are told to stop and do -/
def stopThreads : List (TeardownAct Bool) :=
  [.cleanup, .cleanup, .cleanup, .buf (.sender .stop), .cleanup, .cleanup,
   .buf (.receiver .popNull), .cleanup, .cleanup]

/-- the send thread passes a packet to `DatagramSend` -/
def sendsOne : List SendAct :=
  [.get, .alloc (some 200), .done, .next true, .next true, .next true, .next true, .next true,
    .datagramSend true]

/-- a client leaves and another one stays: the report of its packet and an empty datagram come between
the calls of `pool_destroy` and its siblings -/
def cleanupMeanwhile : List (TeardownAct Bool) :=
  (oneClient false ++ nextClient false true).map .conn ++ sendsOne.map (fun a => .buf (.sender a)) ++ stopThreads ++ [.cleanup, .buf (.stateChanged 200 .sent), .cleanup, .cleanup,
    .buf (.callback true (.received true)), .cleanup, .cleanup, .cleanup, .cleanup, .cleanup]

theorem intact_client_leaves : (exec Teardown.step
    (Teardown.init (fourSlots Bool) pktPools (fun _ => .recv) true) cleanupMeanwhile).map
      (fun u => u.pt) = some .exited ∧
    Always Teardown.step Teardown.Intact
      (Teardown.init (fourSlots Bool) pktPools (fun _ => .recv) true) cleanupMeanwhile :=
  ⟨by decide, intact_of_drained (by decide)⟩

/-- a datagram of a connected client arrives after `pool_destroy(session->pool_pkt_data_recv)` -/
def lateDatagram : List (TeardownAct Bool) :=
  (oneClient false).map .conn ++ stopThreads ++ [.cleanup, .buf (.callback false (.received false))]

theorem destroyed_pool_used : ∃ u, exec Teardown.step
    (Teardown.init (fourSlots Bool) pktPools (fun _ => .recv) true) lateDatagram = some u ∧
      u.fault = some .poolPktDataRecv ∧ ¬ u.Intact := by
  have h : (exec Teardown.step (Teardown.init (fourSlots Bool) pktPools (fun _ => .recv) true)
      lateDatagram).map (fun u => u.fault) = some (some .poolPktDataRecv) := by decide
  obtain ⟨u, hu, hf⟩ := Option.map_eq_some_iff.mp h
  refine ⟨u, hu, hf, fun hi => ?_⟩
  exact Option.some_ne_none _ (hf.symm.trans hi)

end QuicVpn
