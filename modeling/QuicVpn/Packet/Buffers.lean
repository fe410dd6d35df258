import QuicVpn.Lib.Custody
import QuicVpn.Lib.Exec
import QuicVpn.Common.Basic
import QuicVpn.Common.Pool

/-!
# The packet buffers of client and server

The path of a `pkt_data_t` block through `threads.c` and the datagram events of `quic.c`, for both
sides.  `pool_pkt_data_send` serves the send thread, `pool_pkt_data_recv` the callbacks, and
`pool_put` finds the pool in the header of the block (`home`).  The steps are

* `sendStep`        `thread_pkt_data_send`, cut at the sections of `pool_wait_get` and at each check
                    of an iteration; the two sides differ in `sendNext`;
* `stateChanged`    `DATAGRAM_SEND_STATE_CHANGED`;
* `callbackStep`    `DATAGRAM_RECEIVED`, in any number of threads `T`;
* `recvStep`        `thread_pkt_data_recv`.

A label carries what the environment answers: the outcome of a check, of `aligned_alloc`, of
`DatagramSend`, of `queue_try_push`.  `queue` are the blocks in `queue_pkt_data_recv`, `accepted`
the contexts that `DatagramSend` has taken and MsQuic has reported neither as sent nor as cancelled.
`trace` records every handout, every `pool_put` and every access to the data of a block.
-/

set_option linter.unusedSectionVars false

namespace QuicVpn
open Conc

/-- `pool_pkt_data_send` and `pool_pkt_data_recv` -/
inductive PoolId where
  | send
  | recv
  deriving DecidableEq, Repr

/-- where the send thread is; each check is named after what it looks at -/
inductive SendPt where
  | poll
  | waiting
  | reserved
  | allocated (r : Option Blk)
  | read (pkt : Option Blk)
  | iphdr (b : Blk)
  | search (b : Blk)
  | conState (b : Blk)
  | msquic (b : Blk)
  | api (b : Blk)
  | send (b : Blk)
  | put (pkt : Option Blk) (leave : Bool)
  | joined
  deriving DecidableEq, Repr

/-- where a `DATAGRAM_RECEIVED` callback is -/
inductive CbPt where
  | idle
  | reserved
  | allocated (r : Option Blk)
  | copy (b : Blk)
  | push (b : Blk)
  deriving DecidableEq, Repr

/-- where the receive thread is -/
inductive RecvPt where
  | wait
  | iphdr (b : Blk)
  | write (b : Blk)
  | put (b : Blk)
  | joined
  deriving DecidableEq, Repr

/-- `QUIC_DATAGRAM_SEND_STATE`, without the value that is never reported -/
inductive SendState where
  | sent
  | lostSuspect
  | lostDiscarded
  | acknowledged
  | acknowledgedSpurious
  | canceled
  deriving DecidableEq, Repr

structure Buffers (T : Type) where
  pool : PoolId → Pool
  home : Blk → PoolId
  heap : PoolId → List Blk
  sender : SendPt
  receiver : RecvPt
  callback : T → CbPt
  accepted : List Blk
  sent : List Blk
  queue : List Blk
  trace : List (Ev Blk)
  fatal : Bool

inductive SendAct where
  | get
  | alloc (r : Option Blk)
  | done
  | next (ok : Bool)
  | datagramSend (ok : Bool)
  | put
  | stop

inductive CbAct where
  | received (empty : Bool)
  | alloc (r : Option Blk)
  | done
  | copy
  | push (ok : Bool)

inductive RecvAct where
  | pop
  | popNull
  | next (ok : Bool)
  | put

inductive BufAct (T : Type) where
  | sender (a : SendAct)
  | stateChanged (b : Blk) (e : SendState)
  | callback (t : T) (a : CbAct)
  | receiver (a : RecvAct)

/-- the control flow of an iteration of `thread_pkt_data_send` after a check with outcome `ok`;
`pkt` is `NULL` when `pool_wait_get` ran out of memory, and `read` then fails -/
def sendNext : Side → SendPt → Bool → Option SendPt
  | .server, .read (some b), true => some (.iphdr b)
  | .server, .read pkt, false => some (.put pkt true)
  | .server, .iphdr b, true => some (.search b)
  | .server, .iphdr b, false => some (.put (some b) false)
  | .server, .search b, true => some (.msquic b)
  | .server, .search b, false => some (.put (some b) false)
  | .client, .read (some b), true => some (.conState b)
  -- the client goes on without `pool_put`
  | .client, .read _, false => some .poll
  | .client, .conState b, true => some (.msquic b)
  | .client, .conState b, false => some (.put (some b) false)
  | _, .msquic b, true => some (.api b)
  -- both sides go on without `pool_put`
  | _, .msquic _, false => some .poll
  | _, .api b, true => some (.send b)
  | _, .api _, false => some .poll
  | _, _, _ => none

/-- the block whose data the send thread uses on its way out of a check -/
def SendPt.uses : SendPt → Option Blk
  | .read pkt => pkt
  | .iphdr b => some b
  | .search b => some b
  | .conState b => some b
  | _ => none

section
variable {T : Type} [DecidableEq T]

def Buffers.setPool (s : Buffers T) (i : PoolId) (p : Pool) : Buffers T :=
  { s with pool := Function.update s.pool i p }

/-- a get returns the block `b` of pool `i`, whose header now points to it -/
def Buffers.handout (s : Buffers T) (i : PoolId) (b : Blk) (p : Pool) : Buffers T :=
  { s.setPool i p with home := Function.update s.home b i, trace := .handout b :: s.trace }

/-- the data of a block is used, if there is one -/
def Buffers.touch (s : Buffers T) (r : Option Blk) : Buffers T :=
  { s with trace := r.toList.map Ev.touch ++ s.trace }

/-- `pool_put`; `fatal` is its underflow check -/
def Buffers.put (s : Buffers T) (b : Blk) : Buffers T :=
  { s with
    pool :=
      match poolPut (s.pool (s.home b)) b with
      | some p => Function.update s.pool (s.home b) p
      | none => s.pool
    fatal := s.fatal || (poolPut (s.pool (s.home b)) b).isNone
    trace := .put b :: s.trace }

/-- `aligned_alloc` returns memory that no pool has -/
def Buffers.Fresh (s : Buffers T) (r : Option Blk) : Prop :=
  ∀ b ∈ r, b ∉ s.heap .send ∧ b ∉ s.heap .recv

instance (s : Buffers T) (r : Option Blk) : Decidable (s.Fresh r) :=
  match r with
  | none => isTrue fun b hb => by cases hb
  | some b =>
    decidable_of_iff (b ∉ s.heap .send ∧ b ∉ s.heap .recv)
      ⟨fun h c hc => by cases hc; exact h, fun h => h b rfl⟩

def Buffers.grow (s : Buffers T) (i : PoolId) (r : Option Blk) : Buffers T :=
  { s with heap := Function.update s.heap i (r.toList ++ s.heap i) }

def Buffers.setCallback (s : Buffers T) (t : T) (q : CbPt) : Buffers T :=
  { s with callback := Function.update s.callback t q }

/-- `thread_pkt_data_send` -/
def Buffers.sendStep (side : Side) (s : Buffers T) : SendAct → Option (Buffers T)
  | .get =>
    if s.sender = .poll ∨ s.sender = .waiting then
      match poolWaitGetLocked (s.pool .send) with
      | (.block b, p) => some { s.handout .send b p with sender := .read (some b) }
      | (.full, _) => some { s with sender := .waiting }
      | (.reserved, p) => some { s.setPool .send p with sender := .reserved }
    else none
  | .alloc r =>
    if s.sender = .reserved ∧ s.Fresh r then
      some { s.grow .send r with sender := .allocated r }
    else none
  | .done =>
    match s.sender with
    | .allocated (some b) =>
      some { s.handout .send b (poolAllocDone (s.pool .send)) with sender := .read (some b) }
    | .allocated none =>
      some { s.setPool .send (poolAllocFailed (s.pool .send)) with sender := .read none }
    | _ => none
  | .next ok =>
    match sendNext side s.sender ok with
    | some q => some { s.touch s.sender.uses with sender := q }
    | none => none
  | .datagramSend ok =>
    match s.sender with
    | .send b =>
      if ok then some { s.touch (some b) with sender := .poll, accepted := b :: s.accepted }
      else some { s.touch (some b) with sender := .put (some b) false }
    | _ => none
  | .put =>
    match s.sender with
    | .put (some b) leave => some { s.put b with sender := if leave then .joined else .poll }
    | .put none leave => some { s with sender := if leave then .joined else .poll }
    | _ => none
  | .stop => if s.sender = .poll then some { s with sender := .joined } else none

/-- `DATAGRAM_SEND_STATE_CHANGED`: one of sent and cancelled for a context that was accepted, and
the later reports after sent -/
def Buffers.stateChanged (s : Buffers T) (b : Blk) : SendState → Option (Buffers T)
  | .sent =>
    if b ∈ s.accepted then
      some { s.put b with accepted := s.accepted.erase b, sent := b :: s.sent }
    else none
  | .canceled =>
    if b ∈ s.accepted then some { s.put b with accepted := s.accepted.erase b } else none
  | _ => if b ∈ s.sent then some s else none

/-- `DATAGRAM_RECEIVED`; `empty` stands for a datagram without data -/
def Buffers.callbackStep (s : Buffers T) (t : T) : CbAct → Option (Buffers T)
  | .received empty =>
    if s.callback t = .idle then
      if empty then some s
      else
        match poolTryGetLocked (s.pool .recv) with
        | (.block b, p) => some ((s.handout .recv b p).setCallback t (.copy b))
        | (.full, _) => some s
        | (.reserved, p) => some ((s.setPool .recv p).setCallback t .reserved)
    else none
  | .alloc r =>
    if s.callback t = .reserved ∧ s.Fresh r then
      some ((s.grow .recv r).setCallback t (.allocated r))
    else none
  | .done =>
    match s.callback t with
    | .allocated (some b) =>
      some ((s.handout .recv b (poolAllocDone (s.pool .recv))).setCallback t (.copy b))
    | .allocated none =>
      some ((s.setPool .recv (poolAllocFailed (s.pool .recv))).setCallback t .idle)
    | _ => none
  | .copy =>
    match s.callback t with
    | .copy b => some ((s.touch (some b)).setCallback t (.push b))
    | _ => none
  | .push ok =>
    match s.callback t with
    | .push b =>
      -- the result of `queue_try_push` is ignored
      if ok then some { s.setCallback t .idle with queue := s.queue ++ [b] }
      else some (s.setCallback t .idle)
    | _ => none

/-- `thread_pkt_data_recv` -/
def Buffers.recvStep (s : Buffers T) : RecvAct → Option (Buffers T)
  | .pop =>
    match s.receiver, s.queue with
    | .wait, b :: q => some { s with receiver := .iphdr b, queue := q }
    | _, _ => none
  | .popNull => if s.receiver = .wait then some { s with receiver := .joined } else none
  | .next ok =>
    match s.receiver with
    | .iphdr b =>
      some { s.touch (some b) with receiver := if ok then .write b else .put b }
    | .write b => some { s.touch (some b) with receiver := .put b }
    | _ => none
  | .put =>
    match s.receiver with
    | .put b => some { s.put b with receiver := .wait }
    | _ => none

def Buffers.step (side : Side) (s : Buffers T) : BufAct T → Option (Buffers T)
  | .sender a => s.sendStep side a
  | .stateChanged b e => s.stateChanged b e
  | .callback t a => s.callbackStep t a
  | .receiver a => s.recvStep a

/-- the threads have been started on two pools; `home` is whatever the memory holds -/
def Buffers.init (pool : PoolId → Pool) (home : Blk → PoolId) : Buffers T :=
  ⟨pool, home, fun _ => [], .poll, .wait, fun _ => .idle, [], [], [], [], false⟩

end

/-- the two pools as both sides make them: `sizeof(pkt_data_t)`, without a limit -/
def pktPools : PoolId → Pool := fun _ => ⟨2064, 0, 0, 0, none, fun _ => none⟩

end QuicVpn
