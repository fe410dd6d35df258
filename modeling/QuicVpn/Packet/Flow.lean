import QuicVpn.Packet.Ledger

/-!
# Packet buffers: returned once, and when they are lost

Every block that is out of a pool is with the send thread, with MsQuic, with a callback, in the queue
or with the receive thread, or it has been dropped: left behind on a branch without `pool_put`.
`Buffers.dropped` lists these branches; the invariant `Buffers.Inv L` counts the blocks `L` dropped
so far as a share of their own, so that it holds along every run.

* `buffers_put_once`        between two handouts a block is put back at most once, and not used
                            after that;
* `buffers_balanced_iff`    the pools are balanced along a run exactly as long as no step drops a
                            block.
-/

set_option linter.unusedSectionVars false

namespace QuicVpn
open Conc

/-! ## where the blocks are -/

def SendPt.share : SendPt → Share
  | .reserved => Share.reserved
  | .allocated r => Share.allocated r
  | .read (some b) => Share.held {b}
  | .iphdr b => Share.held {b}
  | .search b => Share.held {b}
  | .conState b => Share.held {b}
  | .msquic b => Share.held {b}
  | .api b => Share.held {b}
  | .send b => Share.held {b}
  | .put (some b) _ => Share.held {b}
  | _ => 0

def CbPt.share : CbPt → Share
  | .reserved => Share.reserved
  | .allocated r => Share.allocated r
  | .copy b => Share.held {b}
  | .push b => Share.held {b}
  | .idle => 0

def RecvPt.share : RecvPt → Share
  | .iphdr b => Share.held {b}
  | .write b => Share.held {b}
  | .put b => Share.held {b}
  | _ => 0

/-- the branches of the send thread that go on without `pool_put` -/
def sendDropped : Side → SendPt → Bool → Multiset Blk
  | .client, .read (some b), false => {b}
  | _, .msquic b, false => {b}
  | _, .api b, false => {b}
  | _, _, _ => 0

section
variable {T : Type} [Fintype T] [DecidableEq T]

/-- the blocks that a step leaves behind -/
def Buffers.dropped (side : Side) (s : Buffers T) : BufAct T → PoolId → Multiset Blk
  | .sender (.next ok), .send => sendDropped side s.sender ok
  | .callback t (.push false), .recv =>
    match s.callback t with
    | .push b => {b}
    | _ => 0
  | _, _ => 0

/-- the shares of the two pools, with the blocks `L` dropped so far -/
def Buffers.tot (L : PoolId → Multiset Blk) (s : Buffers T) : PoolId → Share
  | .send => s.sender.share + (Share.held s.accepted + Share.held (L .send))
  | .recv => ∑ t, (s.callback t).share
      + (s.receiver.share + (Share.held s.queue + Share.held (L .recv)))

structure Buffers.Inv (L : PoolId → Multiset Blk) (s : Buffers T) : Prop where
  ledger : Ledger s.pool s.heap s.home s.trace (s.tot L)
  fatal : s.fatal = false

/-! ## the send thread -/

/-- an iteration keeps its block, hands it to `pool_put` or drops it -/
theorem sendNext_share {side : Side} {q q' : SendPt} {ok : Bool} (h : sendNext side q ok = some q') :
    q.share = q'.share + Share.held (sendDropped side q ok) := by
  -- on each branch one of the two summands is `0`, and the shares are sums of multisets
  cases q with
  | read pkt =>
    cases pkt <;> cases side <;> cases ok <;> cases h <;> exact (add_zero _).symm
  | _ =>
    cases side <;> cases ok <;> cases h <;> exact (add_zero _).symm

theorem SendPt.uses_held {q : SendPt} {b : Blk} (h : q.uses = some b) : b ∈ q.share.1 := by
  have hb : b ∈ (Share.held {b}).1 := Multiset.mem_singleton_self b
  cases q with
  | read pkt =>
    cases h
    exact hb
  | iphdr c =>
    cases h
    exact hb
  | search c =>
    cases h
    exact hb
  | conState c =>
    cases h
    exact hb
  | _ => cases h

section
variable {L : PoolId → Multiset Blk} {s s' : Buffers T} {side : Side}

theorem Buffers.Inv.of_ledger {tot : PoolId → Share}
    (hl : Ledger s'.pool s'.heap s'.home s'.trace tot) (he : s'.tot L = tot)
    (hf : s'.fatal = false) : s'.Inv L := ⟨he ▸ hl, hf⟩

/-- the same with the two pools one by one -/
theorem Buffers.Inv.of_pools {tot : PoolId → Share}
    (hl : Ledger s'.pool s'.heap s'.home s'.trace tot) (hf : s'.fatal = false)
    (hsend : s'.tot L .send = tot .send) (hrecv : s'.tot L .recv = tot .recv) : s'.Inv L := by
  refine Buffers.Inv.of_ledger hl ?_ hf
  funext i
  cases i with
  | send => exact hsend
  | recv => exact hrecv

/-- nothing has been dropped -/
theorem Buffers.Inv.of_none (h : s'.Inv L) : s'.Inv fun i => 0 + L i := by
  have hL : (fun i => 0 + L i) = L := funext fun i => zero_add (L i)
  rw [hL]
  exact h

theorem Buffers.tot_send {q : SendPt} (hq : s.sender = q) :
    s.tot L .send = q.share + (Share.held s.accepted + Share.held (L .send)) := by
  rw [← hq]
  rfl

theorem Buffers.Inv.touch {i : PoolId} {r : Option Blk} (h : s.Inv L)
    (hr : ∀ b ∈ r, b ∈ (s.tot L i).1) : (s.touch r).Inv L := by
  cases r with
  | none => exact h
  | some b => exact ⟨h.ledger.touch (hr b rfl), h.fatal⟩

/-- `pool_put` on a block that is out, for any of the parties -/
theorem Buffers.Inv.put {i : PoolId} {b : Blk} {R : Share} (h : s.Inv L)
    (ht : s.tot L i = Share.held {b} + R) :
    (s.put b).fatal = false ∧ Ledger (s.put b).pool s.heap s.home (s.put b).trace
      (Function.update (s.tot L) i R) := by
  obtain ⟨hhome, q, hq, hl⟩ := h.ledger.put ht
  unfold Buffers.put
  simp only [hhome, hq, h.fatal, Option.isNone_some, Bool.or_self, true_and]
  exact hl

/-- the sections of `pool_wait_get` -/
theorem Buffers.sendGet_inv (h : s.Inv L) (hs : s.sendStep side .get = some s') : s'.Inv L := by
  simp only [Buffers.sendStep] at hs
  split at hs
  · rename_i hpc
    have h0 : s.sender.share = 0 := by
      rcases hpc with hpc | hpc <;> rw [hpc] <;> rfl
    have ht : s.tot L .send = Share.held s.accepted + Share.held (L .send) := by
      rw [Buffers.tot_send rfl, h0, zero_add]
    rw [poolWaitGetLocked_eq] at hs
    split at hs
    · rename_i b p hg
      cases hs
      have hl := h.ledger.get_block hg
      rw [ht] at hl
      exact Buffers.Inv.of_pools hl h.fatal rfl rfl
    · cases hs
      exact Buffers.Inv.of_pools h.ledger h.fatal ((zero_add _).trans ht.symm) rfl
    · rename_i p hg
      cases hs
      have hl := h.ledger.get_reserved hg
      rw [ht] at hl
      exact Buffers.Inv.of_pools hl h.fatal rfl rfl
  · cases hs

theorem Buffers.sendAlloc_inv {r : Option Blk} (h : s.Inv L)
    (hs : s.sendStep side (.alloc r) = some s') : s'.Inv L := by
  simp only [Buffers.sendStep] at hs
  split at hs
  · rename_i hpc
    cases hs
    exact Buffers.Inv.of_pools (h.ledger.alloc (Buffers.tot_send hpc.1) hpc.2) h.fatal rfl rfl
  · cases hs

theorem Buffers.sendDone_inv (h : s.Inv L) (hs : s.sendStep side .done = some s') : s'.Inv L := by
  simp only [Buffers.sendStep] at hs
  split at hs
  · rename_i b hpc
    cases hs
    exact Buffers.Inv.of_pools (h.ledger.allocDone (Buffers.tot_send hpc)) h.fatal rfl rfl
  · rename_i hpc
    cases hs
    exact Buffers.Inv.of_pools (h.ledger.allocFailed (Buffers.tot_send hpc)) h.fatal (zero_add _) rfl
  · cases hs

/-- a check of the iteration -/
theorem Buffers.sendNext_inv {ok : Bool} (h : s.Inv L)
    (hs : s.sendStep side (.next ok) = some s') :
    s'.Inv fun i => s.dropped side (.sender (.next ok)) i + L i := by
  have ht : (s.touch s.sender.uses).Inv L := by
    refine h.touch (i := .send) fun b hb => ?_
    rw [Buffers.tot_send rfl]
    exact Multiset.mem_add.mpr (Or.inl (SendPt.uses_held hb))
  simp only [Buffers.sendStep] at hs
  split at hs
  · rename_i q hq
    cases hs
    refine Buffers.Inv.of_pools ht.ledger ht.fatal ?_ ?_
    · show q.share + (Share.held s.accepted
        + Share.held (sendDropped side s.sender ok + L .send)) = s.tot L .send
      rw [Buffers.tot_send rfl, sendNext_share hq, Share.held_add, add_assoc]
      exact congrArg (q.share + ·) (add_left_comm _ _ _)
    · show _ + (_ + (_ + Share.held (0 + L .recv))) = _
      rw [zero_add]
      rfl
  · cases hs

/-- `DatagramSend`: the block goes to MsQuic, or on to `pool_put` -/
theorem Buffers.datagramSend_inv {ok : Bool} (h : s.Inv L)
    (hs : s.sendStep side (.datagramSend ok) = some s') : s'.Inv L := by
  simp only [Buffers.sendStep] at hs
  split at hs
  · rename_i b hpc
    have ht : (s.touch (some b)).Inv L := by
      refine h.touch (i := .send) fun c hc => ?_
      cases hc
      rw [Buffers.tot_send hpc]
      exact Multiset.mem_add.mpr (Or.inl (Multiset.mem_singleton_self b))
    cases ok with
    | true =>
      cases hs
      refine Buffers.Inv.of_pools ht.ledger ht.fatal ?_ rfl
      show (0 : Share) + (Share.held (b ::ₘ (s.accepted : Multiset Blk)) + Share.held (L .send))
        = s.tot L .send
      rw [Buffers.tot_send hpc, Share.held_cons, zero_add, add_assoc]
      rfl
    | false =>
      cases hs
      exact Buffers.Inv.of_pools ht.ledger ht.fatal (Buffers.tot_send hpc).symm rfl
  · cases hs

theorem Buffers.sendPut_inv (h : s.Inv L) (hs : s.sendStep side .put = some s') : s'.Inv L := by
  simp only [Buffers.sendStep] at hs
  have hback : ∀ leave : Bool, (if leave then SendPt.joined else .poll).share = 0 := by
    intro leave
    cases leave <;> rfl
  split at hs
  · rename_i b leave hpc
    cases hs
    obtain ⟨hf, hl⟩ := h.put (Buffers.tot_send hpc)
    refine Buffers.Inv.of_pools hl hf ?_ rfl
    show (if leave then SendPt.joined else .poll).share + _ = _
    rw [hback leave, zero_add]
    rfl
  · rename_i leave hpc
    cases hs
    refine Buffers.Inv.of_pools h.ledger h.fatal ?_ rfl
    show (if leave then SendPt.joined else .poll).share + _ = s.tot L .send
    rw [hback leave, Buffers.tot_send hpc]
    rfl
  · cases hs

theorem Buffers.sendStep_inv {a : SendAct} (h : s.Inv L) (hs : s.sendStep side a = some s') :
    s'.Inv fun i => s.dropped side (.sender a) i + L i := by
  cases a with
  | get => exact (Buffers.sendGet_inv h hs).of_none
  | alloc r => exact (Buffers.sendAlloc_inv h hs).of_none
  | done => exact (Buffers.sendDone_inv h hs).of_none
  | next ok => exact Buffers.sendNext_inv h hs
  | datagramSend ok => exact (Buffers.datagramSend_inv h hs).of_none
  | put => exact (Buffers.sendPut_inv h hs).of_none
  | stop =>
    simp only [Buffers.sendStep] at hs
    split at hs
    · rename_i hpc
      cases hs
      apply Buffers.Inv.of_none
      exact Buffers.Inv.of_pools h.ledger h.fatal (Buffers.tot_send hpc).symm rfl
    · cases hs

/-! ## MsQuic -/

theorem Buffers.stateChanged_inv {b : Blk} {e : SendState} (h : s.Inv L)
    (hs : s.stateChanged b e = some s') : s'.Inv L := by
  -- a context that is reported for the first time goes back to the pool
  have hput : ∀ (x : List Blk), b ∈ s.accepted →
      ({ s.put b with accepted := s.accepted.erase b, sent := x } : Buffers T).Inv L := by
    intro x hb
    have hacc : Share.held s.accepted
        = Share.held {b} + Share.held ((s.accepted.erase b : List Blk) : Multiset Blk) := by
      rw [← Share.held_cons, Multiset.cons_coe]
      exact congrArg Share.held (Multiset.coe_eq_coe.mpr (List.perm_cons_erase hb))
    have ht : s.tot L .send = Share.held {b} + (s.sender.share
        + (Share.held ((s.accepted.erase b : List Blk) : Multiset Blk) + Share.held (L .send))) := by
      rw [Buffers.tot_send rfl, hacc, add_assoc, add_left_comm]
    obtain ⟨hf, hl⟩ := h.put ht
    exact Buffers.Inv.of_pools hl hf rfl rfl
  cases e with
  | sent =>
    simp only [Buffers.stateChanged] at hs
    split at hs
    · rename_i hb
      cases hs
      exact hput _ hb
    · cases hs
  | canceled =>
    simp only [Buffers.stateChanged] at hs
    split at hs
    · rename_i hb
      cases hs
      exact hput _ hb
    · cases hs
  | _ =>
    simp only [Buffers.stateChanged] at hs
    split at hs
    · cases hs
      exact h
    · cases hs

/-! ## the callbacks -/

/-- the share of one callback, and how it may be replaced -/
theorem Buffers.tot_recv (s : Buffers T) (L : PoolId → Multiset Blk) (t : T) :
    ∃ R, s.tot L .recv = (s.callback t).share + R ∧
      ∀ q, Function.update (s.tot L) .recv (q.share + R) = (s.setCallback t q).tot L := by
  obtain ⟨r, r1, r2⟩ := sum_split CbPt.share s.callback t
  refine ⟨r + (s.receiver.share + (Share.held s.queue + Share.held (L .recv))), ?_, fun q => ?_⟩
  · show ∑ u, (s.callback u).share + _ = _
    rw [r1, add_assoc]
  · funext i
    cases i with
    | send => rfl
    | recv =>
      show q.share + (r + _) = ∑ u, (Function.update s.callback t q u).share + _
      rw [r2, add_assoc]
      rfl

/-- the sections of `pool_try_get` -/
theorem Buffers.received_inv {t : T} {empty : Bool} (h : s.Inv L)
    (hs : s.callbackStep t (.received empty) = some s') : s'.Inv L := by
  obtain ⟨R, hR, hput⟩ := s.tot_recv L t
  simp only [Buffers.callbackStep] at hs
  split at hs
  · rename_i hpc
    rw [hpc] at hR
    have ht : s.tot L .recv = R := hR.trans (zero_add R)
    cases empty with
    | true =>
      cases hs
      exact h
    | false =>
      simp only [Bool.false_eq_true, if_false] at hs
      split at hs
      · rename_i b p hg
        cases hs
        have hl := h.ledger.get_block hg
        rw [ht] at hl
        exact Buffers.Inv.of_ledger hl (hput (.copy b)).symm h.fatal
      · cases hs
        exact h
      · rename_i p hg
        cases hs
        have hl := h.ledger.get_reserved hg
        rw [ht] at hl
        exact Buffers.Inv.of_ledger hl (hput .reserved).symm h.fatal
  · cases hs

theorem Buffers.cbAlloc_inv {t : T} {r : Option Blk} (h : s.Inv L)
    (hs : s.callbackStep t (.alloc r) = some s') : s'.Inv L := by
  obtain ⟨R, hR, hput⟩ := s.tot_recv L t
  simp only [Buffers.callbackStep] at hs
  split at hs
  · rename_i hpc
    cases hs
    rw [hpc.1] at hR
    exact Buffers.Inv.of_ledger (h.ledger.alloc hR hpc.2) (hput (.allocated r)).symm h.fatal
  · cases hs

theorem Buffers.cbDone_inv {t : T} (h : s.Inv L) (hs : s.callbackStep t .done = some s') :
    s'.Inv L := by
  obtain ⟨R, hR, hput⟩ := s.tot_recv L t
  simp only [Buffers.callbackStep] at hs
  split at hs
  · rename_i b hpc
    cases hs
    rw [hpc] at hR
    exact Buffers.Inv.of_ledger (h.ledger.allocDone hR) (hput (.copy b)).symm h.fatal
  · rename_i hpc
    cases hs
    rw [hpc] at hR
    have he := hput .idle
    have hz : CbPt.idle.share + R = R := zero_add R
    rw [hz] at he
    exact Buffers.Inv.of_ledger (h.ledger.allocFailed hR) he.symm h.fatal
  · cases hs

theorem Buffers.copy_inv {t : T} (h : s.Inv L) (hs : s.callbackStep t .copy = some s') :
    s'.Inv L := by
  obtain ⟨R, hR, hput⟩ := s.tot_recv L t
  simp only [Buffers.callbackStep] at hs
  split at hs
  · rename_i b hpc
    cases hs
    rw [hpc] at hR
    have ht : (s.touch (some b)).Inv L := by
      refine h.touch (i := .recv) fun c hc => ?_
      cases hc
      rw [hR]
      exact Multiset.mem_add.mpr (Or.inl (Multiset.mem_singleton_self b))
    refine Buffers.Inv.of_ledger ht.ledger ?_ ht.fatal
    refine (hput (.push b)).symm.trans ?_
    have hR' : s.tot L .recv = (CbPt.push b).share + R := hR
    rw [← hR', Function.update_eq_self]
    rfl
  · cases hs

/-- `queue_try_push`: the block goes into the queue, or is left behind -/
theorem Buffers.push_inv {t : T} {ok : Bool} (h : s.Inv L)
    (hs : s.callbackStep t (.push ok) = some s') :
    s'.Inv fun i => s.dropped side (.callback t (.push ok)) i + L i := by
  obtain ⟨r, r1, r2⟩ := sum_split CbPt.share s.callback t
  simp only [Buffers.callbackStep] at hs
  split at hs
  · rename_i b hpc
    rw [hpc] at r1
    have hr : ∑ u, (Function.update s.callback t .idle u).share = r := (r2 .idle).trans (zero_add r)
    cases ok with
    | true =>
      cases hs
      apply Buffers.Inv.of_none
      refine Buffers.Inv.of_pools h.ledger h.fatal rfl ?_
      have hq : Share.held ((s.queue ++ [b] : List Blk) : Multiset Blk)
          = Share.held {b} + Share.held s.queue := by
        rw [← Multiset.coe_add, Share.held_add, add_comm]
        rfl
      show ∑ u, (Function.update s.callback t .idle u).share + (s.receiver.share
        + (Share.held ((s.queue ++ [b] : List Blk) : Multiset Blk) + Share.held (L .recv)))
        = ∑ u, (s.callback u).share + (s.receiver.share
          + (Share.held s.queue + Share.held (L .recv)))
      rw [hr, hq, r1]
      show r + _ = Share.held {b} + r + _
      simp only [add_assoc, add_left_comm, add_comm]
    | false =>
      cases hs
      refine Buffers.Inv.of_pools h.ledger h.fatal ?_ ?_
      · show _ + (_ + Share.held (0 + L .send)) = _
        rw [zero_add]
        rfl
      · have hd : s.dropped side (.callback t (.push false)) .recv = {b} := by
          show (match s.callback t with | .push b => ({b} : Multiset Blk) | _ => 0) = {b}
          rw [hpc]
        show ∑ u, (Function.update s.callback t .idle u).share + (s.receiver.share
          + (Share.held s.queue
            + Share.held (s.dropped side (.callback t (.push false)) .recv + L .recv)))
          = ∑ u, (s.callback u).share + (s.receiver.share
            + (Share.held s.queue + Share.held (L .recv)))
        rw [hr, hd, r1, Share.held_add]
        show r + _ = Share.held {b} + r + _
        simp only [add_assoc, add_left_comm, add_comm]
  · cases hs

theorem Buffers.callbackStep_inv {t : T} {a : CbAct} (h : s.Inv L)
    (hs : s.callbackStep t a = some s') :
    s'.Inv fun i => s.dropped side (.callback t a) i + L i := by
  cases a with
  | received empty => exact (Buffers.received_inv h hs).of_none
  | alloc r => exact (Buffers.cbAlloc_inv h hs).of_none
  | done => exact (Buffers.cbDone_inv h hs).of_none
  | copy => exact (Buffers.copy_inv h hs).of_none
  | push ok => exact Buffers.push_inv h hs

/-! ## the receive thread -/

theorem Buffers.tot_receiver (s : Buffers T) (L : PoolId → Multiset Blk) :
    s.tot L .recv = s.receiver.share
      + (∑ t, (s.callback t).share + (Share.held s.queue + Share.held (L .recv))) :=
  add_left_comm _ _ _

/-- the receive thread goes on with the same share -/
theorem Buffers.Inv.receiver_same (h : s.Inv L) {q q' : RecvPt} (hq : s.receiver = q)
    (hsh : q'.share = q.share) : ({ s with receiver := q' } : Buffers T).Inv L := by
  refine Buffers.Inv.of_pools h.ledger h.fatal rfl ?_
  rw [Buffers.tot_receiver, Buffers.tot_receiver, hq]
  exact congrArg (· + _) hsh

theorem Buffers.Inv.touch_receiver (h : s.Inv L) {b : Blk}
    (hb : s.receiver.share = Share.held {b}) : (s.touch (some b)).Inv L := by
  refine h.touch (i := .recv) fun c hc => ?_
  cases hc
  rw [Buffers.tot_receiver, hb]
  exact Multiset.mem_add.mpr (Or.inl (Multiset.mem_singleton_self b))

theorem Buffers.recvStep_inv {a : RecvAct} (h : s.Inv L) (hs : s.recvStep a = some s') :
    s'.Inv L := by
  cases a with
  | pop =>
    simp only [Buffers.recvStep] at hs
    split at hs
    · rename_i b q hpc hqueue
      cases hs
      refine Buffers.Inv.of_pools h.ledger h.fatal rfl ?_
      rw [Buffers.tot_receiver, Buffers.tot_receiver, hpc, hqueue, ← Multiset.cons_coe,
        Share.held_cons]
      show Share.held {b} + (_ + (Share.held q + _)) = 0 + (_ + (Share.held {b} + Share.held q + _))
      rw [zero_add, add_assoc]
      exact add_left_comm _ _ _
    · cases hs
  | popNull =>
    simp only [Buffers.recvStep] at hs
    split at hs
    · rename_i hpc
      cases hs
      exact h.receiver_same hpc rfl
    · cases hs
  | next ok =>
    simp only [Buffers.recvStep] at hs
    split at hs
    · rename_i b hpc
      cases hs
      refine (h.touch_receiver (b := b) (by rw [hpc]; rfl)).receiver_same hpc ?_
      cases ok <;> rfl
    · rename_i b hpc
      cases hs
      exact (h.touch_receiver (b := b) (by rw [hpc]; rfl)).receiver_same hpc rfl
    · cases hs
  | put =>
    simp only [Buffers.recvStep] at hs
    split at hs
    · rename_i b hpc
      cases hs
      have ht := s.tot_receiver L
      rw [hpc] at ht
      obtain ⟨hf, hl⟩ := h.put ht
      refine Buffers.Inv.of_pools hl hf rfl ?_
      rw [Buffers.tot_receiver]
      exact zero_add _
    · cases hs

/-! ## every run -/

theorem Buffers.step_inv {a : BufAct T} (h : s.Inv L) (hs : s.step side a = some s') :
    s'.Inv fun i => s.dropped side a i + L i := by
  cases a with
  | sender a => exact Buffers.sendStep_inv h hs
  | stateChanged b e => exact (Buffers.stateChanged_inv h hs).of_none
  | callback t a => exact Buffers.callbackStep_inv h hs
  | receiver a => exact (Buffers.recvStep_inv h hs).of_none

end

theorem Buffers.init_inv {cap : PoolId → ℕ} {blockSize : ℕ} {pool : PoolId → Pool}
    (hp : ∀ i, poolInit blockSize (cap i) = some (pool i)) (home : Blk → PoolId) :
    (Buffers.init pool home : Buffers T).Inv fun _ => 0 := by
  have hz : (∑ _t : T, CbPt.idle.share) = 0 := Finset.sum_const_zero
  have htot : (Buffers.init pool home : Buffers T).tot (fun _ => 0) = fun _ => 0 := by
    funext i
    cases i with
    | send => rfl
    | recv =>
      show (∑ _t : T, CbPt.idle.share) + _ = 0
      rw [hz]
      rfl
  refine ⟨?_, rfl⟩
  rw [htot]
  refine ⟨fun i => PoolOk.init (hp i) [], fun b hb => ?_, fun i b hb => ?_, Held.nil⟩
  · cases hb
  · exact absurd hb (Multiset.notMem_zero b)

/-- **Packet buffers are put back once.**  In every run, on either side: between two handouts of a
block there is at most one `pool_put` of it, its data is not used between a `pool_put` and the next
handout, the underflow check of `pool_put` never fires, and no block is twice in a free list. -/
theorem buffers_put_once (side : Side) (blockSize : ℕ) (cap : PoolId → ℕ) (pool : PoolId → Pool)
    (hp : ∀ i, poolInit blockSize (cap i) = some (pool i)) (home : Blk → PoolId)
    (l : List (BufAct T)) (s : Buffers T)
    (hs : exec (Buffers.step side) (Buffers.init pool home) l = some s) :
    (∀ b pre mid post, s.trace.reverse = pre ++ .handout b :: (mid ++ post) → .handout b ∉ mid →
      mid.count (.put b) ≤ 1) ∧
    (∀ b pre mid post, s.trace.reverse = pre ++ .put b :: (mid ++ post) → .handout b ∉ mid →
      .touch b ∉ mid) ∧
    s.fatal = false ∧
    ∀ i, ∃ free, Chain (s.pool i).next (s.pool i).freeList free ∧ free.Nodup := by
  obtain ⟨L, h⟩ := exec_inv (I := fun s => ∃ L, Buffers.Inv L s)
    (fun s a s' h hs => h.elim fun L h => ⟨_, Buffers.step_inv h hs⟩)
    ⟨_, Buffers.init_inv hp home⟩ hs
  have hc := h.ledger.held.custody
  refine ⟨fun b pre mid post htr hm => hc.put_once htr hm,
    fun b pre mid post htr hm => hc.no_touch htr hm, h.fatal, fun i => ?_⟩
  obtain ⟨free, hi⟩ := h.ledger.ok i
  exact ⟨free, hi.chain, (Multiset.nodup_add.mp (Multiset.nodup_add.mp hi.nodup).1).1⟩

/-! ## the balance of the pools -/

/-- the blocks out of each pool are those of its threads, of MsQuic and of the queue; so a pool that
nobody uses reports `0` -/
structure Buffers.Balanced (s : Buffers T) : Prop where
  send : (s.pool .send).inUse = s.sender.share.1.card + s.accepted.length
  recv : (s.pool .recv).inUse
    = s.queue.length + ∑ t, (s.callback t).share.1.card + s.receiver.share.1.card
  idle : s.sender.share.1 = 0 → s.accepted = [] → s.queue = [] →
    (∀ t, (s.callback t).share.1 = 0) → s.receiver.share.1 = 0 →
    (s.pool .send).inUse = 0 ∧ (s.pool .recv).inUse = 0

/-- the step drops no block -/
def KeepsBlocks (side : Side) (s : Buffers T) (a : BufAct T) : Prop := ∀ i, s.dropped side a i = 0

/-- the pools are out of balance by the blocks that were dropped -/
theorem Buffers.Inv.inUse {L : PoolId → Multiset Blk} {s : Buffers T} (h : s.Inv L) :
    (s.pool .send).inUse = s.sender.share.1.card + s.accepted.length + (L .send).card ∧
    (s.pool .recv).inUse = s.queue.length + ∑ t, (s.callback t).share.1.card
      + s.receiver.share.1.card + (L .recv).card := by
  refine ⟨?_, ?_⟩
  · rw [(h.ledger.ok .send).inUse]
    show (((s.sender.share.1 + ((s.accepted : Multiset Blk) + L .send)).card : ℕ) : ℤ) = _
    rw [Multiset.card_add, Multiset.card_add, Multiset.coe_card]
    omega
  · rw [(h.ledger.ok .recv).inUse]
    have hsum : (∑ t, (s.callback t).share).1.card = ∑ t, (s.callback t).share.1.card := by
      rw [Prod.fst_sum, Multiset.card_sum]
    show ((((∑ t, (s.callback t).share).1
      + (s.receiver.share.1 + ((s.queue : Multiset Blk) + L .recv))).card : ℕ) : ℤ) = _
    rw [Multiset.card_add, Multiset.card_add, Multiset.card_add, Multiset.coe_card, hsum]
    omega

theorem Buffers.Inv.balanced_iff {L : PoolId → Multiset Blk} {s : Buffers T} (h : s.Inv L) :
    s.Balanced ↔ ∀ i, L i = 0 := by
  obtain ⟨hsend, hrecv⟩ := h.inUse
  constructor
  · intro hb i
    rw [← Multiset.card_eq_zero]
    cases i with
    | send =>
      have := hb.send
      omega
    | recv =>
      have := hb.recv
      omega
  · intro hL
    rw [hL] at hsend hrecv
    rw [Multiset.card_zero] at hsend hrecv
    refine ⟨by rw [hsend]; omega, by rw [hrecv]; omega, fun h1 h2 h3 h4 h5 => ⟨?_, ?_⟩⟩
    · rw [hsend, h1, h2]
      rfl
    · have hz : ∑ t, (s.callback t).share.1.card = 0 :=
        Finset.sum_eq_zero fun t _ => by rw [h4 t, Multiset.card_zero]
      rw [hrecv, h3, h5]
      simp only [hz, List.length_nil, Multiset.card_zero]
      rfl

/-- **Packet buffers are not leaked.**  Along every run, on either side, the pools are balanced in
every state if and only if no step of the run drops a block. -/
theorem buffers_balanced_iff (side : Side) (blockSize : ℕ) (cap : PoolId → ℕ)
    (pool : PoolId → Pool) (hp : ∀ i, poolInit blockSize (cap i) = some (pool i))
    (home : Blk → PoolId) (l : List (BufAct T)) (s : Buffers T)
    (hs : exec (Buffers.step side) (Buffers.init pool home) l = some s) :
    Always (Buffers.step side) Buffers.Balanced (Buffers.init pool home) l ↔
      Along (Buffers.step side) (KeepsBlocks side) (Buffers.init pool home) l := by
  refine always_iff_along (I := Buffers.Inv fun _ => 0) (fun s h => h.balanced_iff.mpr fun _ => rfl)
    (fun s a s' h hC hs => ?_) (fun s a s' h hC hs => ?_) (Buffers.init_inv hp home) hs
  · have h' := Buffers.step_inv h hs
    have e : (fun i => s.dropped side a i + 0) = fun _ => (0 : Multiset Blk) :=
      funext fun i => (add_zero _).trans (hC i)
    rw [e] at h'
    exact h'
  · intro hb
    apply hC
    intro i
    have := (Buffers.step_inv h hs).balanced_iff.mp hb i
    exact (add_zero _).symm.trans this

end

/-- a packet of the client is sent, its buffer comes back and serves the next packet -/
def sendTwice : List (BufAct (Fin 1)) :=
  [.sender .get, .sender (.alloc (some 7)), .sender .done, .sender (.next true),
   .sender (.next true), .sender (.next true), .sender (.next true), .sender (.datagramSend true),
   .stateChanged 7 .sent, .sender .get, .stateChanged 7 .acknowledged, .sender (.next true)]

theorem buffers_put_once_twice :
    ∃ s, exec (Buffers.step .client) (Buffers.init pktPools fun _ => .recv) sendTwice = some s ∧
      s.fatal = false ∧ s.trace.count (.handout 7) = 2 ∧ s.trace.count (.put 7) = 1 := by
  have h : (exec (Buffers.step .client) (Buffers.init pktPools fun _ => .recv) sendTwice).map
      (fun s => (s.trace.count (.handout 7), s.trace.count (.put 7))) = some (2, 1) := by decide
  obtain ⟨s, hs, e⟩ := Option.map_eq_some_iff.mp h
  simp only [Prod.mk.injEq] at e
  have hmain := buffers_put_once .client 2064 (fun _ => 0) pktPools (fun _ => rfl) (fun _ => .recv)
    sendTwice s hs
  exact ⟨s, hs, hmain.2.2.1, e.1, e.2⟩

/-- a datagram that the server receives goes through the queue to the TUN device -/
theorem buffers_balanced_one_datagram :
    Always (Buffers.step .server) Buffers.Balanced (Buffers.init pktPools fun _ => .send)
      [.callback (0 : Fin 1) (.received false), .callback 0 (.alloc (some 9)), .callback 0 .done,
       .callback 0 .copy, .callback 0 (.push true)] := by
  obtain ⟨s, hs⟩ := Option.isSome_iff_exists.mp (show (exec (Buffers.step .server)
    (Buffers.init pktPools fun _ => .send)
    [.callback (0 : Fin 1) (.received false), .callback 0 (.alloc (some 9)), .callback 0 .done,
     .callback 0 .copy, .callback 0 (.push true)]).isSome = true by decide)
  refine (buffers_balanced_iff .server 2064 (fun _ => 0) pktPools (fun _ => rfl) (fun _ => .send)
    _ s hs).mpr ?_
  have hkeep : ∀ (s : Buffers (Fin 1)) (a : CbAct), a ≠ .push false →
      KeepsBlocks .server s (.callback 0 a) := by
    intro s a ha i
    cases a with
    | push ok =>
      cases ok with
      | true => cases i <;> rfl
      | false => exact absurd rfl ha
    | _ => cases i <;> rfl
  refine ⟨hkeep _ _ fun e => ?_, fun _ _ => ⟨hkeep _ _ fun e => ?_, fun _ _ => ⟨hkeep _ _ fun e => ?_,
    fun _ _ => ⟨hkeep _ _ fun e => ?_, fun _ _ => ⟨hkeep _ _ fun e => ?_, fun _ _ => trivial⟩⟩⟩⟩⟩
  all_goals cases e

/-- the client's `read` fails: the block stays out.  So it does on the server when
`queue_try_push` finds the queue full. -/
theorem buffers_leak :
    (∃ s, exec (Buffers.step .client) (Buffers.init (T := Fin 1) pktPools fun _ => .send)
        [.sender .get, .sender (.alloc (some 7)), .sender .done, .sender (.next false)] = some s ∧
      ¬ s.Balanced) ∧
    ∃ s, exec (Buffers.step .server) (Buffers.init pktPools fun _ => .send)
        [.callback (0 : Fin 1) (.received false), .callback 0 (.alloc (some 9)), .callback 0 .done,
         .callback 0 .copy, .callback 0 (.push false)] = some s ∧ ¬ s.Balanced := by
  have h1 : (exec (Buffers.step .client) (Buffers.init (T := Fin 1) pktPools fun _ => .send)
      [.sender .get, .sender (.alloc (some 7)), .sender .done, .sender (.next false)]).map
      (fun s => ((s.pool .send).inUse, s.sender, s.accepted)) = some (1, .poll, []) := by decide
  have h2 : (exec (Buffers.step .server) (Buffers.init pktPools fun _ => .send)
      [.callback (0 : Fin 1) (.received false), .callback 0 (.alloc (some 9)), .callback 0 .done,
       .callback 0 .copy, .callback 0 (.push false)]).map
      (fun s => ((s.pool .recv).inUse, s.queue, s.callback 0, s.receiver))
      = some (1, [], .idle, .wait) := by decide
  refine ⟨?_, ?_⟩
  · obtain ⟨s, hs, e⟩ := Option.map_eq_some_iff.mp h1
    simp only [Prod.mk.injEq] at e
    obtain ⟨hu, hpc, hacc⟩ := e
    refine ⟨s, hs, fun hb => ?_⟩
    have := hb.send
    rw [hu, hpc, hacc] at this
    cases this
  · obtain ⟨s, hs, e⟩ := Option.map_eq_some_iff.mp h2
    simp only [Prod.mk.injEq] at e
    obtain ⟨hu, hq, hcb, hr⟩ := e
    refine ⟨s, hs, fun hb => ?_⟩
    have := hb.recv
    rw [hu, hq, hr, Finset.univ_unique, Finset.sum_singleton, Fin.default_eq_zero, hcb] at this
    cases this

end QuicVpn
