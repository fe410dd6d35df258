import QuicVpn.Common.InAddr
import QuicVpn.Lib.Layout
import QuicVpn.Packet.Flow

/-!
# What comes out of the tunnel

The receive path of both sides with the data in it: a DATAGRAM_RECEIVED callback copies the datagram
into a block of the receive pool and pushes it, and `thread_pkt_data_recv` checks its IP header and
writes it to the TUN device.  The blocks move as in `Buffers.step`; block allocation succeeds, and
the queue is never full.

* `fillReceived`       how either side fills the block;
* `pktDataIphdr`       the check of the IP header;
* `Tunnel.step`        the two parties, with the callbacks of any number of workers `T`;
* `Tunnel.Delivers`    no callback writes past the block, and what is written to the TUN device is,
                       for each worker, the IPv4 datagrams it received, in their order, and nothing
                       else;
* `tunnel_delivers_iff`   this holds along a run exactly when no datagram that is copied is longer
                       than the block.

With one worker the datagrams of all connections are one sequence of events.
-/

set_option linter.unusedSectionVars false

namespace QuicVpn
open Conc

/-! ## packets -/

/-- `DATAPKTBUF` -/
def datapktbuf : ℕ := 2048

/-- `pkt_data_t`; its `buf.Buffer` is always the address of `data` -/
structure PktData where
  length : BitVec 32
  data : Record datapktbuf

/-- the bytes `buf` describes -/
def PktData.bytes (pkt : PktData) : List Byte := pkt.data.1.take pkt.length.toNat

/-- the `QUIC_BUFFER` of a DATAGRAM_RECEIVED event; `null` says that its `Buffer` is NULL -/
structure Datagram where
  bytes : List Byte
  lt : bytes.length < 2 ^ 32
  null : Bool
  empty : null = true → bytes = []

def Datagram.length (d : Datagram) : BitVec 32 := BitVec.ofNat 32 d.bytes.length

/-- the callback returns at once -/
def Datagram.ignored (d : Datagram) : Side → Bool
  | .client => d.null || d.length == 0
  | .server => d.length == 0

def PktData.dataRegion : Region datapktbuf := ⟨0, datapktbuf, le_of_eq (Nat.zero_add _)⟩

/-- the callback fills the block; `memcpy` takes all of the datagram, and the model as much of it as
there is room for -/
def fillReceived (side : Side) (pkt : PktData) (d : Datagram) : PktData :=
  match side with
  | .client =>
    let pkt := { pkt with length := d.length }
    { pkt with data := PktData.dataRegion.write pkt.data (d.bytes.take pkt.length.toNat) }
  | .server =>
    let pkt := { pkt with data := PktData.dataRegion.write pkt.data (d.bytes.take d.length.toNat) }
    { pkt with length := d.length }

theorem Datagram.length_toNat (d : Datagram) : d.length.toNat = d.bytes.length := by
  rw [Datagram.length, BitVec.toNat_ofNat, Nat.mod_eq_of_lt d.lt]

/-- what is written to the front of the data, and after it what was there before -/
theorem PktData.write_data (r : Record datapktbuf) {x : List Byte} (h : x.length ≤ datapktbuf) :
    (PktData.dataRegion.write r x).1 = x ++ r.1.drop x.length := by
  have hg := PktData.dataRegion.get_write r (show x.length ≤ _ from h)
  have hget : ∀ r : Record datapktbuf, PktData.dataRegion.get r = r.1 := by
    intro r
    show List.take datapktbuf (List.drop 0 r.1) = r.1
    rw [List.drop_zero]
    exact List.take_of_length_le r.2.le
  rw [hget, hget] at hg
  exact hg

/-- a block holds what was copied into it, if it had room for it -/
theorem fillReceived_bytes (side : Side) (pkt : PktData) {d : Datagram}
    (h : d.bytes.length ≤ datapktbuf) : (fillReceived side pkt d).bytes = d.bytes := by
  have hall : d.bytes.take d.length.toNat = d.bytes := by
    rw [d.length_toNat, List.take_length]
  have hcopy : (PktData.dataRegion.write pkt.data d.bytes).1.take d.length.toNat = d.bytes := by
    rw [PktData.write_data pkt.data h, d.length_toNat, List.take_left]
  cases side with
  | client =>
    show (PktData.dataRegion.write pkt.data (d.bytes.take d.length.toNat)).1.take d.length.toNat = _
    rw [hall]
    exact hcopy
  | server =>
    show (PktData.dataRegion.write pkt.data (d.bytes.take d.length.toNat)).1.take d.length.toNat = _
    rw [hall]
    exact hcopy

theorem fillReceived_length (side : Side) (pkt : PktData) (d : Datagram) :
    (fillReceived side pkt d).length.toNat = d.bytes.length := by
  cases side <;> exact d.length_toNat

/-! ## the IP header -/

/-- `-ENOSPC` -/
def enospc : ℤ := -28

/-- `sizeof(struct iphdr)` -/
def sizeofIphdr : ℕ := 20

/-- the first byte of `struct iphdr`, with the header length below and the version above -/
def Iphdr.versionIhl : Field datapktbuf 8 := ⟨0, rfl, by decide⟩
def Iphdr.saddr : Field datapktbuf 32 := ⟨12, rfl, by decide⟩
def Iphdr.daddr : Field datapktbuf 32 := ⟨16, rfl, by decide⟩

def Iphdr.version (pkt : Record datapktbuf) : BitVec 4 :=
  (Iphdr.versionIhl.get pkt).extractLsb' 4 4

/-- `pkt_data_iphdr`: the source and the destination, or the error -/
def pktDataIphdr (pkt : Record datapktbuf) (len : ℤ) : Except ℤ (InAddr × InAddr) :=
  if len < sizeofIphdr then .error einval
  else if Iphdr.version pkt ≠ 4 then .error enospc
  else .ok (Iphdr.saddr.get pkt, Iphdr.daddr.get pkt)

/-- at least 20 bytes, and version 4 in the upper half of the first one -/
def isIpv4 (x : List Byte) : Bool := decide (20 ≤ x.length) && decide ((x.headD 0).toNat / 16 = 4)

theorem Iphdr.version_toNat (pkt : Record datapktbuf) :
    (Iphdr.version pkt).toNat = (pkt.1.headD 0).toNat / 16 := by
  obtain ⟨x, l, hx⟩ := List.exists_cons_of_length_eq_add_one pkt.2
  have hget : Iphdr.versionIhl.region.get pkt = [x] := by
    show (pkt.1.drop 0).take 1 = [x]
    rw [hx]
    rfl
  have hlt : x.toNat < 256 := x.toNat_lt
  rw [Iphdr.version, Field.get, hget, hx]
  show ((BitVec.ofNat 8 (x.toNat + 256 * 0)).extractLsb' 4 4).toNat = x.toNat / 16
  rw [BitVec.extractLsb'_toNat, BitVec.toNat_ofNat, Nat.shiftRight_eq_div_pow]
  omega

/-- the check of the receive thread takes the IPv4 datagrams -/
theorem pktDataIphdr_isOk {pkt : PktData} (h : pkt.length.toNat ≤ datapktbuf) :
    (pktDataIphdr pkt.data pkt.length.toNat).isOk = isIpv4 pkt.bytes := by
  have hlen : pkt.bytes.length = pkt.length.toNat := by
    rw [PktData.bytes, List.length_take, pkt.data.2, Nat.min_eq_left h]
  unfold pktDataIphdr isIpv4
  by_cases hs : pkt.length.toNat < 20
  · rw [if_pos (by exact_mod_cast hs), decide_eq_false (by omega)]
    rfl
  · have hhead : pkt.bytes.headD 0 = pkt.data.1.headD 0 := by
      obtain ⟨x, l, hx⟩ := List.exists_cons_of_length_eq_add_one pkt.data.2
      obtain ⟨m, hm⟩ : ∃ m, pkt.length.toNat = m + 1 := ⟨pkt.length.toNat - 1, by omega⟩
      rw [PktData.bytes, hm, hx]
      rfl
    have hv : Iphdr.version pkt.data = 4 ↔ (pkt.data.1.headD 0).toNat / 16 = 4 := by
      rw [← Iphdr.version_toNat, ← BitVec.toNat_inj]
      rfl
    rw [if_neg (by exact_mod_cast hs), decide_eq_true (by omega), hhead, Bool.true_and]
    by_cases h4 : Iphdr.version pkt.data = 4
    · rw [if_neg (not_not.mpr h4), decide_eq_true (hv.mp h4)]
      rfl
    · rw [if_pos h4, decide_eq_false fun e => h4 (hv.mpr e)]
      rfl

/-! ## the system -/

/-- the blocks, their contents and the events in progress.  `origin` is the worker that filled a
block, `received` the datagrams of each worker, `written` what the receive thread has passed to
`write`, and `overflow` notes a copy past the end of a block. -/
structure Tunnel (T : Type) where
  bufs : Buffers T
  mem : Blk → PktData
  event : T → Datagram
  origin : Blk → Option T
  received : T → List (List Byte)
  written : List (Option T × List Byte)
  overflow : Bool

inductive TunnelAct (T : Type) where
  | received (t : T) (d : Datagram)
  | alloc (t : T) (b : Blk)
  | done (t : T)
  | copy (t : T)
  | push (t : T)
  | pop
  | check
  | write
  | put

section
variable {T : Type} [DecidableEq T]

/-- a DATAGRAM_RECEIVED event for the worker `t` -/
def Tunnel.arrive (s : Tunnel T) (t : T) (d : Datagram) : Tunnel T :=
  { s with
    event := Function.update s.event t d
    received := Function.update s.received t (s.received t ++ [d.bytes]) }

/-- the worker `t` copies its datagram into the block `b` -/
def Tunnel.fill (side : Side) (s : Tunnel T) (t : T) (b : Blk) : Tunnel T :=
  { s with
    mem := Function.update s.mem b (fillReceived side (s.mem b) (s.event t))
    origin := Function.update s.origin b (some t)
    overflow := s.overflow || decide (datapktbuf < (s.event t).bytes.length) }

/-- the step `a` of the blocks, and what comes with it -/
def Tunnel.along (side : Side) (s : Tunnel T) (a : BufAct T) : Option (Tunnel T) :=
  (s.bufs.step side a).map fun bufs => { s with bufs := bufs }

def Tunnel.step (side : Side) (s : Tunnel T) : TunnelAct T → Option (Tunnel T)
  | .received t d =>
    if d.ignored side then (s.arrive t d).along side (.callback t (.received true))
    else
      match poolTryGetLocked (s.bufs.pool .recv) with
      | (.full, _) => none
      | _ => (s.arrive t d).along side (.callback t (.received false))
  | .alloc t b => s.along side (.callback t (.alloc (some b)))
  | .done t =>
    match s.bufs.callback t with
    | .allocated (some _) => s.along side (.callback t .done)
    | _ => none
  | .copy t =>
    match s.bufs.callback t with
    | .copy b => (s.fill side t b).along side (.callback t .copy)
    | _ => none
  | .push t => s.along side (.callback t (.push true))
  | .pop => s.along side (.receiver .pop)
  | .check =>
    match s.bufs.receiver with
    | .iphdr b =>
      s.along side (.receiver (.next (pktDataIphdr (s.mem b).data (s.mem b).length.toNat).isOk))
    | _ => none
  | .write =>
    match s.bufs.receiver with
    | .write b =>
      ({ s with written := s.written ++ [(s.origin b, (s.mem b).bytes)] } : Tunnel T).along side
        (.receiver (.next true))
    | _ => none
  | .put => s.along side (.receiver .put)

def Datagram.none : Datagram := ⟨[], by decide, true, fun _ => rfl⟩

/-- nothing has been received; the contents of the memory are arbitrary -/
def Tunnel.init (pool : PoolId → Pool) (home : Blk → PoolId) (mem : Blk → PktData) : Tunnel T :=
  ⟨Buffers.init pool home, mem, fun _ => .none, fun _ => Option.none, fun _ => [], [], false⟩

/-- what was written to the TUN device of the datagrams of `t` -/
def Tunnel.writtenOf (s : Tunnel T) (t : T) : List (List Byte) :=
  (s.written.filter fun w => w.1 = some t).map Prod.snd

/-- no datagram is on its way -/
structure Tunnel.Idle (s : Tunnel T) : Prop where
  callbacks : ∀ t, s.bufs.callback t = .idle
  queue : s.bufs.queue = []
  receiver : s.bufs.receiver = .wait

structure Tunnel.Delivers (s : Tunnel T) : Prop where
  inBounds : s.overflow = false
  /-- nothing is written but what a worker has received -/
  tagged : ∀ w ∈ s.written, ∃ t, w.1 = some t
  inOrder : ∀ t, s.writtenOf t <+: (s.received t).filter isIpv4
  all : s.Idle → ∀ t, s.writtenOf t = (s.received t).filter isIpv4

/-- the worker whose callback copies -/
def TunnelAct.copier : TunnelAct T → Option T
  | .copy t => some t
  | _ => Option.none

/-- a callback that copies has a datagram that fits into the block -/
def Tunnel.Fits (s : Tunnel T) (a : TunnelAct T) : Prop :=
  ∀ t ∈ a.copier, (s.event t).bytes.length ≤ datapktbuf

instance (s : Tunnel T) (a : TunnelAct T) : Decidable (s.Fits a) :=
  inferInstanceAs (Decidable (∀ t ∈ a.copier, _))

/-! ## what a step can do -/

/-- a datagram is in the hands of the callback, and not yet in a block -/
def CbPt.early : CbPt → Bool
  | .reserved | .allocated _ | .copy _ => true
  | _ => false

/-- the block the receive thread has still to write, or to drop -/
def RecvPt.ahead : RecvPt → List Blk
  | .iphdr b | .write b => [b]
  | _ => []

/-- where the blocks of the receive path are -/
structure Buffers.At (s : Buffers T) (cb : T → CbPt) (queue : List Blk) (recv : RecvPt) : Prop where
  callback : s.callback = cb
  queue : s.queue = queue
  receiver : s.receiver = recv

inductive Tunnel.Move (side : Side) (s : Tunnel T) : TunnelAct T → Tunnel T → Prop where
  | ignored {t : T} {d : Datagram} (hc : s.bufs.callback t = .idle) (hd : d.ignored side = true) :
    Move side s (.received t d) (s.arrive t d)
  | begin {t : T} {d : Datagram} {bufs : Buffers T} {q : CbPt} (hc : s.bufs.callback t = .idle)
      (hq : q.early = true)
      (hat : bufs.At (Function.update s.bufs.callback t q) s.bufs.queue s.bufs.receiver) :
    Move side s (.received t d) { s.arrive t d with bufs := bufs }
  | onward {a : TunnelAct T} {t : T} {bufs : Buffers T} {q : CbPt} (ha : a.copier = Option.none)
      (hc : (s.bufs.callback t).early = true) (hq : q.early = true)
      (hat : bufs.At (Function.update s.bufs.callback t q) s.bufs.queue s.bufs.receiver) :
    Move side s a { s with bufs := bufs }
  | copy {t : T} {b : Blk} {bufs : Buffers T} (hc : s.bufs.callback t = .copy b)
      (hat : bufs.At (Function.update s.bufs.callback t (.push b)) s.bufs.queue s.bufs.receiver) :
    Move side s (.copy t) { s.fill side t b with bufs := bufs }
  | push {t : T} {b : Blk} {bufs : Buffers T} (hc : s.bufs.callback t = .push b)
      (hat : bufs.At (Function.update s.bufs.callback t .idle) (s.bufs.queue ++ [b])
        s.bufs.receiver) :
    Move side s (.push t) { s with bufs := bufs }
  | pop {b : Blk} {l : List Blk} {bufs : Buffers T} (hr : s.bufs.receiver = .wait)
      (hl : s.bufs.queue = b :: l) (hat : bufs.At s.bufs.callback l (.iphdr b)) :
    Move side s .pop { s with bufs := bufs }
  | accept {b : Blk} {bufs : Buffers T} (hr : s.bufs.receiver = .iphdr b)
      (hok : (pktDataIphdr (s.mem b).data (s.mem b).length.toNat).isOk = true)
      (hat : bufs.At s.bufs.callback s.bufs.queue (.write b)) :
    Move side s .check { s with bufs := bufs }
  | reject {b : Blk} {bufs : Buffers T} (hr : s.bufs.receiver = .iphdr b)
      (hok : (pktDataIphdr (s.mem b).data (s.mem b).length.toNat).isOk = false)
      (hat : bufs.At s.bufs.callback s.bufs.queue (.put b)) :
    Move side s .check { s with bufs := bufs }
  | write {b : Blk} {bufs : Buffers T} (hr : s.bufs.receiver = .write b)
      (hat : bufs.At s.bufs.callback s.bufs.queue (.put b)) :
    Move side s .write
      { s with bufs := bufs, written := s.written ++ [(s.origin b, (s.mem b).bytes)] }
  | put {b : Blk} {bufs : Buffers T} (hr : s.bufs.receiver = .put b)
      (hat : bufs.At s.bufs.callback s.bufs.queue .wait) :
    Move side s .put { s with bufs := bufs }

section
variable {side : Side} {s s' : Tunnel T}

theorem Tunnel.along_some {a : BufAct T} (h : s.along side a = some s') :
    ∃ bufs, s.bufs.step side a = some bufs ∧ s' = { s with bufs := bufs } := by
  obtain ⟨bufs, hb, e⟩ := Option.map_eq_some_iff.mp h
  exact ⟨bufs, hb, e.symm⟩

/-- a callback that has a block to get -/
theorem Buffers.received_at {b b' : Buffers T} {t : T}
    (hfull : (poolTryGetLocked (b.pool .recv)).1 ≠ .full)
    (h : b.step side (.callback t (.received false)) = some b') :
    b.callback t = .idle ∧ ∃ q : CbPt, q.early = true ∧
      b'.At (Function.update b.callback t q) b.queue b.receiver := by
  simp only [Buffers.step, Buffers.callbackStep, Option.ite_none_right_eq_some, Bool.false_eq_true,
    if_false] at h
  obtain ⟨hc, h⟩ := h
  refine ⟨hc, ?_⟩
  split at h
  · next c p hg => exact Option.some.inj h ▸ ⟨.copy c, rfl, rfl, rfl, rfl⟩
  · next p hg => exact absurd (congrArg Prod.fst hg) hfull
  · next p hg => exact Option.some.inj h ▸ ⟨.reserved, rfl, rfl, rfl, rfl⟩

theorem Tunnel.step_move {a : TunnelAct T} (hs : s.step side a = some s') : s.Move side a s' := by
  cases a with
  | received t d =>
    simp only [Tunnel.step] at hs
    split at hs
    · next hd =>
      obtain ⟨bufs, hb, rfl⟩ := Tunnel.along_some hs
      simp only [Tunnel.arrive, Buffers.step, Buffers.callbackStep, Option.ite_none_right_eq_some,
        if_true] at hb
      obtain ⟨hc, hb⟩ := hb
      obtain rfl := Option.some.inj hb
      exact .ignored hc hd
    · next hd =>
      split at hs
      · exact absurd hs (Option.some_ne_none s').symm
      · next hfull =>
        obtain ⟨bufs, hb, rfl⟩ := Tunnel.along_some hs
        obtain ⟨hc, q, hq, hat⟩ := Buffers.received_at (fun e => hfull _ (Prod.ext e rfl)) hb
        exact .begin hc hq hat
  | alloc t b =>
    obtain ⟨bufs, hb, rfl⟩ := Tunnel.along_some hs
    simp only [Buffers.step, Buffers.callbackStep, Option.ite_none_right_eq_some] at hb
    obtain ⟨⟨hc, -⟩, hb⟩ := hb
    obtain rfl := Option.some.inj hb
    exact .onward rfl (by rw [hc]; rfl) rfl ⟨rfl, rfl, rfl⟩
  | done t =>
    simp only [Tunnel.step] at hs
    split at hs
    case h_2 => exact absurd hs (Option.some_ne_none s').symm
    next b hc =>
      obtain ⟨bufs, hb, rfl⟩ := Tunnel.along_some hs
      simp only [Buffers.step, Buffers.callbackStep, hc] at hb
      obtain rfl := Option.some.inj hb
      exact .onward rfl (by rw [hc]; rfl) rfl ⟨rfl, rfl, rfl⟩
  | copy t =>
    simp only [Tunnel.step] at hs
    split at hs
    case h_2 => exact absurd hs (Option.some_ne_none s').symm
    next b hc =>
      obtain ⟨bufs, hb, rfl⟩ := Tunnel.along_some hs
      simp only [Tunnel.fill, Buffers.step, Buffers.callbackStep, hc] at hb
      obtain rfl := Option.some.inj hb
      exact .copy hc ⟨rfl, rfl, rfl⟩
  | push t =>
    obtain ⟨bufs, hb, rfl⟩ := Tunnel.along_some hs
    simp only [Buffers.step, Buffers.callbackStep, if_true] at hb
    split at hb
    case h_2 => exact absurd hb (Option.some_ne_none bufs).symm
    next b hc =>
      obtain rfl := Option.some.inj hb
      exact .push hc ⟨rfl, rfl, rfl⟩
  | pop =>
    obtain ⟨bufs, hb, rfl⟩ := Tunnel.along_some hs
    simp only [Buffers.step, Buffers.recvStep] at hb
    split at hb
    case h_2 => exact absurd hb (Option.some_ne_none bufs).symm
    next b l hr hl =>
      obtain rfl := Option.some.inj hb
      exact .pop hr hl ⟨rfl, rfl, rfl⟩
  | check =>
    simp only [Tunnel.step] at hs
    split at hs
    case h_2 => exact absurd hs (Option.some_ne_none s').symm
    next b hr =>
      obtain ⟨bufs, hb, rfl⟩ := Tunnel.along_some hs
      simp only [Buffers.step, Buffers.recvStep, hr] at hb
      obtain rfl := Option.some.inj hb
      cases hok : (pktDataIphdr (s.mem b).data (s.mem b).length.toNat).isOk with
      | true => exact .accept hr hok ⟨rfl, rfl, rfl⟩
      | false => exact .reject hr hok ⟨rfl, rfl, rfl⟩
  | write =>
    simp only [Tunnel.step] at hs
    split at hs
    case h_2 => exact absurd hs (Option.some_ne_none s').symm
    next b hr =>
      obtain ⟨bufs, hb, rfl⟩ := Tunnel.along_some hs
      simp only [Buffers.step, Buffers.recvStep, hr] at hb
      obtain rfl := Option.some.inj hb
      exact .write hr ⟨rfl, rfl, rfl⟩
  | put =>
    obtain ⟨bufs, hb, rfl⟩ := Tunnel.along_some hs
    simp only [Buffers.step, Buffers.recvStep] at hb
    split at hb
    case h_2 => exact absurd hb (Option.some_ne_none bufs).symm
    next b hr =>
      obtain rfl := Option.some.inj hb
      exact .put hr ⟨rfl, rfl, rfl⟩

end

end

/-! ## the invariant -/

section
variable {T : Type} [Fintype T] [DecidableEq T]

/-- the datagrams of `t` that are in blocks on their way, in order -/
def Tunnel.flight (s : Tunnel T) (t : T) : List (List Byte) :=
  ((s.bufs.receiver.ahead ++ s.bufs.queue).filter fun b => s.origin b = some t).map
    fun b => (s.mem b).bytes

/-- the datagram of `t` that its callback still has -/
def Tunnel.hand (s : Tunnel T) (t : T) : List (List Byte) :=
  match s.bufs.callback t with
  | .idle => []
  | _ => [(s.event t).bytes]

structure Tunnel.Inv (s : Tunnel T) : Prop where
  bufs : s.bufs.Inv fun _ => 0
  overflow : s.overflow = false
  pushed : ∀ t b, s.bufs.callback t = .push b → s.origin b = some t ∧
    (s.mem b).bytes = (s.event t).bytes ∧ (s.mem b).length.toNat ≤ datapktbuf
  loaded : ∀ b ∈ s.bufs.receiver.ahead ++ s.bufs.queue,
    (s.mem b).length.toNat ≤ datapktbuf ∧ ∃ t, s.origin b = some t
  checked : ∀ b, s.bufs.receiver = .write b → isIpv4 (s.mem b).bytes = true
  tagged : ∀ w ∈ s.written, ∃ t, w.1 = some t
  order : ∀ t, (s.received t).filter isIpv4 =
    s.writtenOf t ++ (s.flight t ++ s.hand t).filter isIpv4

section
variable {side : Side} {s s' : Tunnel T}

theorem Tunnel.Inv.delivers (hi : s.Inv) : s.Delivers := by
  refine ⟨hi.overflow, hi.tagged, fun t => ?_, fun hidle t => ?_⟩
  · rw [hi.order t]
    exact List.prefix_append _ _
  · have hf : s.flight t = [] := by
      unfold Tunnel.flight
      rw [hidle.queue, hidle.receiver]
      rfl
    have hh : s.hand t = [] := by
      unfold Tunnel.hand
      rw [hidle.callbacks t]
    rw [hi.order t, hf, hh]
    exact (List.append_nil _).symm

/-- a block that is being copied to is nowhere else on the receive path -/
theorem Buffers.Inv.copy_apart {b : Buffers T} {L : PoolId → Multiset Blk} (h : b.Inv L) {t : T}
    {c : Blk} (hc : b.callback t = .copy c) :
    c ∉ b.receiver.ahead ++ b.queue ∧ ∀ u, b.callback u ≠ .push c := by
  have hn := (h.ledger.ok .recv).nodup
  have hmem : c ∈ (CbPt.copy c).share.1 := Multiset.mem_singleton_self c
  have hsum : (∑ u, (b.callback u).share).1 = ∑ u, (b.callback u).share.1 := Prod.fst_sum
  obtain ⟨hcb, -, hdis⟩ := Multiset.nodup_add.mp hn
  have hin : c ∈ (∑ u, (b.callback u).share).1 := by
    rw [hsum]
    exact mem_share (fun q : CbPt => q.share.1) b.callback t (hc ▸ hmem)
  have hout := Multiset.disjoint_left.mp hdis hin
  rw [Prod.fst_add, Prod.fst_add, Multiset.mem_add, Multiset.mem_add, not_or, not_or] at hout
  refine ⟨fun hm => ?_, fun u hu => ?_⟩
  · rcases List.mem_append.mp hm with hm | hm
    · apply hout.1
      cases hr : b.receiver with
      | iphdr d =>
        rw [hr] at hm
        exact Multiset.mem_singleton.mpr (List.mem_singleton.mp hm)
      | write d =>
        rw [hr] at hm
        exact Multiset.mem_singleton.mpr (List.mem_singleton.mp hm)
      | _ =>
        rw [hr] at hm
        exact absurd hm List.not_mem_nil
    · exact hout.2.1 (Multiset.mem_coe.mpr hm)
  · rw [hsum] at hcb
    have hut : u = t := owner_unique (fun q : CbPt => q.share.1) b.callback hcb (b := c)
      (by rw [hu]; exact Multiset.mem_singleton_self c) (by rw [hc]; exact hmem)
    rw [hut, hc] at hu
    exact CbPt.noConfusion hu

theorem Tunnel.along_bufs {a : BufAct T} (hs : s.along side a = some s')
    (h : s.bufs.Inv fun _ => 0) (hk : KeepsBlocks side s.bufs a) : s'.bufs.Inv fun _ => 0 := by
  obtain ⟨bufs, hb, rfl⟩ := Tunnel.along_some hs
  have hi := Buffers.step_inv h hb
  have e : (fun i => s.bufs.dropped side a i + 0) = fun _ => (0 : Multiset Blk) :=
    funext fun i => (add_zero _).trans (hk i)
  exact e ▸ hi

/-- the receive path drops no block -/
theorem Tunnel.step_bufs {a : TunnelAct T} (h : s.bufs.Inv fun _ => 0)
    (hs : s.step side a = some s') : s'.bufs.Inv fun _ => 0 := by
  cases a with
  | received t d =>
    simp only [Tunnel.step] at hs
    split at hs
    · exact Tunnel.along_bufs hs h fun i => by cases i <;> rfl
    · split at hs
      · exact absurd hs (Option.some_ne_none s').symm
      · exact Tunnel.along_bufs hs h fun i => by cases i <;> rfl
  | alloc t b => exact Tunnel.along_bufs hs h fun i => by cases i <;> rfl
  | done t =>
    simp only [Tunnel.step] at hs
    split at hs
    · exact Tunnel.along_bufs hs h fun i => by cases i <;> rfl
    · exact absurd hs (Option.some_ne_none s').symm
  | copy t =>
    simp only [Tunnel.step] at hs
    split at hs
    · exact Tunnel.along_bufs hs h fun i => by cases i <;> rfl
    · exact absurd hs (Option.some_ne_none s').symm
  | push t => exact Tunnel.along_bufs hs h fun i => by cases i <;> rfl
  | pop => exact Tunnel.along_bufs hs h fun i => by cases i <;> rfl
  | check =>
    simp only [Tunnel.step] at hs
    split at hs
    · exact Tunnel.along_bufs hs h fun i => by cases i <;> rfl
    · exact absurd hs (Option.some_ne_none s').symm
  | write =>
    simp only [Tunnel.step] at hs
    split at hs
    · exact Tunnel.along_bufs hs h fun i => by cases i <;> rfl
    · exact absurd hs (Option.some_ne_none s').symm
  | put => exact Tunnel.along_bufs hs h fun i => by cases i <;> rfl

/-! ## every step -/

theorem isIpv4_ignored {d : Datagram} (h : d.ignored side = true) : isIpv4 d.bytes = false := by
  have hz : d.length = 0 → d.bytes = [] := by
    intro e
    have := d.length_toNat
    rw [e] at this
    exact List.eq_nil_of_length_eq_zero this.symm
  have hnil : d.bytes = [] := by
    cases side with
    | client =>
      rcases Bool.or_eq_true_iff.mp h with h | h
      · exact d.empty h
      · exact hz (beq_iff_eq.mp h)
    | server => exact hz (beq_iff_eq.mp h)
  rw [hnil]
  rfl

theorem CbPt.early_ne {q : CbPt} (h : q.early = true) : q ≠ .idle ∧ ∀ b, q ≠ .push b := by
  cases q with
  | idle => exact absurd h Bool.false_ne_true
  | push b => exact absurd h Bool.false_ne_true
  | _ => exact ⟨nofun, nofun⟩

theorem Tunnel.hand_idle {t : T} (h : s.bufs.callback t = .idle) : s.hand t = [] := by
  unfold Tunnel.hand
  rw [h]

theorem Tunnel.hand_busy {t : T} (h : s.bufs.callback t ≠ .idle) :
    s.hand t = [(s.event t).bytes] := by
  unfold Tunnel.hand
  split
  · next hc => exact absurd hc h
  · rfl

/-- the callback of a worker and its datagram decide what it has in hand -/
theorem Tunnel.hand_congr {u : T} (hc : s'.bufs.callback u = s.bufs.callback u)
    (he : s'.event u = s.event u) : s'.hand u = s.hand u := by
  unfold Tunnel.hand
  rw [hc, he]

/-- the blocks on their way and their contents decide what is in flight -/
theorem Tunnel.flight_congr {u : T}
    (hl : s'.bufs.receiver.ahead ++ s'.bufs.queue = s.bufs.receiver.ahead ++ s.bufs.queue)
    (hm : ∀ b ∈ s.bufs.receiver.ahead ++ s.bufs.queue,
      s'.mem b = s.mem b ∧ s'.origin b = s.origin b) : s'.flight u = s.flight u := by
  unfold Tunnel.flight
  rw [hl, List.filter_congr fun b hb => by rw [(hm b hb).2]]
  refine List.map_congr_left fun b hb => ?_
  rw [(hm b (List.mem_filter.mp hb).1).1]

/-- the block `b` comes out at the end of the flight -/
theorem Tunnel.flight_head {b : Blk} {u : T} (hr : s.bufs.receiver.ahead = [b])
    (hr' : s'.bufs.receiver.ahead = []) (hq : s'.bufs.queue = s.bufs.queue)
    (hm : s'.mem = s.mem) (ho : s'.origin = s.origin) :
    s.flight u = (if s.origin b = some u then [(s.mem b).bytes] else []) ++ s'.flight u := by
  unfold Tunnel.flight
  rw [hr, hr', hq, hm, ho, List.singleton_append, List.nil_append, List.filter_cons]
  split
  · next h => simp only [decide_eq_true_eq] at h; rw [if_pos h]; rfl
  · next h => simp only [decide_eq_true_eq] at h; rw [if_neg h]; rfl

/-- `t` goes on to `q`, and the others stay where they are -/
theorem Buffers.At.callback_of_ne {b b' : Buffers T} {t u : T} {q : CbPt} {l : List Blk}
    {r : RecvPt} (h : b'.At (Function.update b.callback t q) l r) (hu : u ≠ t) :
    b'.callback u = b.callback u := by
  rw [h.callback, Function.update_of_ne hu]

theorem Buffers.At.callback_self {b b' : Buffers T} {t : T} {q : CbPt} {l : List Blk} {r : RecvPt}
    (h : b'.At (Function.update b.callback t q) l r) : b'.callback t = q := by
  rw [h.callback, Function.update_self]

/-- a worker without a datagram gets one, and its callback returns or goes on -/
theorem Tunnel.Inv.arrive (hi : s.Inv) {t : T} {d : Datagram} {bufs : Buffers T} {q : CbPt}
    (hc : s.bufs.callback t = .idle) (hb : bufs.Inv fun _ => 0)
    (hat : bufs.At (Function.update s.bufs.callback t q) s.bufs.queue s.bufs.receiver)
    (hq : q.early = true ∨ q = .idle ∧ isIpv4 d.bytes = false) :
    Tunnel.Inv { s.arrive t d with bufs := bufs } := by
  have hpush : ∀ b, q ≠ .push b := by
    intro b e
    rcases hq with hq | ⟨hq, -⟩
    · exact (CbPt.early_ne hq).2 b e
    · exact CbPt.noConfusion (hq.symm.trans e)
  refine ⟨hb, hi.overflow, fun u b hu => ?_, ?_, fun b hr => ?_, hi.tagged, fun u => ?_⟩
  · have hut : u ≠ t := by
      rintro rfl
      exact hpush b (hat.callback_self.symm.trans hu)
    show _ ∧ _ = (Function.update s.event t d u).bytes ∧ _
    rw [Function.update_of_ne hut]
    exact hi.pushed u b ((hat.callback_of_ne hut).symm.trans hu)
  · show ∀ b ∈ bufs.receiver.ahead ++ bufs.queue, _
    rw [hat.queue, hat.receiver]
    exact hi.loaded
  · exact hi.checked b (hat.receiver.symm.trans hr)
  · have hf : Tunnel.flight { s.arrive t d with bufs := bufs } u = s.flight u := by
      refine Tunnel.flight_congr ?_ fun b _ => ⟨rfl, rfl⟩
      show bufs.receiver.ahead ++ bufs.queue = _
      rw [hat.queue, hat.receiver]
    by_cases hut : u = t
    · subst hut
      show (Function.update s.received u _ u).filter isIpv4 = s.writtenOf u ++ _
      rw [Function.update_self, List.filter_append, hi.order u, hf, Tunnel.hand_idle hc,
        List.append_nil, List.filter_append, List.append_assoc]
      congr 2
      rcases hq with hq | ⟨hq, hd⟩
      · rw [Tunnel.hand_busy]
        · show _ = [(Function.update s.event u d u).bytes].filter isIpv4
          rw [Function.update_self]
        · rw [hat.callback_self]
          exact (CbPt.early_ne hq).1
      · rw [Tunnel.hand_idle (hat.callback_self.trans hq), List.filter_singleton, hd]
        rfl
    · show (Function.update s.received t _ u).filter isIpv4 = s.writtenOf u ++ _
      rw [Function.update_of_ne hut, hf, Tunnel.hand_congr (s := s) (hat.callback_of_ne hut)
        (Function.update_of_ne hut ..)]
      exact hi.order u

/-- the callback of `t` gets its block -/
theorem Tunnel.Inv.onward (hi : s.Inv) {t : T} {bufs : Buffers T} {q : CbPt}
    (hc : (s.bufs.callback t).early = true) (hq : q.early = true) (hb : bufs.Inv fun _ => 0)
    (hat : bufs.At (Function.update s.bufs.callback t q) s.bufs.queue s.bufs.receiver) :
    Tunnel.Inv { s with bufs := bufs } := by
  refine ⟨hb, hi.overflow, fun u b hu => ?_, ?_, fun b hr => ?_, hi.tagged, fun u => ?_⟩
  · have hut : u ≠ t := by
      rintro rfl
      exact (CbPt.early_ne hq).2 b (hat.callback_self.symm.trans hu)
    exact hi.pushed u b ((hat.callback_of_ne hut).symm.trans hu)
  · show ∀ b ∈ bufs.receiver.ahead ++ bufs.queue, _
    rw [hat.queue, hat.receiver]
    exact hi.loaded
  · exact hi.checked b (hat.receiver.symm.trans hr)
  · have hf : Tunnel.flight { s with bufs := bufs } u = s.flight u := by
      refine Tunnel.flight_congr ?_ fun b _ => ⟨rfl, rfl⟩
      show bufs.receiver.ahead ++ bufs.queue = _
      rw [hat.queue, hat.receiver]
    have hh : Tunnel.hand { s with bufs := bufs } u = s.hand u := by
      by_cases hut : u = t
      · subst hut
        rw [Tunnel.hand_busy (CbPt.early_ne hc).1, Tunnel.hand_busy]
        rw [hat.callback_self]
        exact (CbPt.early_ne hq).1
      · exact Tunnel.hand_congr (hat.callback_of_ne hut) rfl
    rw [hf, hh]
    exact hi.order u

/-- the datagram goes into the block, and fits -/
theorem Tunnel.Inv.copy (hi : s.Inv) {t : T} {b : Blk} {bufs : Buffers T}
    (hc : s.bufs.callback t = .copy b) (hlen : (s.event t).bytes.length ≤ datapktbuf)
    (hb : bufs.Inv fun _ => 0)
    (hat : bufs.At (Function.update s.bufs.callback t (.push b)) s.bufs.queue s.bufs.receiver) :
    Tunnel.Inv { s.fill side t b with bufs := bufs } := by
  obtain ⟨hapart, hothers⟩ := hi.bufs.copy_apart hc
  -- what is on its way is in other blocks
  have hmem : ∀ c, c ≠ b → (s.fill side t b).mem c = s.mem c ∧
      (s.fill side t b).origin c = s.origin c :=
    fun c hcb => ⟨Function.update_of_ne hcb .., Function.update_of_ne hcb ..⟩
  have hlist : bufs.receiver.ahead ++ bufs.queue = s.bufs.receiver.ahead ++ s.bufs.queue := by
    rw [hat.queue, hat.receiver]
  refine ⟨hb, ?_, fun u c hu => ?_, fun c hin => ?_, fun c hr => ?_, hi.tagged, fun u => ?_⟩
  · show (s.overflow || decide (datapktbuf < (s.event t).bytes.length)) = false
    rw [hi.overflow, decide_eq_false (Nat.not_lt_of_le hlen)]
    rfl
  · by_cases hut : u = t
    · subst hut
      obtain rfl : b = c := CbPt.push.inj (hat.callback_self.symm.trans hu)
      show Function.update s.origin b (some u) b = some u ∧
        (Function.update s.mem b _ b).bytes = _ ∧ (Function.update s.mem b _ b).length.toNat ≤ _
      rw [Function.update_self, Function.update_self]
      refine ⟨rfl, fillReceived_bytes side (s.mem b) hlen, ?_⟩
      rw [fillReceived_length]
      exact hlen
    · have hu' : s.bufs.callback u = .push c := (hat.callback_of_ne hut).symm.trans hu
      obtain ⟨h1, h2⟩ := hmem c fun e => hothers u (e ▸ hu')
      show (s.fill side t b).origin c = _ ∧ ((s.fill side t b).mem c).bytes = _ ∧
        ((s.fill side t b).mem c).length.toNat ≤ _
      rw [h1, h2]
      exact hi.pushed u c hu'
  · have hin' : c ∈ s.bufs.receiver.ahead ++ s.bufs.queue := hlist ▸ hin
    obtain ⟨h1, h2⟩ := hmem c fun e => hapart (e ▸ hin')
    show ((s.fill side t b).mem c).length.toNat ≤ _ ∧ ∃ u, (s.fill side t b).origin c = some u
    rw [h1, h2]
    exact hi.loaded c hin'
  · have hr' : s.bufs.receiver = .write c := hat.receiver.symm.trans hr
    have hin : c ∈ s.bufs.receiver.ahead ++ s.bufs.queue := by
      rw [hr']
      exact List.mem_cons_self
    show isIpv4 ((s.fill side t b).mem c).bytes = true
    rw [(hmem c fun e => hapart (e ▸ hin)).1]
    exact hi.checked c hr'
  · have hf : Tunnel.flight { s.fill side t b with bufs := bufs } u = s.flight u :=
      Tunnel.flight_congr hlist fun c hin => hmem c fun e => hapart (e ▸ hin)
    have hh : Tunnel.hand { s.fill side t b with bufs := bufs } u = s.hand u := by
      by_cases hut : u = t
      · subst hut
        rw [Tunnel.hand_busy (s := s) (by rw [hc]; exact CbPt.noConfusion), Tunnel.hand_busy]
        · rfl
        · rw [hat.callback_self]
          exact CbPt.noConfusion
      · exact Tunnel.hand_congr (hat.callback_of_ne hut) rfl
    rw [hf, hh]
    exact hi.order u

/-- the block goes to the end of the queue -/
theorem Tunnel.Inv.push (hi : s.Inv) {t : T} {b : Blk} {bufs : Buffers T}
    (hc : s.bufs.callback t = .push b) (hb : bufs.Inv fun _ => 0)
    (hat : bufs.At (Function.update s.bufs.callback t .idle) (s.bufs.queue ++ [b])
      s.bufs.receiver) : Tunnel.Inv { s with bufs := bufs } := by
  obtain ⟨horigin, hbytes, hlen⟩ := hi.pushed t b hc
  have hlist : bufs.receiver.ahead ++ bufs.queue =
      s.bufs.receiver.ahead ++ s.bufs.queue ++ [b] := by
    rw [hat.queue, hat.receiver, List.append_assoc]
  refine ⟨hb, hi.overflow, fun u c hu => ?_, fun c hin => ?_, fun c hr => ?_, hi.tagged, fun u => ?_⟩
  · have hut : u ≠ t := by
      rintro rfl
      exact CbPt.noConfusion (hat.callback_self.symm.trans hu)
    exact hi.pushed u c ((hat.callback_of_ne hut).symm.trans hu)
  · rcases List.mem_append.mp (show c ∈ _ from hlist ▸ hin) with hin | hin
    · exact hi.loaded c hin
    · rw [List.mem_singleton.mp hin]
      exact ⟨hlen, t, horigin⟩
  · exact hi.checked c (hat.receiver.symm.trans hr)
  · have hf : Tunnel.flight { s with bufs := bufs } u =
        s.flight u ++ if s.origin b = some u then [(s.mem b).bytes] else [] := by
      show ((bufs.receiver.ahead ++ bufs.queue).filter _).map _ = _
      rw [hlist, List.filter_append, List.map_append, List.filter_singleton]
      by_cases h : s.origin b = some u
      · simp only [h, decide_true, if_true]
        rfl
      · simp only [h, decide_false, if_false]
        rfl
    rw [hf]
    by_cases hut : u = t
    · subst hut
      rw [Tunnel.hand_idle (s := { s with bufs := bufs }) hat.callback_self, if_pos horigin, hbytes,
        List.append_nil, ← Tunnel.hand_busy (by rw [hc]; exact CbPt.noConfusion)]
      exact hi.order u
    · have hne : s.origin b ≠ some u := by
        rw [horigin]
        exact fun e => hut (Option.some.inj e).symm
      have hh : Tunnel.hand { s with bufs := bufs } u = s.hand u :=
        Tunnel.hand_congr (hat.callback_of_ne hut) rfl
      rw [if_neg hne, List.append_nil, hh]
      exact hi.order u

/-- the receive thread moves on, with the same blocks ahead of it -/
theorem Tunnel.Inv.receiver (hi : s.Inv) {l : List Blk} {r : RecvPt} {bufs : Buffers T}
    (hb : bufs.Inv fun _ => 0) (hat : bufs.At s.bufs.callback l r)
    (hl : r.ahead ++ l = s.bufs.receiver.ahead ++ s.bufs.queue)
    (hr : ∀ b, r = .write b → isIpv4 (s.mem b).bytes = true) :
    Tunnel.Inv { s with bufs := bufs } := by
  have hlist : bufs.receiver.ahead ++ bufs.queue = s.bufs.receiver.ahead ++ s.bufs.queue := by
    rw [hat.queue, hat.receiver, hl]
  refine ⟨hb, hi.overflow, fun u b hu => ?_, ?_, fun b hw => ?_, hi.tagged, fun u => ?_⟩
  · exact hi.pushed u b ((congrFun hat.callback u).symm.trans hu)
  · show ∀ b ∈ bufs.receiver.ahead ++ bufs.queue, _
    rw [hlist]
    exact hi.loaded
  · exact hr b (hat.receiver.symm.trans hw)
  · have hf : Tunnel.flight { s with bufs := bufs } u = s.flight u :=
      Tunnel.flight_congr hlist fun b _ => ⟨rfl, rfl⟩
    have hh : Tunnel.hand { s with bufs := bufs } u = s.hand u :=
      Tunnel.hand_congr (congrFun hat.callback u) rfl
    rw [hf, hh]
    exact hi.order u

/-- the receive thread is done with a block: it has written an IPv4 datagram, or dropped another -/
theorem Tunnel.Inv.finish (hi : s.Inv) {b : Blk} {bufs : Buffers T}
    {out : List (Option T × List Byte)} (ha : s.bufs.receiver.ahead = [b])
    (hb : bufs.Inv fun _ => 0)
    (hat : bufs.At s.bufs.callback s.bufs.queue (.put b))
    (hout : out = if isIpv4 (s.mem b).bytes = true then [(s.origin b, (s.mem b).bytes)] else []) :
    Tunnel.Inv { s with bufs := bufs, written := s.written ++ out } := by
  have hmine : ∃ t, s.origin b = some t := (hi.loaded b (by rw [ha]; exact List.mem_cons_self)).2
  refine ⟨hb, hi.overflow, fun u c hu => ?_, fun c hin => ?_, fun c hr => ?_, fun w hw => ?_, fun u => ?_⟩
  · exact hi.pushed u c ((congrFun hat.callback u).symm.trans hu)
  · apply hi.loaded c
    have hin' : c ∈ (RecvPt.put b).ahead ++ s.bufs.queue := by
      rw [← hat.receiver, ← hat.queue]
      exact hin
    exact List.mem_append_right _ hin'
  · exact RecvPt.noConfusion (hat.receiver.symm.trans hr)
  · rcases List.mem_append.mp hw with hw | hw
    · exact hi.tagged w hw
    · rw [hout] at hw
      split at hw
      · rw [List.mem_singleton.mp hw]
        exact hmine
      · exact absurd hw List.not_mem_nil
  · have hnone : bufs.receiver.ahead = [] := by
      rw [hat.receiver]
      rfl
    have hf : s.flight u = (if s.origin b = some u then [(s.mem b).bytes] else []) ++
        Tunnel.flight { s with bufs := bufs, written := s.written ++ out } u :=
      Tunnel.flight_head ha hnone hat.queue rfl rfl
    have hw : Tunnel.writtenOf { s with bufs := bufs, written := s.written ++ out } u =
        s.writtenOf u ++ (if s.origin b = some u then [(s.mem b).bytes] else []).filter isIpv4 := by
      show ((s.written ++ out).filter _).map _ = _
      rw [List.filter_append, List.map_append, hout]
      congr 1
      by_cases h4 : isIpv4 (s.mem b).bytes = true
      · by_cases ho : s.origin b = some u
        · simp [h4, ho]
        · simp [h4, ho]
      · by_cases ho : s.origin b = some u
        · simp [h4, ho]
        · simp [h4, ho]
    have hh : Tunnel.hand { s with bufs := bufs, written := s.written ++ out } u = s.hand u :=
      Tunnel.hand_congr (congrFun hat.callback u) rfl
    rw [hw, hh, List.append_assoc, ← List.filter_append, ← List.append_assoc, ← hf]
    exact hi.order u

/-- a datagram that fits into the block, or another step -/
theorem Tunnel.step_inv {a : TunnelAct T} (hi : s.Inv) (hC : s.Fits a)
    (hs : s.step side a = some s') : s'.Inv := by
  have hb := Tunnel.step_bufs hi.bufs hs
  cases Tunnel.step_move hs with
  | @ignored t d hc hd =>
    refine hi.arrive hc hb ⟨?_, rfl, rfl⟩ (Or.inr ⟨rfl, isIpv4_ignored hd⟩)
    rw [← hc, Function.update_eq_self]
  | begin hc hq hat => exact hi.arrive hc hb hat (Or.inl hq)
  | onward ha hc hq hat => exact hi.onward hc hq hb hat
  | @copy t b bufs hc hat => exact hi.copy hc (hC t rfl) hb hat
  | push hc hat => exact hi.push hc hb hat
  | pop hr hl hat =>
    refine hi.receiver hb hat ?_ fun _ => nofun
    rw [hr, hl]
    rfl
  | @accept b bufs hr hok hat =>
    have hin : b ∈ s.bufs.receiver.ahead ++ s.bufs.queue := by
      rw [hr]
      exact List.mem_cons_self
    refine hi.receiver hb hat (by rw [hr]; rfl) fun c hc => ?_
    obtain rfl := RecvPt.write.inj hc
    rw [← pktDataIphdr_isOk (hi.loaded b hin).1]
    exact hok
  | @reject b bufs hr hok hat =>
    have hin : b ∈ s.bufs.receiver.ahead ++ s.bufs.queue := by
      rw [hr]
      exact List.mem_cons_self
    have h4 : isIpv4 (s.mem b).bytes = false := by
      rw [← pktDataIphdr_isOk (hi.loaded b hin).1]
      exact hok
    have hout : [] = if isIpv4 (s.mem b).bytes = true then [(s.origin b, (s.mem b).bytes)]
        else [] := by
      rw [h4]
      rfl
    have := hi.finish (by rw [hr]; rfl) hb hat hout
    rw [List.append_nil] at this
    exact this
  | @write b bufs hr hat =>
    exact hi.finish (by rw [hr]; rfl) hb hat (by rw [hi.checked b hr, if_pos rfl])
  | put hr hat => exact hi.receiver hb hat (by rw [hr]; rfl) fun _ => nofun

/-- a longer datagram is copied past the end of the block -/
theorem Tunnel.unfit_overflow {a : TunnelAct T} (hC : ¬ s.Fits a) (hs : s.step side a = some s') :
    s'.overflow = true := by
  simp only [Tunnel.Fits, not_forall] at hC
  obtain ⟨t, ht, hlen⟩ := hC
  cases Tunnel.step_move hs with
  | onward ha => exact absurd (ha.symm.trans ht) (Option.some_ne_none t).symm
  | copy hc hat =>
    obtain rfl := Option.some.inj ht
    show (s.overflow || decide (datapktbuf < (s.event _).bytes.length)) = true
    rw [decide_eq_true (Nat.lt_of_not_le hlen), Bool.or_true]
  | _ => exact absurd ht (Option.some_ne_none t).symm

/-! ## the main result -/

theorem Tunnel.init_inv {cap : PoolId → ℕ} {blockSize : ℕ} {pool : PoolId → Pool}
    (hp : ∀ i, poolInit blockSize (cap i) = some (pool i)) (home : Blk → PoolId)
    (mem : Blk → PktData) : (Tunnel.init pool home mem : Tunnel T).Inv :=
  ⟨Buffers.init_inv hp home, rfl, nofun, nofun, nofun, nofun, fun _ => rfl⟩

/-- **The receive path.**  On either side, along every run: no callback writes past a block, and
what the receive thread writes to the TUN device is what the workers have received, for each worker a
prefix of the IPv4 datagrams it has received, and all of them once none is on its way, exactly when no
datagram that a callback copies is longer than the block. -/
theorem tunnel_delivers_iff (side : Side) (blockSize : ℕ) (cap : PoolId → ℕ)
    (pool : PoolId → Pool) (hp : ∀ i, poolInit blockSize (cap i) = some (pool i))
    (home : Blk → PoolId) (mem : Blk → PktData) {l : List (TunnelAct T)} {u : Tunnel T}
    (h : exec (Tunnel.step side) (Tunnel.init pool home mem) l = some u) :
    Always (Tunnel.step side) Tunnel.Delivers (Tunnel.init pool home mem) l ↔
      Along (Tunnel.step side) Tunnel.Fits (Tunnel.init pool home mem) l :=
  always_iff_along (I := Tunnel.Inv) (fun _ hi => hi.delivers)
    (fun _ _ _ hi hC hs => Tunnel.step_inv hi hC hs)
    (fun _ _ _ _ hC hs hd =>
      Bool.false_ne_true (hd.inBounds.symm.trans (Tunnel.unfit_overflow hC hs)))
    (Tunnel.init_inv hp home mem) h

end

end

/-! ## one datagram -/

/-- an IPv4 header without options, and no data -/
def bareHeader : Datagram := ⟨0x45 :: List.replicate 19 0, by decide, false, nofun⟩

/-- a datagram of one byte more than there is room for -/
def longDatagram : Datagram :=
  ⟨List.replicate 2049 0, by rw [List.length_replicate]; decide, false, nofun⟩

/-- the way of one datagram through the callback -/
def oneDatagram (d : Datagram) : List (TunnelAct (Fin 1)) :=
  [.received 0 d, .alloc 0 9, .done 0, .copy 0, .push 0]

/-- the server before its first datagram, with zeroed memory -/
def newTunnel : Tunnel (Fin 1) :=
  Tunnel.init pktPools (fun _ => .send) fun _ => ⟨0, Record.zero _⟩

/-- a datagram that fits is delivered -/
theorem tunnel_delivers_header :
    Always (Tunnel.step .server) Tunnel.Delivers newTunnel (oneDatagram bareHeader ++ [.pop]) := by
  have hrun : (exec (Tunnel.step .server) newTunnel (oneDatagram bareHeader ++ [.pop])).isSome =
      true := by decide
  obtain ⟨u, hu⟩ := Option.isSome_iff_exists.mp hrun
  exact (tunnel_delivers_iff .server 2064 (fun _ => 0) pktPools (fun _ => rfl) _ _ hu).mpr
    (by decide)

/-- a datagram of 2049 bytes is copied past the end of the block -/
theorem tunnel_overflow : ∃ u, exec (Tunnel.step .server) newTunnel (oneDatagram longDatagram) =
    some u ∧ u.overflow = true ∧ ¬ u.Delivers := by
  have hrun : (exec (Tunnel.step .server) newTunnel (oneDatagram longDatagram)).map
      Tunnel.overflow = some true := by decide +kernel
  obtain ⟨u, hu, ho⟩ := Option.map_eq_some_iff.mp hrun
  exact ⟨u, hu, ho, fun hd => Bool.false_ne_true (hd.inBounds.symm.trans ho)⟩

end QuicVpn
