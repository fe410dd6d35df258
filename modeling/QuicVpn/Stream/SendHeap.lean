import Mathlib.Data.List.ReduceOption
import Mathlib.Data.Multiset.Bind
import Mathlib.Tactic.Abel
import QuicVpn.Common.Basic
import QuicVpn.Common.Pool
import QuicVpn.Lib.Custody
import QuicVpn.Lib.History

/-!
# The memory of the control stream

A control packet is made by `pkt_ctrl_create_config_req` (client) or `pkt_ctrl_create_config_resp`
(server) and given to `MsQuicStreamSend` (client) or `stream_send` (server).  These copy it into a buffer
of their own, described by a `QUIC_BUFFER`, and pass that one to `StreamSend` as buffer and as context.  If
`StreamSend` refuses it both are freed at once, else the handler of SEND_COMPLETE frees them.  The server
has a `stream_t` for each stream, from PEER_STREAM_STARTED to SHUTDOWN_COMPLETE.

What is relied on of MsQuic: every send that was accepted gets one SEND_COMPLETE, and a stream gets its
SHUTDOWN_COMPLETE after those of all its sends.

* `SendHeap.step`        the handlers, each as one step, with every outcome of `malloc` and `StreamSend`;
* `SendHeap.live`        what somebody will free, and the packets, which nobody frees;
* `sendHeap_custody`     nothing is freed twice or used after it was freed, and what is left when all
                         streams are closed are the packets: one for each request that was answered;
* `sendHeap_alive_iff`   when the process writes through NULL.
-/

set_option linter.unusedSectionVars false

namespace QuicVpn
open Conc

/-- `trace` are the events of the heap, the latest first; `streams` the open streams with their `stream_t`,
which the client does not have; `sends` what MsQuic has accepted: the stream, `out_buf` and `quic_buf`;
`packets` the control packets that were made -/
structure SendHeap (H : Type) where
  trace : List (Ev Blk)
  streams : Multiset (H × Option Blk)
  sends : Multiset (H × Blk × Blk)
  packets : Multiset Blk
  crashed : Bool

inductive HeapAct (H : Type) where
  /-- the stream `h` begins; `stream` is what `malloc` returns for the `stream_t` of the server -/
  | started (h : H) (stream : Option Blk)
  /-- a packet goes out on `h`; `pkt`, `out` and `quic` are the three allocations, and `accepted` is
  the answer of `StreamSend` -/
  | send (h : H) (pkt out quic : Option Blk) (accepted : Bool)
  | sendComplete (h : H) (out quic : Blk)
  | shutdownComplete (h : H) (stream : Option Blk)

section
variable {H : Type} [DecidableEq H]

namespace SendHeap
variable (side : Side) (s : SendHeap H)

def malloc (b : Blk) : SendHeap H := { s with trace := .handout b :: s.trace }
def touch (b : Blk) : SendHeap H := { s with trace := .touch b :: s.trace }
def free (b : Blk) : SendHeap H := { s with trace := .put b :: s.trace }
def crash : SendHeap H := { s with crashed := true }

/-- `free(quic_buf->Buffer)` and `free(quic_buf)` -/
def freeSend (out quic : Blk) : SendHeap H := ((s.touch quic).free out).free quic

/-- `pkt_ctrl_create_config_req` and `pkt_ctrl_create_config_resp`, as far as the heap goes -/
def createPkt : Option Blk → SendHeap H
  | none => s
  | some p => { (s.malloc p).touch p with packets := p ::ₘ s.packets }

/-- `MsQuicStreamSend` and `stream_send` behind the assertions of the first; a `StreamShutdown` leaves the
heap alone -/
def streamSend (h : H) (pkt out quic : Option Blk) (accepted : Bool) : SendHeap H :=
  match out with
  | none => s
  | some o =>
    match pkt, quic with
    -- `memcpy` from NULL
    | none, _ => (s.malloc o).crash
    -- `quic_buf->Buffer = out_buf`
    | some p, none => (((s.malloc o).touch p).touch o).crash
    | some p, some q =>
      let s' := ((((s.malloc o).touch p).touch o).malloc q).touch q
      if accepted then { s' with sends := (h, o, q) ::ₘ s.sends } else s'.freeSend o q

/-- the client asserts its packet, the server does not -/
def send (h : H) (pkt out quic : Option Blk) (accepted : Bool) : SendHeap H :=
  match side, pkt with
  | .client, none => s.crash
  | _, pkt => (s.createPkt pkt).streamSend h pkt out quic accepted

/-- PEER_STREAM_STARTED at the server; the client's stream has no object of its own -/
def start (h : H) (stream : Option Blk) : SendHeap H :=
  match side, stream with
  -- `StreamClose`
  | .server, none => s
  | .server, some b => { (s.malloc b).touch b with streams := (h, some b) ::ₘ s.streams }
  | .client, _ => { s with streams := (h, none) ::ₘ s.streams }

/-- SHUTDOWN_COMPLETE of a stream -/
def finish (h : H) (stream : Option Blk) : SendHeap H :=
  match stream with
  | none => { s with streams := s.streams.erase (h, none) }
  | some b => { (s.touch b).free b with streams := s.streams.erase (h, some b) }

/-- what `malloc` returns in one call is not in use, and nothing is returned twice -/
def Fresh (blks : List (Option Blk)) : Prop :=
  blks.reduceOption.Nodup ∧ ∀ b ∈ blks.reduceOption, holds b s.trace = false

instance (blks : List (Option Blk)) : Decidable (s.Fresh blks) := inferInstanceAs (Decidable (_ ∧ _))

def step : HeapAct H → Option (SendHeap H)
  | .started h stream =>
    if s.crashed = false ∧ h ∉ s.streams.map Prod.fst ∧ s.Fresh [stream] then
      some (s.start side h stream)
    else none
  | .send h pkt out quic accepted =>
    if s.crashed = false ∧ h ∈ s.streams.map Prod.fst ∧ s.Fresh [pkt, out, quic] then
      some (s.send side h pkt out quic accepted)
    else none
  | .sendComplete h out quic =>
    if s.crashed = false ∧ (h, out, quic) ∈ s.sends then
      some { s.freeSend out quic with sends := s.sends.erase (h, out, quic) }
    else none
  | .shutdownComplete h stream =>
    if s.crashed = false ∧ (h, stream) ∈ s.streams ∧ h ∉ s.sends.map Prod.fst then
      some (s.finish h stream)
    else none

def init : SendHeap H := ⟨[], 0, 0, 0, false⟩

variable {side} {s}

/-! ## what is allocated -/

/-- the objects of the streams, the buffers of the sends, and the packets -/
def live (s : SendHeap H) : Multiset Blk :=
  s.streams.filterMap Prod.snd + s.sends.bind (fun x => {x.2.1} + {x.2.2}) + s.packets

structure Inv (s : SendHeap H) : Prop where
  owned : s.crashed = false → Owned s.trace s.live
  flow : ∀ x ∈ s.sends, x.1 ∈ s.streams.map Prod.fst

theorem init_inv : (init : SendHeap H).Inv := ⟨fun _ => Owned.nil, fun _ hx => absurd hx (Multiset.notMem_zero _)⟩

theorem live_createPkt (p : Blk) : (s.createPkt (some p)).live = p ::ₘ s.live := by
  show _ + _ + p ::ₘ s.packets = _
  rw [Multiset.add_cons]
  rfl

theorem live_send (s : SendHeap H) (h : H) (o q : Blk) :
    ({ s with sends := (h, o, q) ::ₘ s.sends } : SendHeap H).live = o ::ₘ q ::ₘ s.live := by
  unfold live
  rw [Multiset.cons_bind, ← Multiset.singleton_add o, ← Multiset.singleton_add q]
  abel

theorem live_start (s : SendHeap H) (h : H) (b : Blk) :
    ({ s with streams := (h, some b) ::ₘ s.streams } : SendHeap H).live = b ::ₘ s.live := by
  unfold live
  rw [Multiset.filterMap_cons_some Prod.snd _ _ rfl, ← Multiset.singleton_add b,
    ← Multiset.singleton_add b]
  abel

/-- a packet is made and stays -/
theorem createPkt_owned {pkt : Option Blk} (h : Owned s.trace s.live)
    (hf : ∀ p, pkt = some p → holds p s.trace = false) :
    Owned (s.createPkt pkt).trace (s.createPkt pkt).live := by
  cases pkt with
  | none => exact h
  | some p =>
    rw [live_createPkt]
    exact (h.handout (hf p rfl)).touch (Multiset.mem_cons_self p _)

theorem freeSend_owned {o q : Blk} {M : Multiset Blk} (h : Owned s.trace (o ::ₘ q ::ₘ M)) :
    Owned (s.freeSend o q).trace M :=
  (h.touch (Multiset.mem_cons_of_mem (Multiset.mem_cons_self q M))).put.put

/-- the two buffers of a send, allocated and filled -/
theorem buffers_owned {p o q : Blk} {M : Multiset Blk} (h : Owned s.trace M) (hp : p ∈ M)
    (ho : holds o s.trace = false) (hq : holds q s.trace = false) (hne : o ≠ q) :
    Owned (((((s.malloc o).touch p).touch o).malloc q).touch q).trace (o ::ₘ q ::ₘ M) := by
  have h1 : Owned (((s.malloc o).touch p).touch o).trace (o ::ₘ M) :=
    ((h.handout ho).touch (Multiset.mem_cons_of_mem hp)).touch (Multiset.mem_cons_self o M)
  have hq' : holds q (((s.malloc o).touch p).touch o).trace = false := by
    show (if o = q then true else holds q s.trace) = false
    rw [if_neg hne]
    exact hq
  rw [Multiset.cons_swap]
  exact (h1.handout hq').touch (Multiset.mem_cons_self q _)

theorem streamSend_owned {h : H} {pkt out quic : Option Blk} {accepted : Bool}
    (hs : Owned s.trace s.live) (hp : ∀ p, pkt = some p → p ∈ s.live)
    (ho : ∀ o, out = some o → holds o s.trace = false)
    (hq : ∀ q, quic = some q → holds q s.trace = false ∧ out ≠ some q)
    (hc : (s.streamSend h pkt out quic accepted).crashed = false) :
    Owned (s.streamSend h pkt out quic accepted).trace (s.streamSend h pkt out quic accepted).live := by
  cases out with
  | none => exact hs
  | some o =>
    cases pkt with
    | none => cases hc
    | some p =>
      cases quic with
      | none => cases hc
      | some q =>
        have hne : o ≠ q := fun e => (hq q rfl).2 (congrArg some e)
        have hb := buffers_owned hs (hp p rfl) (ho o rfl) (hq q rfl).1 hne
        cases accepted with
        | true =>
          show Owned _ ({ s with sends := (h, o, q) ::ₘ s.sends } : SendHeap H).live
          rw [live_send]
          exact hb
        | false => exact freeSend_owned hb

/-- the allocations of one send are apart -/
theorem Fresh.send {pkt out quic : Option Blk} (hf : s.Fresh [pkt, out, quic]) :
    (∀ p, pkt = some p → holds p s.trace = false) ∧
    (∀ o, out = some o → holds o (s.createPkt pkt).trace = false) ∧
    ∀ q, quic = some q → holds q (s.createPkt pkt).trace = false ∧ out ≠ some q := by
  obtain ⟨hn, hh⟩ := hf
  have hmem : ∀ b, some b ∈ [pkt, out, quic] → holds b s.trace = false := fun b hb =>
    hh b (List.reduceOption_mem_iff.mpr hb)
  have hpkt : ∀ b, pkt ≠ some b → holds b s.trace = false → holds b (s.createPkt pkt).trace = false := by
    intro b hb hf
    cases pkt with
    | none => exact hf
    | some p =>
      show (if p = b then true else holds b s.trace) = false
      rw [if_neg fun e => hb (congrArg some e)]
      exact hf
  refine ⟨fun p hp => hmem p (by simp [hp]), fun o ho => hpkt o ?_ (hmem o (by simp [ho])),
    fun q hq => ⟨hpkt q ?_ (hmem q (by simp [hq])), ?_⟩⟩
  · rintro rfl
    simp [ho, List.reduceOption] at hn
  · rintro rfl
    cases out <;> simp [hq, List.reduceOption] at hn
  · rintro rfl
    cases pkt <;> simp [hq, List.reduceOption] at hn

/-- what a step does, with what it requires -/
inductive Move (side : Side) (s : SendHeap H) : HeapAct H → SendHeap H → Prop
  | started {h : H} {stream : Option Blk} (hf : s.Fresh [stream]) :
      Move side s (.started h stream) (s.start side h stream)
  | send {h : H} {pkt out quic : Option Blk} {accepted : Bool} (hh : h ∈ s.streams.map Prod.fst)
      (hf : s.Fresh [pkt, out, quic]) :
      Move side s (.send h pkt out quic accepted) (s.send side h pkt out quic accepted)
  | sendComplete {h : H} {out quic : Blk} (hm : (h, out, quic) ∈ s.sends) :
      Move side s (.sendComplete h out quic)
        { s.freeSend out quic with sends := s.sends.erase (h, out, quic) }
  | shutdownComplete {h : H} {stream : Option Blk} (hm : (h, stream) ∈ s.streams)
      (hn : h ∉ s.sends.map Prod.fst) :
      Move side s (.shutdownComplete h stream) (s.finish h stream)

variable {s' : SendHeap H}

theorem step_move {a : HeapAct H} (hs : s.step side a = some s') :
    s.crashed = false ∧ s.Move side a s' := by
  cases a with
  | started h stream =>
    obtain ⟨⟨hc, -, hf⟩, e⟩ := Option.ite_none_right_eq_some.mp hs
    cases e
    exact ⟨hc, .started hf⟩
  | send h pkt out quic accepted =>
    obtain ⟨⟨hc, hh, hf⟩, e⟩ := Option.ite_none_right_eq_some.mp hs
    cases e
    exact ⟨hc, .send hh hf⟩
  | sendComplete h out quic =>
    obtain ⟨⟨hc, hm⟩, e⟩ := Option.ite_none_right_eq_some.mp hs
    cases e
    exact ⟨hc, .sendComplete hm⟩
  | shutdownComplete h stream =>
    obtain ⟨⟨hc, hm, hn⟩, e⟩ := Option.ite_none_right_eq_some.mp hs
    cases e
    exact ⟨hc, .shutdownComplete hm hn⟩

theorem start_owned {h : H} {stream : Option Blk} (hs : Owned s.trace s.live)
    (hf : s.Fresh [stream]) : Owned (s.start side h stream).trace (s.start side h stream).live := by
  cases side with
  | client =>
    show Owned s.trace (((h, none) ::ₘ s.streams).filterMap Prod.snd + _ + _)
    rw [Multiset.filterMap_cons_none _ _ rfl]
    exact hs
  | server =>
    cases stream with
    | none => exact hs
    | some b =>
      show Owned _ ({ s with streams := (h, some b) ::ₘ s.streams } : SendHeap H).live
      rw [live_start]
      exact (hs.handout (hf.2 b (by simp [List.reduceOption]))).touch (Multiset.mem_cons_self b _)

theorem send_owned {h : H} {pkt out quic : Option Blk} {accepted : Bool} (hs : Owned s.trace s.live)
    (hf : s.Fresh [pkt, out, quic]) (hc : (s.send side h pkt out quic accepted).crashed = false) :
    Owned (s.send side h pkt out quic accepted).trace (s.send side h pkt out quic accepted).live := by
  obtain ⟨hp, ho, hq⟩ := hf.send
  have hcr := createPkt_owned hs hp
  have hmem : ∀ p, pkt = some p → p ∈ (s.createPkt pkt).live := by
    rintro p rfl
    rw [live_createPkt]
    exact Multiset.mem_cons_self p _
  cases side with
  | server => exact streamSend_owned hcr hmem ho hq hc
  | client =>
    cases pkt with
    | none => cases hc
    | some p => exact streamSend_owned hcr hmem ho hq hc

theorem complete_owned {h : H} {out quic : Blk} (hs : Owned s.trace s.live)
    (hm : (h, out, quic) ∈ s.sends) :
    Owned (s.freeSend out quic).trace
      ({ s with sends := s.sends.erase (h, out, quic) } : SendHeap H).live := by
  refine freeSend_owned ?_
  rw [← live_send _ h]
  show Owned _ ({ s with sends := (h, out, quic) ::ₘ s.sends.erase (h, out, quic) } : SendHeap H).live
  rw [Multiset.cons_erase hm]
  exact hs

theorem finish_owned {h : H} {stream : Option Blk} (hs : Owned s.trace s.live)
    (hm : (h, stream) ∈ s.streams) : Owned (s.finish h stream).trace (s.finish h stream).live := by
  cases stream with
  | none =>
    have e : (s.streams.erase (h, none)).filterMap Prod.snd = s.streams.filterMap Prod.snd := by
      conv_rhs => rw [← Multiset.cons_erase hm]
      rw [Multiset.filterMap_cons_none _ _ rfl]
    show Owned s.trace ((s.streams.erase (h, none)).filterMap Prod.snd + _ + _)
    rw [e]
    exact hs
  | some b =>
    have e : s.live =
        b ::ₘ ({ s with streams := s.streams.erase (h, some b) } : SendHeap H).live := by
      rw [← live_start _ h]
      show s.live = ({ s with streams := (h, some b) ::ₘ s.streams.erase (h, some b) } : SendHeap H).live
      rw [Multiset.cons_erase hm]
    rw [e] at hs
    exact (hs.touch (Multiset.mem_cons_self b _)).put

/-- a send goes to its own stream -/
theorem streamSend_sends {h : H} {pkt out quic : Option Blk} {accepted : Bool} {x : H × Blk × Blk}
    (hx : x ∈ (s.streamSend h pkt out quic accepted).sends) : x ∈ s.sends ∨ x.1 = h := by
  cases out with
  | none => exact .inl hx
  | some o =>
    cases pkt with
    | none => exact .inl hx
    | some p =>
      cases quic with
      | none => exact .inl hx
      | some q =>
        cases accepted with
        | false => exact .inl hx
        | true =>
          obtain rfl | hx := Multiset.mem_cons.mp hx
          · exact .inr rfl
          · exact .inl hx

theorem streamSend_streams {h : H} {pkt out quic : Option Blk} {accepted : Bool} :
    (s.streamSend h pkt out quic accepted).streams = s.streams := by
  cases out with
  | none => rfl
  | some o =>
    cases pkt with
    | none => rfl
    | some p =>
      cases quic with
      | none => rfl
      | some q => cases accepted <;> rfl

theorem createPkt_streams {pkt : Option Blk} : (s.createPkt pkt).streams = s.streams := by
  cases pkt <;> rfl

theorem createPkt_sends {pkt : Option Blk} : (s.createPkt pkt).sends = s.sends := by
  cases pkt <;> rfl

theorem send_flow {h : H} {pkt out quic : Option Blk} {accepted : Bool} (hi : s.Inv)
    (hh : h ∈ s.streams.map Prod.fst) :
    ∀ x ∈ (s.send side h pkt out quic accepted).sends,
      x.1 ∈ (s.send side h pkt out quic accepted).streams.map Prod.fst := by
  have key : ∀ x ∈ ((s.createPkt pkt).streamSend h pkt out quic accepted).sends,
      x.1 ∈ ((s.createPkt pkt).streamSend h pkt out quic accepted).streams.map Prod.fst := by
    intro x hx
    rw [streamSend_streams, createPkt_streams]
    obtain hx | rfl := streamSend_sends hx
    · rw [createPkt_sends] at hx
      exact hi.flow x hx
    · exact hh
  cases side with
  | server => exact key
  | client =>
    cases pkt with
    | none => exact hi.flow
    | some p => exact key

theorem start_flow {h : H} {stream : Option Blk} (hi : s.Inv) :
    ∀ x ∈ (s.start side h stream).sends, x.1 ∈ (s.start side h stream).streams.map Prod.fst := by
  have key : ∀ r : Option Blk, ∀ x ∈ s.sends, x.1 ∈ ((h, r) ::ₘ s.streams).map Prod.fst := by
    intro r x hx
    rw [Multiset.map_cons]
    exact Multiset.mem_cons_of_mem (hi.flow x hx)
  cases side with
  | client => exact key none
  | server =>
    cases stream with
    | none => exact hi.flow
    | some b => exact key (some b)

theorem finish_flow {h : H} {stream : Option Blk} (hi : s.Inv) (hn : h ∉ s.sends.map Prod.fst) :
    ∀ x ∈ (s.finish h stream).sends, x.1 ∈ (s.finish h stream).streams.map Prod.fst := by
  have key : ∀ x ∈ s.sends, x.1 ∈ (s.streams.erase (h, stream)).map Prod.fst := by
    intro x hx
    obtain ⟨y, hy, e⟩ := Multiset.mem_map.mp (hi.flow x hx)
    have hne : y ≠ (h, stream) := by
      rintro rfl
      exact hn (Multiset.mem_map.mpr ⟨x, hx, e.symm⟩)
    exact Multiset.mem_map.mpr ⟨y, (Multiset.mem_erase_of_ne hne).mpr hy, e⟩
  cases stream with
  | none => exact key
  | some b => exact key

theorem Move.inv {a : HeapAct H} (hm : s.Move side a s') (hc : s.crashed = false) (hi : s.Inv) :
    s'.Inv := by
  have hs := hi.owned hc
  cases hm with
  | started hf => exact ⟨fun _ => start_owned hs hf, start_flow hi⟩
  | send hh hf => exact ⟨send_owned hs hf, send_flow hi hh⟩
  | sendComplete hm =>
    exact ⟨fun _ => complete_owned hs hm, fun x hx => hi.flow x (Multiset.mem_of_mem_erase hx)⟩
  | shutdownComplete hm hn => exact ⟨fun _ => finish_owned hs hm, finish_flow hi hn⟩

/-! ## the packets -/

/-- a packet is made -/
def made : HeapAct H → ℕ
  | .send _ (some _) _ _ _ => 1
  | _ => 0

theorem streamSend_packets {h : H} {pkt out quic : Option Blk} {accepted : Bool} :
    (s.streamSend h pkt out quic accepted).packets = s.packets := by
  cases out with
  | none => rfl
  | some o =>
    cases pkt with
    | none => rfl
    | some p =>
      cases quic with
      | none => rfl
      | some q => cases accepted <;> rfl

theorem Move.packets {a : HeapAct H} (hm : s.Move side a s') :
    s'.packets.card = s.packets.card + made a := by
  cases hm with
  | @started h stream hf => cases side <;> cases stream <;> rfl
  | @send h pkt out quic accepted hh hf =>
    cases pkt with
    | none =>
      cases side with
      | client => rfl
      | server =>
        show ((s.createPkt none).streamSend h none out quic accepted).packets.card = _
        rw [streamSend_packets]
        rfl
    | some p =>
      have e : (s.send side h (some p) out quic accepted).packets = p ::ₘ s.packets := by
        cases side <;> exact streamSend_packets
      rw [e, Multiset.card_cons]
      rfl
  | sendComplete hm => rfl
  | @shutdownComplete h stream hm hn => cases stream <;> rfl

end SendHeap

namespace SendHeap
variable {side : Side} {s s' : SendHeap H}

/-- the allocations whose failure nobody looks at: the packet, where it is used, and `quic_buf` -/
def AllocOk (side : Side) : HeapAct H → Prop
  | .send _ pkt out quic _ => (side = .client ∨ out ≠ none → pkt ≠ none) ∧ (out ≠ none → quic ≠ none)
  | _ => True

theorem streamSend_crashed {h : H} {pkt out quic : Option Blk} {accepted : Bool}
    (hc : s.crashed = false) :
    (s.streamSend h pkt out quic accepted).crashed = false ↔
      (out ≠ none → pkt ≠ none) ∧ (out ≠ none → quic ≠ none) := by
  cases out with
  | none => exact iff_of_true hc ⟨fun h => absurd rfl h, fun h => absurd rfl h⟩
  | some o =>
    cases pkt with
    | none => exact iff_of_false nofun fun h => h.1 nofun rfl
    | some p =>
      cases quic with
      | none => exact iff_of_false nofun fun h => h.2 nofun rfl
      | some q => cases accepted <;> exact iff_of_true hc ⟨nofun, nofun⟩

theorem send_crashed {h : H} {pkt out quic : Option Blk} {accepted : Bool} (hc : s.crashed = false) :
    (s.send side h pkt out quic accepted).crashed = false ↔
      AllocOk side (.send h pkt out quic accepted) := by
  have hk : (s.createPkt pkt).crashed = false := by cases pkt <;> exact hc
  have key : ((s.createPkt pkt).streamSend h pkt out quic accepted).crashed = false ↔
      (out ≠ none → pkt ≠ none) ∧ (out ≠ none → quic ≠ none) := streamSend_crashed hk
  cases side with
  | server =>
    refine key.trans (and_congr_left fun _ => ?_)
    exact ⟨fun hp h => hp (h.resolve_left nofun), fun hp h => hp (.inr h)⟩
  | client =>
    cases pkt with
    | none => exact iff_of_false nofun fun h => h.1 (.inl rfl) rfl
    | some p => exact key.trans (and_congr_left fun _ => ⟨fun _ _ => nofun, fun _ _ => nofun⟩)

theorem Move.crashed {a : HeapAct H} (hm : s.Move side a s') (hc : s.crashed = false) :
    s'.crashed = false ↔ AllocOk side a := by
  cases hm with
  | @started h stream hf => exact iff_of_true (by cases side <;> cases stream <;> exact hc) trivial
  | send hh hf => exact send_crashed hc
  | sendComplete hm => exact iff_of_true hc trivial
  | @shutdownComplete h stream hm hn => exact iff_of_true (by cases stream <;> exact hc) trivial

end SendHeap

end

end QuicVpn
