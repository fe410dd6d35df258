import QuicVpn.Stream.Receive

/-!
# The RECEIVE handlers on machine words

`Stream/Receive.lean` counts in natural numbers.  Here `copy_quic_buffers` and the two handlers have the
types of the source: the lengths of the buffers and the counters of the copy have 32 bits, the offset and
the counters of the handlers 64, and the guard of the loop is a subtraction that may wrap.

* `Machine.copyQuicBuffers`, `Machine.receiveLoop`, `Machine.receive`;
* `Machine.copyQuicBuffers_eq`, `Machine.receiveLoop_refines`   they compute what the functions on
                       natural numbers do.

The main result is `receive_framed`.
-/

set_option linter.unusedSectionVars false

namespace QuicVpn
open Conc

/-- `QUIC_BUFFER` -/
structure QuicBuffer where
  bytes : List Byte
  lt : bytes.length < 2 ^ 32

def QuicBuffer.length (buf : QuicBuffer) : UInt32 := UInt32.ofNat buf.bytes.length

/-- the bytes that an array of buffers indicates -/
def indicated (bufs : List QuicBuffer) : List Byte := (bufs.map QuicBuffer.bytes).flatten

namespace Machine

/-- the loop of `copy_quic_buffers`, over the buffers not yet visited -/
def copyQuicBuffers : List QuicBuffer → UInt64 → List Byte → UInt32 → UInt32 → List Byte
  | [], _, dest, _, _ => dest
  | buf :: bufs, offset, dest, copied, toCopy =>
    if copied < toCopy then
      if offset ≥ buf.length.toUInt64 then
        copyQuicBuffers bufs (offset - buf.length.toUInt64) dest copied toCopy
      else
        let chunk := buf.length - offset.toUInt32
        let chunk := if chunk > toCopy - copied then toCopy - copied else chunk
        copyQuicBuffers bufs 0
          (memcpy dest copied.toNat ((buf.bytes.drop offset.toNat).take chunk.toNat))
          (copied + chunk) toCopy
    else dest

/-- `sizeof(pkt_ctrl_t)` -/
def pktCtrlSize : UInt64 := 1024

section
variable (side : Side) (process : ℕ → List Byte → ℤ)

/-- the `while` loop of the two handlers -/
def receiveLoop (bufs : List QuicBuffer) (total consumed : UInt64) (passed : List (List Byte)) :
    Received :=
  if total - consumed ≥ pktCtrlSize then
    let pkt := copyQuicBuffers bufs consumed (List.replicate pktCtrlSize.toNat 0) 0
      pktCtrlSize.toUInt32
    if side = .client ∧ process passed.length pkt ≠ 0 then
      ⟨passed ++ [pkt], total.toNat, .aborted⟩
    else receiveLoop bufs total (consumed + pktCtrlSize) (passed ++ [pkt])
  else ⟨passed, consumed.toNat, .success⟩
termination_by (total - consumed).toNat
decreasing_by
  rename_i hge _
  have hle : pktCtrlSize ≤ total - consumed := hge
  have h1024 : pktCtrlSize.toNat = 1024 := rfl
  have hle' := UInt64.le_iff_toNat_le.mp hle
  have ht := total.toNat_lt
  have hc := consumed.toNat_lt
  rw [UInt64.toNat_sub, h1024] at hle'
  rw [UInt64.toNat_sub, UInt64.toNat_sub, UInt64.toNat_add, h1024]
  omega

/-- `QUIC_STREAM_EVENT_RECEIVE` -/
def receive (bufs : List QuicBuffer) (total : UInt64) (passed : List (List Byte)) : Received :=
  match side with
  | .server => receiveLoop .server process bufs total 0 passed
  | .client =>
    if total = 0 then ⟨passed, total.toNat, .protocolError⟩
    else receiveLoop .client process bufs total 0 passed

end

theorem length_toNat (buf : QuicBuffer) : buf.length.toNat = buf.bytes.length := by
  rw [QuicBuffer.length, UInt32.toNat_ofNat', Nat.mod_eq_of_lt buf.lt]

theorem length_toUInt64 (buf : QuicBuffer) : buf.length.toUInt64.toNat = buf.bytes.length := by
  rw [UInt32.toNat_toUInt64, length_toNat]

/-- a buffer is skipped when the offset is not inside it -/
theorem offset_ge_iff (buf : QuicBuffer) (offset : UInt64) :
    offset ≥ buf.length.toUInt64 ↔ offset.toNat ≥ buf.bytes.length := by
  rw [ge_iff_le, UInt64.le_iff_toNat_le, length_toUInt64]

/-- the words of one turn do not overflow -/
theorem chunk_toNat (buf : QuicBuffer) {offset : UInt64} {copied toCopy chunk : UInt32}
    (h : copied ≤ toCopy) (ho : ¬ offset.toNat ≥ buf.bytes.length)
    (hchunk : chunk = if buf.length - offset.toUInt32 > toCopy - copied then toCopy - copied
      else buf.length - offset.toUInt32) :
    chunk.toNat = (if buf.bytes.length - offset.toNat > toCopy.toNat - copied.toNat
        then toCopy.toNat - copied.toNat else buf.bytes.length - offset.toNat) ∧
      (copied + chunk).toNat = copied.toNat + chunk.toNat ∧ copied + chunk ≤ toCopy := by
  -- the rest of the buffer, and the room that is left
  have hoff : offset.toUInt32.toNat = offset.toNat := by
    rw [UInt64.toNat_toUInt32]
    exact Nat.mod_eq_of_lt (by have := buf.lt; omega)
  have hrest : (buf.length - offset.toUInt32).toNat = buf.bytes.length - offset.toNat := by
    rw [UInt32.toNat_sub_of_le _ _ (UInt32.le_iff_toNat_le.mpr (by
      rw [hoff, length_toNat]; omega)), hoff, length_toNat]
  have hroom : (toCopy - copied).toNat = toCopy.toNat - copied.toNat :=
    UInt32.toNat_sub_of_le _ _ h
  have hnat : chunk.toNat = if buf.bytes.length - offset.toNat > toCopy.toNat - copied.toNat
      then toCopy.toNat - copied.toNat else buf.bytes.length - offset.toNat := by
    have hgt : buf.length - offset.toUInt32 > toCopy - copied ↔
        buf.bytes.length - offset.toNat > toCopy.toNat - copied.toNat := by
      rw [gt_iff_lt, UInt32.lt_iff_toNat_lt, hroom, hrest]
    rw [hchunk, apply_ite UInt32.toNat, hroom, hrest]
    exact if_congr hgt rfl rfl
  have hle : copied.toNat + chunk.toNat ≤ toCopy.toNat := by
    have := UInt32.le_iff_toNat_le.mp h
    rw [hnat]
    split <;> omega
  have hadd : (copied + chunk).toNat = copied.toNat + chunk.toNat := by
    rw [UInt32.toNat_add]
    exact Nat.mod_eq_of_lt (lt_of_le_of_lt hle toCopy.toNat_lt)
  exact ⟨hnat, hadd, UInt32.le_iff_toNat_le.mpr (hadd ▸ hle)⟩

/-- the words of the copy do not overflow -/
theorem copyQuicBuffers_eq (bufs : List QuicBuffer) (offset : UInt64) (dest : List Byte)
    {copied toCopy : UInt32} (h : copied ≤ toCopy) :
    copyQuicBuffers bufs offset dest copied toCopy =
      QuicVpn.copyQuicBuffers (bufs.map QuicBuffer.bytes) offset.toNat dest copied.toNat
        toCopy.toNat := by
  induction bufs generalizing offset dest copied with
  | nil => rfl
  | cons buf bufs ih =>
    rw [List.map_cons, copyQuicBuffers, QuicVpn.copyQuicBuffers]
    by_cases hc : copied < toCopy
    · rw [if_pos hc, if_pos (UInt32.lt_iff_toNat_lt.mp hc)]
      by_cases ho : offset.toNat ≥ buf.bytes.length
      · have ho' := (offset_ge_iff buf offset).mpr ho
        rw [if_pos ho, if_pos ho', ih _ _ h, UInt64.toNat_sub_of_le _ _ ho', length_toUInt64]
      · rw [if_neg ho, if_neg (fun hge => ho ((offset_ge_iff buf offset).mp hge))]
        obtain ⟨chunk, hchunk⟩ : ∃ c, c = if buf.length - offset.toUInt32 > toCopy - copied then
            toCopy - copied else buf.length - offset.toUInt32 := ⟨_, rfl⟩
        obtain ⟨hnat, hadd, hle⟩ := chunk_toNat buf h ho hchunk
        show copyQuicBuffers bufs 0 (memcpy _ _ (List.take (UInt32.toNat (if _ then _ else _)) _))
          (copied + if _ then _ else _) toCopy = QuicVpn.copyQuicBuffers _ 0
            (memcpy _ _ (List.take (if _ then _ else _) _)) (copied.toNat + if _ then _ else _) _
        rw [← hchunk, ← hnat, ih _ _ hle, hadd]
        rfl
    · rw [if_neg hc, if_neg fun hlt => hc (UInt32.lt_iff_toNat_lt.mpr hlt)]

section
variable {side : Side} {process : ℕ → List Byte → ℤ}

/-- the subtraction of the guard does not wrap, as the frames consumed were there -/
theorem guard_iff {total consumed : UInt64} (h : consumed ≤ total) :
    total - consumed ≥ pktCtrlSize ↔ total.toNat - consumed.toNat ≥ QuicVpn.pktCtrlSize := by
  rw [ge_iff_le, UInt64.le_iff_toNat_le, UInt64.toNat_sub_of_le _ _ h]
  rfl

theorem frame_refines (bufs : List QuicBuffer) (consumed : UInt64) :
    copyQuicBuffers bufs consumed (List.replicate pktCtrlSize.toNat 0) 0 pktCtrlSize.toUInt32 =
      QuicVpn.copyQuicBuffers (bufs.map QuicBuffer.bytes) consumed.toNat
        (List.replicate QuicVpn.pktCtrlSize 0) 0 QuicVpn.pktCtrlSize :=
  copyQuicBuffers_eq bufs consumed _ (by decide)

theorem receiveLoop_refines (bufs : List QuicBuffer) (total consumed : UInt64)
    (passed : List (List Byte)) (h : consumed ≤ total) :
    receiveLoop side process bufs total consumed passed =
      QuicVpn.receiveLoop side process (bufs.map QuicBuffer.bytes) total.toNat consumed.toNat
        passed := by
  induction consumed, passed using receiveLoop.induct side process bufs total with
  | case1 consumed passed hge pkt hstop =>
    have hge' := (guard_iff h).mp hge
    have hpkt : pkt = _ := frame_refines bufs consumed
    rw [receiveLoop, if_pos hge, QuicVpn.receiveLoop, if_pos hge']
    dsimp only
    rw [if_pos hstop, ← hpkt, if_pos hstop]
  | case2 consumed passed hge pkt hgo ih =>
    have hge' := (guard_iff h).mp hge
    have hpkt : pkt = _ := frame_refines bufs consumed
    have h1024 : QuicVpn.pktCtrlSize = 1024 := rfl
    have hadd : (consumed + pktCtrlSize).toNat = consumed.toNat + QuicVpn.pktCtrlSize := by
      rw [UInt64.toNat_add]
      exact Nat.mod_eq_of_lt (by
        have := total.toNat_lt
        have : pktCtrlSize.toNat = 1024 := rfl
        omega)
    rw [receiveLoop, if_pos hge, QuicVpn.receiveLoop, if_pos hge']
    dsimp only
    rw [if_neg hgo, ← hpkt, if_neg hgo, ← hadd]
    exact ih (UInt64.le_iff_toNat_le.mpr (by rw [hadd]; omega))
  | case3 consumed passed hlt =>
    rw [receiveLoop, if_neg hlt, QuicVpn.receiveLoop, if_neg (fun hge => hlt ((guard_iff h).mpr hge))]

end

end Machine

/-- **One RECEIVE event.**  However the bytes are cut into buffers, both handlers pass the full frames
on in their order, each once, and report the bytes of these as consumed; for the client there has to be
something to read, and no frame may be rejected. -/
theorem receive_framed (side : Side) (process : ℕ → List Byte → ℤ) (bufs : List QuicBuffer)
    (total : UInt64) (ht : total.toNat = (indicated bufs).length)
    (hclient : side = .client → 0 < (indicated bufs).length ∧
      ∀ k < (indicated bufs).length / 1024,
        process k (((indicated bufs).drop (1024 * k)).take 1024) = 0) :
    Machine.receive side process bufs total [] =
      ⟨(List.range ((indicated bufs).length / 1024)).map fun k =>
          ((indicated bufs).drop (1024 * k)).take 1024,
        1024 * ((indicated bufs).length / 1024), .success⟩ := by
  have hhandled : side = .client →
      Handled process ([] ++ blocks pktCtrlSize ((indicated bufs).drop 0)) := by
    intro hc k f hf
    rw [List.nil_append, List.drop_zero] at hf
    obtain ⟨hk, rfl⟩ := List.getElem?_eq_some_iff.mp hf
    rw [length_blocks] at hk
    simp only [blocks, List.getElem_map, List.getElem_range]
    exact (hclient hc).2 k hk
  have hloop := receiveLoop_eq (bufs.map QuicBuffer.bytes) 0 [] hhandled
  rw [List.drop_zero, Nat.sub_zero, Nat.zero_add, List.nil_append] at hloop
  have href := @Machine.receiveLoop_refines side process bufs total 0 [] UInt64.zero_le
  rw [ht] at href
  replace href := href.trans hloop
  cases side with
  | server => exact href
  | client =>
    have hne : total ≠ 0 := by
      intro e
      have := (hclient rfl).1
      rw [← ht, e] at this
      exact absurd this (Nat.lt_irrefl 0)
    show (if total = 0 then _ else _) = _
    rw [if_neg hne]
    exact href

/-- `n` zero bytes in one buffer -/
def zeroBuffer (n : ℕ) (h : n < 2 ^ 32) : QuicBuffer :=
  ⟨List.replicate n 0, by rw [List.length_replicate]; exact h⟩

theorem zeroBuffer_length (n : ℕ) (h : n < 2 ^ 32) : (zeroBuffer n h).bytes.length = n :=
  List.length_replicate

theorem length_indicated_cons (buf : QuicBuffer) (bufs : List QuicBuffer) :
    (indicated (buf :: bufs)).length = buf.bytes.length + (indicated bufs).length := by
  rw [indicated, List.map_cons, List.flatten_cons, List.length_append]
  rfl

/-- a frame and 76 bytes more in three buffers, one of them empty -/
theorem receive_framed_three :
    let bufs := [zeroBuffer 700 (by decide), zeroBuffer 0 (by decide), zeroBuffer 400 (by decide)]
    let r := Machine.receive .client (fun _ _ => 0) bufs 1100 []
    r.passed.length = 1 ∧ r.consumed = 1024 ∧ r.status = .success := by
  intro bufs r
  have hlen : (indicated bufs).length = 1100 := by
    rw [length_indicated_cons, length_indicated_cons, length_indicated_cons, zeroBuffer_length,
      zeroBuffer_length, zeroBuffer_length]
    rfl
  have h : r = _ := receive_framed .client (fun _ _ => 0) bufs 1100 (by rw [hlen]; rfl)
    fun _ => ⟨by rw [hlen]; decide, fun _ _ => rfl⟩
  rw [h, hlen]
  exact ⟨rfl, rfl, rfl⟩

end QuicVpn
