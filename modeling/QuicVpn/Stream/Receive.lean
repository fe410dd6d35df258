import Mathlib.Tactic.Cases
import QuicVpn.Common.Basic
import QuicVpn.Lib.Blocks

/-!
# The RECEIVE event of the control stream

The control stream carries frames of `sizeof(pkt_ctrl_t)` bytes.  A RECEIVE event indicates bytes as
an array of `QUIC_BUFFER`s, cut anywhere; the handlers of both sides copy one frame after the other
out of that array (`copyQuicBuffers`), pass it to `process_ctrl_pkt`, and report how many bytes they
consumed.

* `copyQuicBuffers_eq`   the loop copies a window of the concatenated buffers;
* `receive_eq`           one event passes the full frames of the bytes it indicates, and consumes
                         these.

What `process_ctrl_pkt` does with a frame is no matter here, only what it returns: `process i pkt` is
the result of the `i`-th call.
-/

set_option linter.unusedSectionVars false

namespace QuicVpn
open Conc

/-- `sizeof(pkt_ctrl_t)`, which is `PKTCTRLSIZ` -/
def pktCtrlSize : ℕ := 1024

theorem pktCtrlSize_pos : 0 < pktCtrlSize := by decide

/-! ## the gather copy -/

/-- `memcpy(dest + pos, src, n)` with `n` the length of `src` -/
def memcpy (dest : List Byte) (pos : ℕ) (src : List Byte) : List Byte :=
  dest.take pos ++ src ++ dest.drop (pos + src.length)

/-- the loop of `copy_quic_buffers`, over the buffers not yet visited -/
def copyQuicBuffers : List (List Byte) → ℕ → List Byte → ℕ → ℕ → List Byte
  | [], _, dest, _, _ => dest
  | buf :: bufs, offset, dest, copied, toCopy =>
    if copied < toCopy then
      if offset ≥ buf.length then
        copyQuicBuffers bufs (offset - buf.length) dest copied toCopy
      else
        let chunk := buf.length - offset
        let chunk := if chunk > toCopy - copied then toCopy - copied else chunk
        -- the offset only applies to the first chunk
        copyQuicBuffers bufs 0 (memcpy dest copied ((buf.drop offset).take chunk))
          (copied + chunk) toCopy
    else dest

theorem memcpy_nil (dest : List Byte) (pos : ℕ) : memcpy dest pos [] = dest := by
  simp [memcpy]

/-- two copies, the second right after the first, are one -/
theorem memcpy_memcpy {dest : List Byte} {pos : ℕ} (h : pos ≤ dest.length) (s t : List Byte) :
    memcpy (memcpy dest pos s) (pos + s.length) t = memcpy dest pos (s ++ t) := by
  have hlen : (dest.take pos ++ s).length = pos + s.length := by simp [h]
  unfold memcpy
  rw [List.take_append_of_le_length hlen.ge, List.take_of_length_le hlen.le, List.drop_append,
    hlen, List.drop_eq_nil_of_le (by omega), List.nil_append, List.drop_drop, List.length_append,
    List.append_assoc (dest.take pos) s t]
  congr 2
  omega

theorem le_length_memcpy {dest : List Byte} {pos : ℕ} (h : pos ≤ dest.length) (s : List Byte) :
    pos + s.length ≤ (memcpy dest pos s).length := by
  simp only [memcpy, List.length_append, List.length_take, Nat.min_eq_left h]
  omega

/-- what one buffer gives is the part of the window inside it -/
theorem take_drop_append (buf rest : List Byte) (offset n : ℕ) :
    ((buf ++ rest).drop offset).take n =
      (buf.drop offset).take n ++
        (rest.drop (offset - buf.length)).take (n - (buf.length - offset)) := by
  rw [List.drop_append, List.take_append, List.length_drop]

theorem copyQuicBuffers_eq (bufs : List (List Byte)) {dest : List Byte} (offset : ℕ) {copied : ℕ}
    (toCopy : ℕ) (h : copied ≤ dest.length) :
    copyQuicBuffers bufs offset dest copied toCopy =
      memcpy dest copied ((bufs.flatten.drop offset).take (toCopy - copied)) := by
  induction bufs generalizing offset dest copied with
  | nil => simp [copyQuicBuffers, memcpy]
  | cons buf bufs ih =>
    rw [List.flatten_cons, take_drop_append, copyQuicBuffers]
    by_cases hc : copied < toCopy
    · rw [if_pos hc]
      by_cases ho : offset ≥ buf.length
      · rw [if_pos ho, ih _ h, List.drop_eq_nil_of_le ho, List.take_nil, List.nil_append,
          Nat.sub_eq_zero_of_le ho, Nat.sub_zero]
      · rw [if_neg ho]
        -- the source clamps the chunk to the room left, which is what `take` does
        obtain ⟨chunk, hchunk⟩ : ∃ c, c = if buf.length - offset > toCopy - copied
            then toCopy - copied else buf.length - offset := ⟨_, rfl⟩
        have hmin : chunk = min (toCopy - copied) (buf.length - offset) := by
          rw [hchunk]; split <;> omega
        have hsrc : (buf.drop offset).take chunk = (buf.drop offset).take (toCopy - copied) := by
          rw [List.take_eq_take_iff, List.length_drop]
          omega
        have hlen : ((buf.drop offset).take (toCopy - copied)).length = chunk := by
          rw [List.length_take, List.length_drop, hmin]
        show copyQuicBuffers bufs 0 (memcpy dest copied ((buf.drop offset).take (if _ then _ else _)))
          (copied + if _ then _ else _) toCopy = _
        have hrest : toCopy - (copied + chunk) = toCopy - copied - (buf.length - offset) := by
          omega
        rw [← hchunk, hsrc, ih 0 (hlen ▸ le_length_memcpy h _), hrest,
          Nat.sub_eq_zero_of_le (show offset ≤ buf.length by omega)]
        conv_lhs => rw [← hlen, memcpy_memcpy h]
    · rw [if_neg hc, show toCopy - copied = 0 by omega, Nat.zero_sub, List.take_zero,
        List.take_zero, List.append_nil, memcpy_nil]

/-- copied to the start of a destination it fills, the window is all that is left there -/
theorem copyQuicBuffers_fill {bufs : List (List Byte)} {dest : List Byte} {offset : ℕ}
    (h : offset + dest.length ≤ bufs.flatten.length) :
    copyQuicBuffers bufs offset dest 0 dest.length =
      (bufs.flatten.drop offset).take dest.length := by
  have hlen : ((bufs.flatten.drop offset).take dest.length).length = dest.length := by
    rw [List.length_take, List.length_drop]
    omega
  rw [copyQuicBuffers_eq bufs offset dest.length (Nat.zero_le _), Nat.sub_zero]
  unfold memcpy
  rw [hlen, Nat.zero_add, List.drop_length, List.take_zero, List.append_nil, List.nil_append]

/-! ## the handlers -/

/-- what a handler leaves: the frames passed to `process_ctrl_pkt` on this stream so far, the value
of `TotalBufferLength`, and the status it returned -/
structure Received where
  passed : List (List Byte)
  consumed : ℕ
  status : QuicStatus

section
variable (side : Side) (process : ℕ → List Byte → ℤ)

/-- the `while` loop: the server ignores the result of `process_ctrl_pkt`, the client returns on an
error without having set `TotalBufferLength` -/
def receiveLoop (bufs : List (List Byte)) (total consumed : ℕ) (passed : List (List Byte)) :
    Received :=
  if total - consumed ≥ pktCtrlSize then
    let pkt := copyQuicBuffers bufs consumed (List.replicate pktCtrlSize 0) 0 pktCtrlSize
    if side = .client ∧ process passed.length pkt ≠ 0 then
      ⟨passed ++ [pkt], total, .aborted⟩
    else receiveLoop bufs total (consumed + pktCtrlSize) (passed ++ [pkt])
  else ⟨passed, consumed, .success⟩
termination_by total - consumed
decreasing_by
  have := pktCtrlSize_pos
  omega

/-- `QUIC_STREAM_EVENT_RECEIVE`; returning `QUIC_STATUS_CONTINUE` for a rest is commented out on the
server and absent on the client -/
def receive (bufs : List (List Byte)) (total : ℕ) (passed : List (List Byte)) : Received :=
  match side with
  | .server => receiveLoop .server process bufs total 0 passed
  | .client =>
    if total = 0 then ⟨passed, total, .protocolError⟩
    else receiveLoop .client process bufs total 0 passed

end

/-- no frame of the list makes `process_ctrl_pkt` fail, the `k`-th frame being its `k`-th call -/
def Handled (process : ℕ → List Byte → ℤ) (frames : List (List Byte)) : Prop :=
  ∀ k f, frames[k]? = some f → process k f = 0

theorem Handled.mono {process : ℕ → List Byte → ℤ} {a b : List (List Byte)}
    (h : Handled process b) (hab : a <+: b) : Handled process a := by
  obtain ⟨c, rfl⟩ := hab
  intro k f hf
  apply h k f
  obtain ⟨hk, -⟩ := List.getElem?_eq_some_iff.mp hf
  rw [List.getElem?_append_left hk]
  exact hf

section
variable {side : Side} {process : ℕ → List Byte → ℤ}

/-- the packet of one turn is the next frame of the bytes -/
theorem frame_eq (bufs : List (List Byte)) {consumed : ℕ}
    (h : bufs.flatten.length - consumed ≥ pktCtrlSize) :
    copyQuicBuffers bufs consumed (List.replicate pktCtrlSize 0) 0 pktCtrlSize =
      (bufs.flatten.drop consumed).take pktCtrlSize := by
  obtain ⟨dest, hdest⟩ : ∃ d : List Byte, d = List.replicate pktCtrlSize 0 := ⟨_, rfl⟩
  have hlen : dest.length = pktCtrlSize := by rw [hdest, List.length_replicate]
  have := pktCtrlSize_pos
  rw [← hdest, ← hlen]
  apply copyQuicBuffers_fill
  omega

/-- from any offset inside the bytes, the loop passes the full frames of what follows -/
theorem receiveLoop_eq (bufs : List (List Byte)) (consumed : ℕ) (passed : List (List Byte))
    (h : side = .client →
      Handled process (passed ++ blocks pktCtrlSize (bufs.flatten.drop consumed))) :
    receiveLoop side process bufs bufs.flatten.length consumed passed =
      ⟨passed ++ blocks pktCtrlSize (bufs.flatten.drop consumed),
        consumed + pktCtrlSize * ((bufs.flatten.length - consumed) / pktCtrlSize), .success⟩ := by
  -- over the turns of the loop; what is left of the bytes decreases
  induction consumed, passed using receiveLoop.induct side process bufs bufs.flatten.length with
  | case1 consumed passed hge pkt hstop =>
    have hpkt : pkt = (bufs.flatten.drop consumed).take pktCtrlSize := frame_eq bufs hge
    rw [blocks_of_le _ pktCtrlSize_pos (by rw [List.length_drop]; exact hge), ← hpkt] at h
    exact absurd (h hstop.1 passed.length pkt (List.getElem?_append_right le_rfl ▸ by simp)) hstop.2
  | case2 consumed passed hge pkt hgo ih =>
    have hpkt : pkt = (bufs.flatten.drop consumed).take pktCtrlSize := frame_eq bufs hge
    have hcons : blocks pktCtrlSize (bufs.flatten.drop consumed) =
        pkt :: blocks pktCtrlSize (bufs.flatten.drop (consumed + pktCtrlSize)) := by
      rw [blocks_of_le _ pktCtrlSize_pos (by rw [List.length_drop]; exact hge), List.drop_drop,
        ← hpkt]
    rw [hcons, ← List.singleton_append, ← List.append_assoc] at h
    rw [receiveLoop, if_pos hge]
    show (if side = .client ∧ process passed.length pkt ≠ 0 then _ else _) = _
    rw [if_neg hgo, ih h, hcons, List.append_assoc, List.singleton_append]
    congr 1
    rw [Nat.div_eq_sub_div pktCtrlSize_pos hge, Nat.sub_add_eq]
    ring
  | case3 consumed passed hlt =>
    have hlt' : bufs.flatten.length - consumed < pktCtrlSize := by omega
    rw [receiveLoop, if_neg hlt, blocks_of_lt _ (by rw [List.length_drop]; exact hlt'),
      List.append_nil, Nat.div_eq_of_lt hlt', Nat.mul_zero, Nat.add_zero]

/-- bytes are left over only by a handler that returns success -/
theorem receive_eq (bufs : List (List Byte)) (passed : List (List Byte))
    (h : side = .client → Handled process (passed ++ blocks pktCtrlSize bufs.flatten)) :
    ∃ status, (bufs.flatten ≠ [] → status = .success) ∧
      receive side process bufs bufs.flatten.length passed =
        ⟨passed ++ blocks pktCtrlSize bufs.flatten,
          pktCtrlSize * (bufs.flatten.length / pktCtrlSize), status⟩ := by
  have hloop := receiveLoop_eq bufs 0 passed h
  rw [List.drop_zero, Nat.sub_zero, Nat.zero_add] at hloop
  cases side with
  | server => exact ⟨.success, fun _ => rfl, hloop⟩
  | client =>
    by_cases h0 : bufs.flatten = []
    · refine ⟨.protocolError, fun hne => absurd h0 hne, ?_⟩
      rw [h0, blocks_of_lt _ pktCtrlSize_pos, List.append_nil]
      rfl
    · refine ⟨.success, fun _ => rfl, ?_⟩
      show (if bufs.flatten.length = 0 then _ else _) = _
      rw [if_neg (fun e => h0 (List.length_eq_zero_iff.mp e)), hloop]

end

end QuicVpn
