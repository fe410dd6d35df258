import QuicVpn.Stream.Machine

/-!
# The gather copy in memory

`copy_quic_buffers` of both sides, on a destination that has no end, with a record of what is read and
written.

* `serverCopyQuicBuffers`, `clientCopyQuicBuffers`   the two copies of the loop;
* `Gathered`             what a part of the loop does: a window of the buffers still to come is copied;
* `serverCopyQuicBuffers_gathered`   every part of the loop does so;
* `gather_copy`          the whole of it.
-/

set_option linter.unusedSectionVars false

namespace QuicVpn
open Conc

/-- the local variables of the loop; `reads` has a buffer and a position for every byte that was read,
`writes` a position of the destination for every byte that was written -/
structure Gather where
  dest : ℕ → Byte
  copied : UInt32
  offset : UInt64
  reads : List (ℕ × ℕ)
  writes : List ℕ

/-- `memcpy(dest + copied, quic_buf[i].Buffer + offset, chunk)` -/
def Gather.memcpy (s : Gather) (i : ℕ) (buf : QuicBuffer) (chunk : UInt32) : Gather :=
  let pos := s.copied.toNat
  { s with
    dest := fun k => if pos ≤ k ∧ k < pos + chunk.toNat then
      buf.bytes.getD (s.offset.toNat + (k - pos)) 0 else s.dest k
    reads := s.reads ++ (List.range chunk.toNat).map fun k => (i, s.offset.toNat + k)
    writes := s.writes ++ (List.range chunk.toNat).map fun k => pos + k }

/-- the loop of the server, over the buffers not yet visited; the next one is buffer `i` -/
def serverCopyQuicBuffers (toCopy : UInt32) : List QuicBuffer → ℕ → Gather → Gather
  | [], _, s => s
  | buf :: quicBuf, i, s =>
    if s.copied < toCopy then
      if s.offset ≥ buf.length.toUInt64 then
        serverCopyQuicBuffers toCopy quicBuf (i + 1) { s with offset := s.offset - buf.length.toUInt64 }
      else
        let chunk := buf.length - s.offset.toUInt32
        let chunk := if chunk > toCopy - s.copied then toCopy - s.copied else chunk
        let s := s.memcpy i buf chunk
        serverCopyQuicBuffers toCopy quicBuf (i + 1) { s with copied := s.copied + chunk, offset := 0 }
    else s

/-- the loop of the client -/
def clientCopyQuicBuffers (bytesToCopy : UInt32) : List QuicBuffer → ℕ → Gather → Gather
  | [], _, s => s
  | buffer :: buffers, i, s =>
    if s.copied < bytesToCopy then
      if s.offset ≥ buffer.length.toUInt64 then
        clientCopyQuicBuffers bytesToCopy buffers (i + 1)
          { s with offset := s.offset - buffer.length.toUInt64 }
      else
        let chunk := buffer.length - s.offset.toUInt32
        let chunk := if chunk > bytesToCopy - s.copied then bytesToCopy - s.copied else chunk
        let s := s.memcpy i buffer chunk
        clientCopyQuicBuffers bytesToCopy buffers (i + 1)
          { s with copied := s.copied + chunk, offset := 0 }
    else s

theorem clientCopyQuicBuffers_eq (toCopy : UInt32) (bufs : List QuicBuffer) (i : ℕ) (s : Gather) :
    clientCopyQuicBuffers toCopy bufs i s = serverCopyQuicBuffers toCopy bufs i s := by
  induction bufs generalizing i s with
  | nil => rfl
  | cons buf bufs ih =>
    rw [clientCopyQuicBuffers, serverCopyQuicBuffers]
    simp only [ih]

/-- the bytes of the buffers, one after the other -/
def concat (bufs : List QuicBuffer) : List Byte := (bufs.map QuicBuffer.bytes).flatten

/-- `n` bytes of the buffers `bufs`, which begin with buffer `i`, have been copied behind those that
were there; nothing else was written, and nothing outside a buffer was read -/
structure Gathered (bufs : List QuicBuffer) (i n : ℕ) (s u : Gather) : Prop where
  copied : u.copied.toNat = s.copied.toNat + n
  window : ∀ k < n, (concat bufs)[s.offset.toNat + k]? = some (u.dest (s.copied.toNat + k))
  frame : ∀ k, k < s.copied.toNat ∨ s.copied.toNat + n ≤ k → u.dest k = s.dest k
  reads : ∀ p ∈ u.reads, p ∈ s.reads ∨
    ∃ buf, i ≤ p.1 ∧ bufs[p.1 - i]? = some buf ∧ p.2 < buf.bytes.length
  writes : ∀ k ∈ u.writes, k ∈ s.writes ∨ s.copied.toNat ≤ k ∧ k < s.copied.toNat + n

theorem Gathered.nothing (bufs : List QuicBuffer) (i : ℕ) (s : Gather) : Gathered bufs i 0 s s :=
  ⟨rfl, fun k hk => absurd hk (Nat.not_lt_zero k), fun _ _ => rfl, fun _ hp => .inl hp,
    fun _ hk => .inl hk⟩

section
variable {buf : QuicBuffer} {bufs : List QuicBuffer} {i n : ℕ} {s u : Gather}

/-- a read in a later buffer is one of all the buffers -/
theorem exists_read_cons {p : ℕ × ℕ}
    (h : ∃ b, i + 1 ≤ p.1 ∧ bufs[p.1 - (i + 1)]? = some b ∧ p.2 < b.bytes.length) :
    ∃ b, i ≤ p.1 ∧ (buf :: bufs)[p.1 - i]? = some b ∧ p.2 < b.bytes.length := by
  obtain ⟨b, hi, hb, hlt⟩ := h
  refine ⟨b, by omega, ?_, hlt⟩
  rw [show p.1 - i = p.1 - (i + 1) + 1 by omega, List.getElem?_cons_succ]
  exact hb

theorem concat_cons_of_le {k : ℕ} (h : buf.bytes.length ≤ k) :
    (concat (buf :: bufs))[k]? = (concat bufs)[k - buf.bytes.length]? :=
  List.getElem?_append_right h

/-- a buffer that is skipped -/
theorem Gathered.skip (ho : s.offset.toNat ≥ buf.bytes.length)
    (h : Gathered bufs (i + 1) n { s with offset := s.offset - buf.length.toUInt64 } u) :
    Gathered (buf :: bufs) i n s u := by
  have hoff : (s.offset - buf.length.toUInt64).toNat = s.offset.toNat - buf.bytes.length := by
    rw [UInt64.toNat_sub_of_le _ _ ((Machine.offset_ge_iff buf s.offset).mpr ho),
      Machine.length_toUInt64]
  refine ⟨h.copied, fun k hk => ?_, h.frame, fun p hp => ?_, h.writes⟩
  · have hw := h.window k hk
    rw [concat_cons_of_le (by omega), show s.offset.toNat + k - buf.bytes.length =
      s.offset.toNat - buf.bytes.length + k by omega, ← hoff]
    exact hw
  · exact (h.reads p hp).imp_right exists_read_cons

/-- the state after a buffer that gives `chunk` bytes -/
def Gather.take (s : Gather) (i : ℕ) (buf : QuicBuffer) (chunk : UInt32) : Gather :=
  { s.memcpy i buf chunk with copied := s.copied + chunk, offset := 0 }

/-- a buffer that gives `chunk` bytes: all it has, or else the last ones -/
theorem Gathered.take {chunk : UInt32} (hin : s.offset.toNat + chunk.toNat ≤ buf.bytes.length)
    (hadd : (s.copied + chunk).toNat = s.copied.toNat + chunk.toNat)
    (hlast : s.offset.toNat + chunk.toNat = buf.bytes.length ∨ n = 0)
    (h : Gathered bufs (i + 1) n (s.take i buf chunk) u) :
    Gathered (buf :: bufs) i (chunk.toNat + n) s u := by
  have hcopied : (s.take i buf chunk).copied.toNat = s.copied.toNat + chunk.toNat := hadd
  refine ⟨?_, fun k hk => ?_, fun k hk => ?_, fun p hp => ?_, fun k hk => ?_⟩
  · rw [h.copied, hcopied, Nat.add_assoc]
  · by_cases hc : k < chunk.toNat
    · -- what `memcpy` has put there stays
      rw [h.frame _ (.inl (by omega))]
      show (buf.bytes ++ concat bufs)[s.offset.toNat + k]? = some (if _ then _ else _)
      rw [if_pos ⟨by omega, by omega⟩, List.getElem?_append_left (by omega),
        List.getD_eq_getElem?_getD, Nat.add_sub_cancel_left, List.getElem?_eq_getElem (by omega),
        Option.getD_some]
    · have hw := h.window (k - chunk.toNat) (by omega)
      rw [hcopied, show s.copied.toNat + chunk.toNat + (k - chunk.toNat) = s.copied.toNat + k by omega]
        at hw
      rw [concat_cons_of_le (by omega), ← hw]
      show _ = (concat bufs)[(0 : UInt64).toNat + (k - chunk.toNat)]?
      rw [UInt64.toNat_zero, Nat.zero_add]
      congr 1
      omega
  · rw [h.frame k (by omega)]
    exact if_neg (by omega)
  · rcases h.reads p hp with hp' | hp'
    · rcases List.mem_append.mp hp' with hs | hnew
      · exact .inl hs
      · obtain ⟨k, hk, rfl⟩ := List.mem_map.mp hnew
        have hlt := List.mem_range.mp hk
        refine .inr ⟨buf, Nat.le_refl i, ?_, by dsimp only; omega⟩
        rw [Nat.sub_self, List.getElem?_cons_zero]
    · exact .inr (exists_read_cons hp')
  · rcases h.writes k hk with hk' | hk'
    · rcases List.mem_append.mp hk' with hs | hnew
      · exact .inl hs
      · obtain ⟨j, hj, rfl⟩ := List.mem_map.mp hnew
        have hlt := List.mem_range.mp hj
        exact .inr (by omega)
    · exact .inr (by omega)

end

theorem serverCopyQuicBuffers_gathered (toCopy : UInt32) (bufs : List QuicBuffer) (i : ℕ) (s : Gather)
    (h : s.copied ≤ toCopy) :
    Gathered bufs i (min (toCopy.toNat - s.copied.toNat) ((concat bufs).length - s.offset.toNat)) s
      (serverCopyQuicBuffers toCopy bufs i s) := by
  induction bufs generalizing i s with
  | nil =>
    rw [show (concat []).length = 0 from rfl, Nat.zero_sub, Nat.min_zero]
    exact .nothing [] i s
  | cons buf bufs ih =>
    have hle := UInt32.le_iff_toNat_le.mp h
    have hlen : (concat (buf :: bufs)).length = buf.bytes.length + (concat bufs).length :=
      List.length_append
    rw [serverCopyQuicBuffers, hlen]
    by_cases hc : s.copied < toCopy
    · rw [if_pos hc]
      by_cases ho : s.offset.toNat ≥ buf.bytes.length
      · have ho' := (Machine.offset_ge_iff buf s.offset).mpr ho
        have hg := ih (i + 1) { s with offset := s.offset - buf.length.toUInt64 } h
        dsimp only at hg
        rw [UInt64.toNat_sub_of_le _ _ ho', Machine.length_toUInt64] at hg
        rw [if_pos ho', show buf.bytes.length + (concat bufs).length - s.offset.toNat =
          (concat bufs).length - (s.offset.toNat - buf.bytes.length) by omega]
        exact hg.skip ho
      · rw [if_neg (fun hge => ho ((Machine.offset_ge_iff buf s.offset).mp hge))]
        obtain ⟨chunk, hchunk⟩ : ∃ c, c = if buf.length - s.offset.toUInt32 > toCopy - s.copied then
            toCopy - s.copied else buf.length - s.offset.toUInt32 := ⟨_, rfl⟩
        obtain ⟨hnat, hadd, hle'⟩ := Machine.chunk_toNat buf h ho hchunk
        have hg := ih (i + 1) (s.take i buf chunk) hle'
        rw [show (s.take i buf chunk).copied.toNat = s.copied.toNat + chunk.toNat from hadd,
          show (s.take i buf chunk).offset.toNat = 0 from rfl, Nat.sub_zero] at hg
        dsimp only
        rw [← hchunk]
        -- either the buffer has been used up, or there is no room left
        have hcount : min (toCopy.toNat - s.copied.toNat)
            (buf.bytes.length + (concat bufs).length - s.offset.toNat) = chunk.toNat +
              min (toCopy.toNat - (s.copied.toNat + chunk.toNat)) (concat bufs).length := by
          split_ifs at hnat <;> omega
        rw [hcount]
        refine Gathered.take ?_ hadd ?_ hg
        · split_ifs at hnat <;> omega
        · split_ifs at hnat <;> omega
    · have hge : toCopy.toNat ≤ s.copied.toNat :=
        Nat.le_of_not_lt fun hlt => hc (UInt32.lt_iff_toNat_lt.mpr hlt)
      have hz : toCopy.toNat - s.copied.toNat = 0 := Nat.sub_eq_zero_of_le hge
      rw [if_neg hc, hz, Nat.zero_min]
      exact .nothing _ i s

/-- the whole loop, from the beginning of the destination on -/
theorem gathered_all (toCopy : UInt32) (bufs : List QuicBuffer) (offset : UInt64) (dest : ℕ → Byte) :
    Gathered bufs 0 (min toCopy.toNat ((concat bufs).length - offset.toNat)) ⟨dest, 0, offset, [], []⟩
      (serverCopyQuicBuffers toCopy bufs 0 ⟨dest, 0, offset, [], []⟩) :=
  serverCopyQuicBuffers_gathered toCopy bufs 0 ⟨dest, 0, offset, [], []⟩ UInt32.zero_le

/-- on the bytes of a destination that ends, the loop is the one of the handlers -/
theorem gather_refines (bufs : List QuicBuffer) (offset : UInt64) (toCopy : UInt32) {d : List Byte}
    {k : ℕ} (hk : k < d.length) :
    (Machine.copyQuicBuffers bufs offset d 0 toCopy)[k]? =
      some ((serverCopyQuicBuffers toCopy bufs 0 ⟨fun j => d.getD j 0, 0, offset, [], []⟩).dest k) := by
  have h := gathered_all toCopy bufs offset fun j => d.getD j 0
  have hlen : (((concat bufs).drop offset.toNat).take toCopy.toNat).length =
      min toCopy.toNat ((concat bufs).length - offset.toNat) := by
    rw [List.length_take, List.length_drop]
  rw [Machine.copyQuicBuffers_eq bufs offset d UInt32.zero_le, UInt32.toNat_zero,
    copyQuicBuffers_eq _ _ _ (Nat.zero_le _)]
  show (memcpy d 0 (((concat bufs).drop offset.toNat).take (toCopy.toNat - 0)))[k]? = _
  rw [Nat.sub_zero, memcpy, hlen, List.take_zero, List.nil_append]
  by_cases hn : k < min toCopy.toNat ((concat bufs).length - offset.toNat)
  · have hw := h.window k hn
    rw [show (Gather.copied ⟨fun j => d.getD j 0, 0, offset, [], []⟩).toNat + k = k from
      Nat.zero_add k] at hw
    rw [← hw, List.getElem?_append_left (hlen ▸ hn), List.getElem?_take_of_lt (by omega),
      List.getElem?_drop]
  · rw [h.frame k (.inr (by simpa using Nat.le_of_not_lt hn)),
      List.getElem?_append_right (by rw [hlen]; omega), hlen, List.getElem?_drop, Nat.zero_add,
      Nat.add_sub_cancel' (Nat.le_of_not_lt hn)]
    dsimp only
    rw [List.getD_eq_getElem?_getD, List.getElem?_eq_getElem hk, Option.getD_some]

/-- **The gather copy.**  For every list of buffers, offset and length, with `s` the concatenation of
the buffers and `n` the bytes it has from the offset on, but no more than wanted: the first `n` bytes of
the destination are these, nothing behind them is written, no buffer is read beyond its length, and both
sides do the same. -/
theorem gather_copy (bufs : List QuicBuffer) (offset : UInt64) (toCopy : UInt32) (dest : ℕ → Byte) :
    let s := concat bufs
    let n := min toCopy.toNat (s.length - offset.toNat)
    let u := serverCopyQuicBuffers toCopy bufs 0 ⟨dest, 0, offset, [], []⟩
    (∀ k < n, s[offset.toNat + k]? = some (u.dest k)) ∧
      (∀ k, n ≤ k → u.dest k = dest k) ∧ (∀ k ∈ u.writes, k < n) ∧
      (∀ p ∈ u.reads, ∃ buf, bufs[p.1]? = some buf ∧ p.2 < buf.length.toNat) ∧
      clientCopyQuicBuffers toCopy bufs 0 ⟨dest, 0, offset, [], []⟩ = u := by
  intro s n u
  have h : Gathered bufs 0 n ⟨dest, 0, offset, [], []⟩ u :=
    gathered_all toCopy bufs offset dest
  refine ⟨fun k hk => ?_, fun k hk => ?_, fun k hk => ?_, fun p hp => ?_, ?_⟩
  · have hw := h.window k hk
    rw [show (Gather.copied ⟨dest, 0, offset, [], []⟩).toNat + k = k from Nat.zero_add k] at hw
    exact hw
  · exact h.frame k (.inr (by simpa using hk))
  · rcases h.writes k hk with hs | hs
    · exact absurd hs List.not_mem_nil
    · simpa using hs.2
  · rcases h.reads p hp with hs | ⟨buf, -, hbuf, hlt⟩
    · exact absurd hs List.not_mem_nil
    · exact ⟨buf, hbuf, (Machine.length_toNat buf).symm ▸ hlt⟩
  · exact clientCopyQuicBuffers_eq toCopy bufs 0 _

end QuicVpn
