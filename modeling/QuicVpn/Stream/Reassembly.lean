import QuicVpn.Stream.Receive

/-!
# The control stream cut into events

The peer's bytes reach a side as RECEIVE events, cut anywhere.  MsQuic keeps what a handler did not
consume and indicates it again in front of the next event; but a handler that returns
`QUIC_STATUS_SUCCESS` with less consumed than indicated has paused the stream, and no event follows
until `StreamReceiveSetEnabled` is called, which neither program does.

* `deliver`            the events of a list of arrivals, as far as they are delivered;
* `event_eq`           one event of a stream that has nothing pending;
* `reassembled_iff`    all frames of the byte sequence are passed on, in order and each once, exactly
                       if no event ends inside one of them.
-/

set_option linter.unusedSectionVars false

namespace QuicVpn
open Conc

/-- the new bytes of one event, and how MsQuic cuts what it indicates into buffers -/
structure Arrival where
  data : List Byte
  cut : List Byte → List (List Byte)
  flatten_cut : ∀ x, (cut x).flatten = x

/-- the bytes of a list of arrivals -/
def bytes (as : List Arrival) : List Byte := as.flatMap Arrival.data

theorem bytes_cons (a : Arrival) (as : List Arrival) : bytes (a :: as) = a.data ++ bytes as := rfl

/-- the receiving end of the stream: received bytes that no handler consumed, whether events are
delivered, and the frames passed to `process_ctrl_pkt` -/
structure Stream where
  pending : List Byte
  enabled : Bool
  passed : List (List Byte)

def Stream.start : Stream := ⟨[], true, []⟩

section
variable (side : Side) (process : ℕ → List Byte → ℤ)

def event (s : Stream) (a : Arrival) : Stream :=
  let indicated := s.pending ++ a.data
  if s.enabled then
    let r := receive side process (a.cut indicated) indicated.length s.passed
    { pending := indicated.drop r.consumed
      enabled := !(r.status = .success && r.consumed < indicated.length)
      passed := r.passed }
  else { s with pending := indicated }

def deliver (as : List Arrival) : Stream := as.foldl (event side process) Stream.start

end

/-- no event ends inside a complete frame of the sequence: the bytes delivered by then are whole
frames, or no complete frame follows -/
def EndsBetweenFrames (as : List Arrival) : Prop :=
  ∀ pre, pre <+: as →
    pktCtrlSize ∣ (bytes pre).length ∨
      (bytes pre).length / pktCtrlSize = (bytes as).length / pktCtrlSize

section
variable {side : Side} {process : ℕ → List Byte → ℤ}

/-- an event of a stream that has nothing pending passes the full frames that arrive, and pauses the
stream unless they are all that arrives -/
theorem event_eq {s : Stream} (a : Arrival) (hp : s.pending = []) (he : s.enabled = true)
    (h : side = .client → Handled process (s.passed ++ blocks pktCtrlSize a.data)) :
    event side process s a =
      ⟨a.data.drop (pktCtrlSize * (a.data.length / pktCtrlSize)),
        decide (pktCtrlSize ∣ a.data.length), s.passed ++ blocks pktCtrlSize a.data⟩ := by
  have hcut : (a.cut a.data).flatten = a.data := a.flatten_cut _
  obtain ⟨status, hst, hr⟩ := @receive_eq side process (a.cut a.data) s.passed (by rwa [hcut])
  rw [hcut] at hst hr
  unfold event
  rw [hp, List.nil_append, if_pos he]
  simp only [hr]
  congr 1
  by_cases hd : pktCtrlSize ∣ a.data.length
  · rw [Nat.mul_div_cancel' hd]
    simp [hd]
  · have hne : a.data ≠ [] := by
      intro e
      apply hd
      rw [e]
      exact Nat.dvd_zero _
    have hlt : pktCtrlSize * (a.data.length / pktCtrlSize) < a.data.length := by
      apply lt_of_le_of_ne (Nat.mul_div_le _ _)
      intro e
      exact hd ⟨_, e.symm⟩
    simp [hd, hst hne, hlt]

/-- a paused stream passes nothing on -/
theorem foldl_event_paused {s : Stream} (as : List Arrival) (h : s.enabled = false) :
    (as.foldl (event side process) s).passed = s.passed := by
  induction as generalizing s with
  | nil => rfl
  | cons a as ih =>
    have he : event side process s a = { s with pending := s.pending ++ a.data } := by
      unfold event
      rw [if_neg (by rw [h]; exact Bool.false_ne_true)]
    rw [List.foldl_cons, ih (by rw [he]; exact h), he]

/-- the condition of a first event that brings whole frames is that of the events after it -/
theorem endsBetween_whole {c : List Byte} {a : Arrival} {as : List Arrival}
    (hc : pktCtrlSize ∣ c.length) :
    (∀ pre, pre <+: a :: as → pktCtrlSize ∣ (c ++ bytes pre).length ∨
        (c ++ bytes pre).length / pktCtrlSize = (c ++ bytes (a :: as)).length / pktCtrlSize) ↔
      ∀ pre, pre <+: as → pktCtrlSize ∣ (c ++ a.data ++ bytes pre).length ∨
        (c ++ a.data ++ bytes pre).length / pktCtrlSize =
          (c ++ a.data ++ bytes as).length / pktCtrlSize := by
  constructor
  · intro h pre hpre
    have := h (a :: pre) ((List.prefix_cons_inj a).mpr hpre)
    rwa [bytes_cons, bytes_cons, ← List.append_assoc, ← List.append_assoc] at this
  · intro h pre hpre
    rcases List.prefix_cons_iff.mp hpre with rfl | ⟨pre', rfl, hpre'⟩
    · left
      show pktCtrlSize ∣ (c ++ []).length
      rwa [List.append_nil]
    · rw [bytes_cons, bytes_cons, ← List.append_assoc, ← List.append_assoc]
      exact h pre' hpre'

/-- an event that does not end between frames is harmless only if it is the last to bring one -/
theorem endsBetween_paused {c : List Byte} {a : Arrival} {as : List Arrival}
    (hc : pktCtrlSize ∣ c.length) (ha : ¬ pktCtrlSize ∣ a.data.length) :
    (∀ pre, pre <+: a :: as → pktCtrlSize ∣ (c ++ bytes pre).length ∨
        (c ++ bytes pre).length / pktCtrlSize = (c ++ bytes (a :: as)).length / pktCtrlSize) ↔
      (c ++ a.data).length / pktCtrlSize = (c ++ a.data ++ bytes as).length / pktCtrlSize := by
  rw [endsBetween_whole hc]
  constructor
  · intro h
    rcases h [] (List.nil_prefix) with hd | he
    · rw [show bytes [] = [] from rfl, List.append_nil, List.length_append,
        Nat.dvd_add_right hc] at hd
      exact absurd hd ha
    · rwa [show bytes [] = [] from rfl, List.append_nil] at he
  · intro h pre hpre
    right
    -- between the first event and the end the number of full frames cannot change
    obtain ⟨rest, rfl⟩ := hpre
    have hb : bytes (pre ++ rest) = bytes pre ++ bytes rest := List.flatMap_append
    rw [hb] at h ⊢
    apply le_antisymm
    · apply Nat.div_le_div_right
      simp only [List.length_append]
      omega
    · rw [← h]
      apply Nat.div_le_div_right
      simp only [List.length_append]
      omega

/-- from a stream that has passed on the whole frames `c` and has nothing pending -/
theorem foldl_event_iff (as : List Arrival) {s : Stream} {c : List Byte} (hp : s.pending = [])
    (he : s.enabled = true) (hs : s.passed = blocks pktCtrlSize c) (hc : pktCtrlSize ∣ c.length)
    (h : side = .client → Handled process (blocks pktCtrlSize (c ++ bytes as))) :
    (as.foldl (event side process) s).passed = blocks pktCtrlSize (c ++ bytes as) ↔
      ∀ pre, pre <+: as → pktCtrlSize ∣ (c ++ bytes pre).length ∨
        (c ++ bytes pre).length / pktCtrlSize = (c ++ bytes as).length / pktCtrlSize := by
  induction as generalizing s c with
  | nil =>
    refine ⟨fun _ pre hpre => ?_, fun _ => ?_⟩
    · rw [List.prefix_nil.mp hpre]
      exact .inr rfl
    · rw [show bytes [] = [] from rfl, List.append_nil]
      exact hs
  | cons a as ih =>
    have hsplit : blocks pktCtrlSize (c ++ a.data) = s.passed ++ blocks pktCtrlSize a.data := by
      rw [blocks_append _ _ pktCtrlSize_pos hc, hs]
    rw [bytes_cons, ← List.append_assoc] at h
    rw [List.foldl_cons, event_eq a hp he, ← hsplit]
    by_cases hd : pktCtrlSize ∣ a.data.length
    · rw [endsBetween_whole hc, bytes_cons, ← List.append_assoc]
      apply ih
      · show a.data.drop _ = []
        rw [Nat.mul_div_cancel' hd, List.drop_length]
      · exact decide_eq_true hd
      · rfl
      · rw [List.length_append]
        exact Nat.dvd_add hc hd
      · exact h
    · rw [endsBetween_paused hc hd, foldl_event_paused as (decide_eq_false hd), bytes_cons,
        ← List.append_assoc]
      exact blocks_eq_iff _
    · intro hcl
      rw [← hsplit]
      exact (h hcl).mono (blocks_isPrefix _ _ _)

/-- the frames of a byte sequence are passed to `process_ctrl_pkt` whole, in order and each once,
exactly if no event ends inside one of them -/
theorem reassembled_iff (side : Side) (process : ℕ → List Byte → ℤ) (as : List Arrival)
    (h : side = .client → Handled process (blocks pktCtrlSize (bytes as))) :
    (deliver side process as).passed = blocks pktCtrlSize (bytes as) ↔ EndsBetweenFrames as :=
  foldl_event_iff (s := Stream.start) (c := []) as rfl rfl rfl (Nat.dvd_zero _) h

end

/-- `n` zero bytes, indicated in two buffers -/
def zeros (n : ℕ) : Arrival where
  data := List.replicate n 0
  cut x := [x.take 700, x.drop 700]
  flatten_cut x := by simp

/-- a frame that arrives in one event is passed on, with the first bytes of a next one behind it -/
theorem reassembled_one_event :
    (deliver .client (fun _ _ => 0) [zeros 1500]).passed =
      blocks pktCtrlSize (bytes [zeros 1500]) := by
  apply (reassembled_iff .client (fun _ _ => 0) [zeros 1500] (fun _ _ _ _ => rfl)).mpr
  intro pre hpre
  rcases List.prefix_cons_iff.mp hpre with rfl | ⟨pre', rfl, hpre'⟩
  · exact .inl (Nat.dvd_zero _)
  · rw [List.prefix_nil.mp hpre']
    exact .inr rfl

/-- two events that share one frame -/
theorem not_endsBetween_pair {m n : ℕ} (hm : ¬ pktCtrlSize ∣ m)
    (hn : m / pktCtrlSize ≠ (m + n) / pktCtrlSize) :
    ¬ EndsBetweenFrames [zeros m, zeros n] := by
  have hlen : (bytes [zeros m]).length = m := by simp [bytes, zeros]
  have htot : (bytes [zeros m, zeros n]).length = m + n := by simp [bytes, zeros]
  intro h
  rcases h [zeros m] ⟨[zeros n], rfl⟩ with hd | he
  · exact hm (hlen ▸ hd)
  · rw [hlen, htot] at he
    exact hn he

/-- one frame in two events is passed on by neither side -/
theorem frame_in_two_events :
    (deliver .server (fun _ _ => 0) [zeros 512, zeros 512]).passed ≠
        blocks pktCtrlSize (bytes [zeros 512, zeros 512]) ∧
      (deliver .client (fun _ _ => 0) [zeros 512, zeros 512]).passed ≠
        blocks pktCtrlSize (bytes [zeros 512, zeros 512]) := by
  have hcut : ¬ EndsBetweenFrames [zeros 512, zeros 512] :=
    not_endsBetween_pair (by decide) (by decide)
  generalize [zeros 512, zeros 512] = as at hcut
  have key : ∀ side : Side, (deliver side (fun _ _ => 0) as).passed ≠
      blocks pktCtrlSize (bytes as) := by
    intro side h
    apply hcut
    exact (foldl_event_iff (s := Stream.start) (c := []) as rfl rfl rfl (Nat.dvd_zero _)
      (fun _ _ _ _ => rfl)).mp h
  exact ⟨key .server, key .client⟩

end QuicVpn
