import QuicVpn.Common.Netlink

/-!
# Messages in netlink buffers

The loops of `net_iface.c` on buffers that hold well-formed messages, for any kind of message and any
body.  `AttrForm X` says how the attributes `X` lie in memory, `MsgForm M` how the messages `M` do.

* `scan`                  going through a list up to the first item that stops it;
* `AttrForm.Listed`       attributes one behind the other, up to the end of their message;
* `rtaLoop_scan`          the attribute loop scans them;
* `MsgForm.Packed`        messages one behind the other, and then `tail`;
* `nlmsgLoop_stops`, `nlmsgLoop_passes`   the message loop scans them;
* `MsgForm.Dump`          messages split over the buffers of several `recv`, and `NLMSG_DONE`.
-/

set_option linter.unusedSectionVars false

namespace QuicVpn
open Conc Conc.Reads

/-! ## scanning -/

section
variable {M σ : Type}

/-- what a loop does that may stop at an item -/
def scan (g : σ → M → Bool × σ) : List M → σ → Bool × σ
  | [], s => (false, s)
  | m :: l, s => if (g s m).1 then g s m else scan g l (g s m).2

theorem scan_append (g : σ → M → Bool × σ) (l l' : List M) (s : σ) :
    scan g (l ++ l') s = if (scan g l s).1 then scan g l s else scan g l' (scan g l s).2 := by
  induction l generalizing s with
  | nil => rfl
  | cons m l ih =>
    rw [List.cons_append, scan, scan]
    by_cases hm : (g s m).1 = true
    · rw [if_pos hm, if_pos hm, if_pos hm]
    · rw [if_neg hm, if_neg hm, ih]

/-- a body that never stops -/
theorem scan_fold {g : σ → M → Bool × σ} {f : σ → M → σ} (hg : ∀ s m, g s m = (false, f s m))
    (l : List M) (s : σ) : scan g l s = (false, l.foldl f s) := by
  induction l generalizing s with
  | nil => rfl
  | cons m l ih =>
    unfold scan
    rw [hg, if_neg Bool.false_ne_true, ih]
    rfl

end

/-! ## attributes -/

/-- how an attribute lies in memory -/
structure AttrForm (X : Type) where
  /-- `rta_len` -/
  len : X → ℕ
  At : (ℕ → UInt8) → ℕ → X → Prop
  four_le : ∀ x, 4 ≤ len x
  head : ∀ {mem rta x}, At mem rta x → le16 mem rta = len x

section
variable {X α : Type} (F : AttrForm X) {mem : ℕ → UInt8}

/-- the attributes lie one behind the other from `rta` on, and behind them is no room for another -/
def AttrForm.Listed (mem : ℕ → UInt8) : ℕ → ℤ → List X → Prop
  | _, rtaLen, [] => rtaLen < 4
  | rta, rtaLen, x :: l =>
    F.At mem rta x ∧ (F.len x : ℤ) ≤ rtaLen ∧
      Listed mem (rta + align4 (F.len x)) (rtaLen - align4 (F.len x)) l

variable {F}

/-- a body that does with an attribute in memory what `g` does with the attribute -/
theorem rtaLoop_scan {body : ℕ → α → Reads (Bool × α)} {g : α → X → Bool × α}
    (hb : ∀ rta x a, F.At mem rta x → (body rta a).val mem = g a x) {l : List X} {rta : ℕ}
    {rtaLen : ℤ} (h : F.Listed mem rta rtaLen l) (a : α) :
    (rtaLoop body mem rta rtaLen a).1 = (scan g l a).2 := by
  induction l generalizing rta rtaLen a with
  | nil => exact rtaLoop_end body (fun hok => absurd hok.1 (not_le.mpr h)) a
  | cons x l ih =>
    obtain ⟨hx, hle, hl⟩ := h
    have hhead := F.head hx
    have hlen := F.four_le x
    have hok : RtaOk mem rta rtaLen := by
      unfold RtaOk
      rw [hhead]
      exact ⟨by omega, hlen, hle⟩
    have hturn := congrArg Prod.fst (attrs_turn body hok a)
    rw [hb rta x a hx, hhead] at hturn
    refine hturn.trans ?_
    unfold scan
    by_cases hg : (g a x).1 = true
    · rw [if_pos hg, if_pos hg]
    · rw [if_neg hg, if_neg hg]
      exact ih hl _

/-- and one that leaves no attribute out -/
theorem rtaLoop_fold {body : ℕ → α → Reads (Bool × α)} {f : α → X → α}
    (hb : ∀ rta x a, F.At mem rta x → (body rta a).val mem = (false, f a x)) {l : List X} {rta : ℕ}
    {rtaLen : ℤ} (h : F.Listed mem rta rtaLen l) (a : α) :
    (rtaLoop body mem rta rtaLen a).1 = l.foldl f a := by
  rw [rtaLoop_scan (g := fun a x => (false, f a x)) hb h, scan_fold fun _ _ => rfl]

end

/-! ## messages -/

/-- how a message lies in memory, behind its length; `room` is the room of its two headers -/
structure MsgForm (M : Type) where
  room : ℕ
  At : (ℕ → UInt8) → ℕ → M → Prop
  sixteen_le : 16 ≤ room

section
variable {M σ : Type}

variable (F : MsgForm M) {mem : ℕ → UInt8} {len : ℕ}

/-- the messages follow each other from `nlh` on, and behind them comes `tail` -/
def MsgForm.Packed (mem : ℕ → UInt8) (len : ℕ) (tail : ℕ → Prop) : ℕ → List M → Prop
  | nlh, [] => tail nlh
  | nlh, m :: l =>
    F.room ≤ le32 mem nlh ∧ nlh + le32 mem nlh ≤ len ∧ nlh + align4 (le32 mem nlh) ≤ len ∧
      F.At mem nlh m ∧ Packed mem len tail (nlh + align4 (le32 mem nlh)) l

/-- the body does with a message in memory what `g` does with the message -/
def MsgForm.Does (mem : ℕ → UInt8) (body : ℕ → ℕ → σ → Reads (Bool × σ)) (g : σ → M → Bool × σ) : Prop :=
  ∀ nlh m s, F.At mem nlh m → le32 mem nlh < 2 ^ 31 → (body nlh (le32 mem nlh) s).val mem = g s m

variable {F} {body : ℕ → ℕ → σ → Reads (Bool × σ)} {g : σ → M → Bool × σ} {tail : ℕ → Prop}

/-- one turn at a message -/
theorem nlmsgLoop_message (hb : F.Does mem body g) (hlen : len ≤ 8192) {m : M} {ms : List M} {nlh : ℕ}
    (h : F.Packed mem len tail nlh (m :: ms)) (fuel : ℕ) (s : σ) :
    (nlmsgLoop body mem (fuel + 1) nlh (BitVec.ofNat 64 (len - nlh)) s).map Prod.fst =
      if (g s m).1 then some (g s m).2
      else (nlmsgLoop body mem fuel (nlh + align4 (le32 mem nlh))
        (BitVec.ofNat 64 (len - (nlh + align4 (le32 mem nlh)))) (g s m).2).map Prod.fst := by
  obtain ⟨hroom, hfit, hal, hm, -⟩ := h
  have h16 := F.sixteen_le
  have hlt : le32 mem nlh < 2 ^ 31 := by omega
  have hge := align4_le hlt
  rw [nlmsgLoop_turn body hlen ⟨by omega, by omega, by omega⟩, hb nlh m s hm hlt, rest_sub hlen hal]
  by_cases hs : (g s m).1 = true
  · rw [if_pos hs, if_pos hs]
    rfl
  · rw [if_neg hs, if_neg hs, Option.map_map]
    rfl

/-- the loop on messages that it goes through: it comes to what is behind them -/
theorem nlmsgLoop_passes (hb : F.Does mem body g) (hlen : len ≤ 8192) {ms : List M} {nlh : ℕ}
    (h : F.Packed mem len tail nlh ms) (hn : nlh ≤ len) (fuel : ℕ) {s : σ}
    (hs : (scan g ms s).1 = false) : ∃ nlh' ≤ len, tail nlh' ∧
      (nlmsgLoop body mem (ms.length + fuel) nlh (BitVec.ofNat 64 (len - nlh)) s).map Prod.fst =
      (nlmsgLoop body mem fuel nlh' (BitVec.ofNat 64 (len - nlh')) (scan g ms s).2).map Prod.fst := by
  induction ms generalizing nlh s with
  | nil =>
    refine ⟨nlh, hn, h, ?_⟩
    rw [List.length_nil, Nat.zero_add]
    rfl
  | cons m ms ih =>
    have hg : ¬ (g s m).1 = true := by
      intro hg
      rw [scan, if_pos hg, hg] at hs
      exact absurd hs Bool.true_eq_false.mp
    have hstep : scan g (m :: ms) s = scan g ms (g s m).2 := if_neg hg
    rw [hstep] at hs ⊢
    obtain ⟨nlh', hle, ht, e⟩ := ih h.2.2.2.2 h.2.2.1 hs
    refine ⟨nlh', hle, ht, ?_⟩
    rw [List.length_cons, Nat.add_right_comm, nlmsgLoop_message hb hlen h, if_neg hg]
    exact e

/-- and on messages one of which stops it -/
theorem nlmsgLoop_stops (hb : F.Does mem body g) (hlen : len ≤ 8192) {ms : List M} {nlh : ℕ}
    (h : F.Packed mem len tail nlh ms) (fuel : ℕ) {s : σ} (hs : (scan g ms s).1 = true) :
    (nlmsgLoop body mem (ms.length + fuel) nlh (BitVec.ofNat 64 (len - nlh)) s).map Prod.fst =
      some (scan g ms s).2 := by
  induction ms generalizing nlh s with
  | nil => exact absurd hs Bool.false_ne_true
  | cons m ms ih =>
    rw [List.length_cons, Nat.add_right_comm, nlmsgLoop_message hb hlen h]
    unfold scan at hs ⊢
    by_cases hg : (g s m).1 = true
    · rw [if_pos hg, if_pos hg]
    · rw [if_neg hg] at hs ⊢
      rw [if_neg hg]
      exact ih h.2.2.2.2 hs

/-- the end of the buffer -/
theorem nlmsgLoop_atEnd (body : ℕ → ℕ → σ → Reads (Bool × σ)) (fuel : ℕ) (s : σ) :
    (nlmsgLoop body mem (fuel + 1) len (BitVec.ofNat 64 (len - len)) s).map Prod.fst = some s := by
  rw [nlmsgLoop, Nat.sub_self, if_pos (by decide)]
  rfl

/-! ## a dump -/

/-- `NLMSG_DONE` lies at `nlh` -/
def EndsAt (mem : ℕ → UInt8) (len nlh : ℕ) : Prop :=
  16 ≤ le32 mem nlh ∧ nlh + le32 mem nlh ≤ len ∧ le16 mem (nlh + 4) = nlmsgDone

/-- the answers of `recv` contain these messages, and `NLMSG_DONE` behind them -/
inductive MsgForm.Dump (F : MsgForm M) : List Recv → List M → Prop
  | done {mem : ℕ → UInt8} {len : ℕ} {ms : List M} {rest : List Recv} (hl : len ≤ 8192)
      (hm : F.Packed mem len (EndsAt mem len) 0 ms) : Dump F (.got mem len :: rest) ms
  | more {mem : ℕ → UInt8} {len : ℕ} {ms ms' : List M} {l : List Recv} (hl : len ≤ 8192)
      (hm : F.Packed mem len (fun nlh => nlh = len) 0 ms) (hr : Dump F l ms') :
      Dump F (.got mem len :: l) (ms ++ ms')

/-- the turn at `NLMSG_DONE` -/
theorem nlmsgLoop_done {nlh : ℕ} (hlen : len ≤ 8192) (h : EndsAt mem len nlh) {s s' : σ}
    (hb : (body nlh (le32 mem nlh) s).val mem = (true, s')) (fuel : ℕ) :
    (nlmsgLoop body mem (fuel + 1) nlh (BitVec.ofNat 64 (len - nlh)) s).map Prod.fst = some s' := by
  obtain ⟨h16, hfit, -⟩ := h
  rw [nlmsgLoop_turn body hlen ⟨by omega, h16, hfit⟩, hb, if_pos rfl]
  rfl

end

end QuicVpn
