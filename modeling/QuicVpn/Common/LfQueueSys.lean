import Mathlib.Data.List.Infix
import QuicVpn.Lib.Exec
import QuicVpn.Lib.Ring
import QuicVpn.Common.LfQueue

/-!
# The lock-free queue under its two threads

A step of the system is one load, one store, one slot access or one semaphore operation of one of
the two threads:

* `push x wait`   the producer calls `lf_queue_try_push` or `lf_queue_wait_push`;
* `prod`          its next access;
* `pop wait`      the consumer calls `lf_queue_try_pop` or `lf_queue_wait_pop`;
* `cons eintr`    its next access; `eintr` interrupts a semaphore operation.

`pushed` records the elements that the producer has published, `popped` what the pops that had a
token have returned.  `LfSys.Inv` ties the counters, which wrap, to the lengths of the two records,
which do not; the slots are a `Window` of what has been published and not read.  The main result is
`lfSys_fifo`.
-/

set_option linter.unusedSectionVars false

namespace QuicVpn
open Conc

/-- where the producer is -/
inductive ProdPc (α : Type) where
  | idle
  | entered (x : α) (wait : Bool)
  | tailRead (x : α) (wait : Bool) (tail : UInt64)
  | headRead (x : α) (wait : Bool) (tail head : UInt64)
  | free (x : α) (tail : UInt64)
  | written (x : α) (tail : UInt64)
  | published
  deriving DecidableEq, Repr

/-- where the consumer is -/
inductive ConsPc (α : Type) where
  | idle
  | entered (wait : Bool)
  | token
  | headRead (head : UInt64)
  | entryRead (head : UInt64) (entry : Option α)
  | cleared (head : UInt64) (entry : Option α)
  deriving DecidableEq, Repr

structure LfSys (α : Type) where
  q : LfQueue α
  prod : ProdPc α
  cons : ConsPc α
  pushed : List α
  popped : List (Option α)
  fault : Bool

inductive LfAct (α : Type) where
  | push (x : Option α) (wait : Bool)
  | prod
  | pop (wait : Bool)
  | cons (eintr : Bool)

section
variable {α : Type}

/-- the next access of the producer -/
def LfSys.prodStep (s : LfSys α) : Option (LfSys α) :=
  match s.prod with
  | .idle => none
  | .entered x wait => some { s with prod := .tailRead x wait s.q.tail }
  | .tailRead x wait tail => some { s with prod := .headRead x wait tail s.q.head }
  | .headRead x wait tail head =>
    if tail - head ≥ s.q.capacity then
      -- full: `lf_queue_wait_push` tries again
      some { s with prod := if wait then .entered x wait else .idle }
    else some { s with prod := .free x tail }
  | .free x tail =>
    if s.q.slot tail < s.q.room then
      some { s with q := { s.q with ptr := Function.update s.q.ptr (s.q.slot tail) (some x) },
                    prod := .written x tail }
    else some { s with fault := true }
  | .written x tail =>
    some { s with q := { s.q with tail := tail + 1 }, prod := .published, pushed := s.pushed ++ [x] }
  | .published => some { s with q := { s.q with itemsSem := s.q.itemsSem + 1 }, prod := .idle }

/-- the next access of the consumer -/
def LfSys.consStep (s : LfSys α) (eintr : Bool) : Option (LfSys α) :=
  match s.cons with
  | .idle => none
  | .entered wait =>
    if eintr then some s
    else if s.q.itemsSem = 0 then
      -- `sem_wait` sleeps, `sem_trywait` fails
      if wait then none else some { s with cons := .idle }
    else some { s with q := { s.q with itemsSem := s.q.itemsSem - 1 }, cons := .token }
  | .token => some { s with cons := .headRead s.q.head }
  | .headRead head =>
    if s.q.slot head < s.q.room then
      some { s with cons := .entryRead head (s.q.ptr (s.q.slot head)) }
    else some { s with fault := true }
  | .entryRead head e =>
    if s.q.slot head < s.q.room then
      some { s with q := { s.q with ptr := Function.update s.q.ptr (s.q.slot head) none },
                    cons := .cleared head e }
    else some { s with fault := true }
  | .cleared head e =>
    some { s with q := { s.q with head := head + 1 }, cons := .idle, popped := s.popped ++ [e] }

def LfSys.step (s : LfSys α) : LfAct α → Option (LfSys α)
  | .push x wait =>
    match s.prod, x with
    | .idle, some x => some { s with prod := .entered x wait }
    -- `NULL` is refused with `EINVAL`
    | .idle, none => some s
    | _, _ => none
  | .prod => s.prodStep
  | .pop wait =>
    match s.cons with
    | .idle => some { s with cons := .entered wait }
    | _ => none
  | .cons eintr => s.consStep eintr

def LfSys.init (q : LfQueue α) : LfSys α := ⟨q, .idle, .idle, [], [], false⟩

/-! ## the invariant -/

/-- published and not yet posted -/
def ProdPc.owed : ProdPc α → ℕ
  | .published => 1
  | _ => 0

/-- written and not yet published -/
def ProdPc.ahead : ProdPc α → List α
  | .written x _ => [x]
  | _ => []

/-- `1` while the consumer has a token whose element it has not given back -/
def ConsPc.tokens : ConsPc α → ℕ
  | .idle => 0
  | .entered _ => 0
  | _ => 1

/-- `1` while the slot is cleared and the head has not moved -/
def ConsPc.taken : ConsPc α → ℕ
  | .cleared _ _ => 1
  | _ => 0

/-- what the producer has read, `p` elements being published and `h` popped; `cap` is the number of
slots.  The head it has read may be old. -/
def ProdPc.Ok (p h cap : ℕ) : ProdPc α → Prop
  | .tailRead _ _ tail => tail = UInt64.ofNat p
  | .headRead _ _ tail head =>
    tail = UInt64.ofNat p ∧ ∃ h', h' ≤ h ∧ p ≤ h' + cap ∧ head = UInt64.ofNat h'
  | .free _ tail => tail = UInt64.ofNat p ∧ p < h + cap
  | .written _ tail => tail = UInt64.ofNat p
  | _ => True

/-- what the consumer has read, `h` elements of `pushed` being popped -/
def ConsPc.Ok (pushed : List α) (h : ℕ) : ConsPc α → Prop
  | .headRead head => head = UInt64.ofNat h
  | .entryRead head e => head = UInt64.ofNat h ∧ e = pushed[h]?
  | .cleared head e => head = UInt64.ofNat h ∧ e = pushed[h]?
  | _ => True

structure LfSys.Inv (k : ℕ) (s : LfSys α) : Prop where
  shape : s.q.Shape k
  tail : s.q.tail = UInt64.ofNat s.pushed.length
  head : s.q.head = UInt64.ofNat s.popped.length
  order : s.popped = (s.pushed.take s.popped.length).map some
  sem : s.q.itemsSem + s.prod.owed + s.cons.tokens + s.popped.length = s.pushed.length
  room : s.pushed.length + s.prod.ahead.length ≤ s.popped.length + 2 ^ k
  window : Window s.q.ptr (2 ^ k) (s.popped.length + s.cons.taken)
    (s.pushed.drop (s.popped.length + s.cons.taken) ++ s.prod.ahead)
  prod : s.prod.Ok s.pushed.length s.popped.length (2 ^ k)
  cons : s.cons.Ok s.pushed s.popped.length
  fault : s.fault = false

section
variable {k : ℕ} {s s' : LfSys α}

theorem ConsPc.taken_le (c : ConsPc α) : c.taken ≤ c.tokens := by
  cases c <;> exact Nat.le_of_ble_eq_true rfl

/-- what has been read and not popped is published -/
theorem LfSys.Inv.taken_le (h : s.Inv k) : s.popped.length + s.cons.taken ≤ s.pushed.length := by
  have hs := h.sem
  have ht := s.cons.taken_le
  omega

theorem ProdPc.Ok.mono {p h h' cap : ℕ} {c : ProdPc α} (hh : h ≤ h') (hc : c.Ok p h cap) :
    c.Ok p h' cap := by
  cases c with
  | headRead x wait tail head =>
    obtain ⟨ht, h0, hle, hcap, hhead⟩ := hc
    exact ⟨ht, h0, Nat.le_trans hle hh, hcap, hhead⟩
  | free x tail =>
    obtain ⟨ht, hlt⟩ := hc
    exact ⟨ht, by omega⟩
  | _ => exact hc

/-- publishing an element does not change what the consumer has read -/
theorem ConsPc.Ok.append {pushed : List α} {h : ℕ} {c : ConsPc α} (hc : c.Ok pushed h)
    (hlt : h + c.tokens ≤ pushed.length) (x : α) : c.Ok (pushed ++ [x]) h := by
  cases c with
  | entryRead head e =>
    obtain ⟨hh, he⟩ := hc
    exact ⟨hh, by rw [List.getElem?_append_left hlt]; exact he⟩
  | cleared head e =>
    obtain ⟨hh, he⟩ := hc
    exact ⟨hh, by rw [List.getElem?_append_left hlt]; exact he⟩
  | _ => exact hc

/-- the first unread element in front of the rest -/
theorem LfSys.Inv.window_front (h : s.Inv k) (hlt : s.popped.length < s.pushed.length)
    (ht : s.cons.taken = 0) :
    Window s.q.ptr (2 ^ k) s.popped.length (s.pushed[s.popped.length]
      :: (s.pushed.drop (s.popped.length + 1) ++ s.prod.ahead)) := by
  have hw := h.window
  rw [ht, Nat.add_zero, List.drop_eq_getElem_cons hlt] at hw
  exact hw

/-! ## the producer -/

/-- the slot that the producer is about to write, seen from the first unread element -/
theorem LfSys.Inv.slot_free (h : s.Inv k) :
    s.popped.length + s.cons.taken + (s.pushed.drop (s.popped.length + s.cons.taken)).length
      = s.pushed.length := by
  have := h.taken_le
  rw [List.length_drop]
  omega

/-- a push never overwrites an element that has not been read: the slot is empty -/
theorem LfSys.Inv.slot_none (h : s.Inv k) {x : α} {tail : UInt64} (hp : s.prod = .free x tail) :
    s.q.ptr (s.q.slot tail) = none := by
  have hok := h.prod
  have hw := h.window
  rw [hp] at hok hw
  obtain ⟨rfl, hlt⟩ := hok
  have hfree := h.slot_free
  rw [show ProdPc.ahead (.free x (UInt64.ofNat s.pushed.length)) = [] from rfl,
    List.append_nil] at hw
  have hgap := hw.gap (by omega)
  rw [hfree] at hgap
  rw [h.shape.slot]
  exact hgap

theorem LfSys.Inv.prod_write (h : s.Inv k) {x : α} {tail : UInt64} (hp : s.prod = .free x tail) :
    LfSys.Inv k { s with q := { s.q with ptr := Function.update s.q.ptr (s.q.slot tail) (some x) },
                         prod := .written x tail } := by
  obtain ⟨shape, htail, hhead, order, sem, room, window, prod, cons, fault⟩ := id h
  rw [hp] at sem room window prod
  obtain ⟨rfl, hlt⟩ := prod
  have hfree := h.slot_free
  refine ⟨⟨shape.le, shape.capacity, shape.mask, shape.room⟩, htail, hhead, order, sem, ?_, ?_, rfl,
    cons, fault⟩
  · show s.pushed.length + 1 ≤ s.popped.length + 2 ^ k
    omega
  · show Window (Function.update s.q.ptr (s.q.slot _) (some x)) _ _ (_ ++ [x])
    rw [show ProdPc.ahead (.free x (UInt64.ofNat s.pushed.length)) = [] from rfl,
      List.append_nil] at window
    rw [shape.slot, ← hfree]
    exact window.push (by omega)

theorem LfSys.Inv.prod_publish (h : s.Inv k) {x : α} {tail : UInt64} (hp : s.prod = .written x tail) :
    LfSys.Inv k { s with q := { s.q with tail := tail + 1 }, prod := .published,
                         pushed := s.pushed ++ [x] } := by
  have htaken := h.taken_le
  obtain ⟨shape, _, hhead, order, sem, room, window, prod, cons, fault⟩ := h
  rw [hp] at sem room window prod
  obtain rfl : tail = UInt64.ofNat s.pushed.length := prod
  have sem' : s.q.itemsSem + 0 + s.cons.tokens + s.popped.length = s.pushed.length := sem
  have hlen : (s.pushed ++ [x]).length = s.pushed.length + 1 := by
    rw [List.length_append, List.length_singleton]
  refine ⟨⟨shape.le, shape.capacity, shape.mask, shape.room⟩, ?_, hhead, ?_, ?_, ?_, ?_, trivial, ?_,
    fault⟩
  · show UInt64.ofNat s.pushed.length + 1 = UInt64.ofNat (s.pushed ++ [x]).length
    rw [hlen, ofNat_succ]
  · show s.popped = ((s.pushed ++ [x]).take s.popped.length).map some
    rw [List.take_append_of_le_length (by omega)]
    exact order
  · show s.q.itemsSem + 1 + s.cons.tokens + s.popped.length = (s.pushed ++ [x]).length
    omega
  · show (s.pushed ++ [x]).length + 0 ≤ s.popped.length + 2 ^ k
    have room' : s.pushed.length + 1 ≤ s.popped.length + 2 ^ k := room
    omega
  · show Window s.q.ptr _ _ ((s.pushed ++ [x]).drop _ ++ [])
    rw [List.append_nil, List.drop_append_of_le_length htaken]
    exact window
  · exact cons.append (by omega) x

/-- the producer goes on without touching the ring or the records -/
theorem LfSys.Inv.prod_move (h : s.Inv k) {c : ProdPc α} (howed : c.owed = s.prod.owed)
    (hahead : c.ahead = s.prod.ahead) (hok : c.Ok s.pushed.length s.popped.length (2 ^ k)) :
    LfSys.Inv k { s with prod := c } := by
  obtain ⟨shape, htail, hhead, order, sem, room, window, _, cons, fault⟩ := h
  rw [← howed] at sem
  rw [← hahead] at room window
  exact ⟨shape, htail, hhead, order, sem, room, window, hok, cons, fault⟩

theorem LfSys.Inv.prodStep (h : s.Inv k) (hs : s.prodStep = some s') : s'.Inv k := by
  unfold LfSys.prodStep at hs
  split at hs
  · cases hs
  · rename_i x wait hp
    cases hs
    exact h.prod_move (by rw [hp]; rfl) (by rw [hp]; rfl) h.tail
  · rename_i x wait tail hp
    cases hs
    have hok := h.prod
    have hroom := h.room
    rw [hp] at hok hroom
    exact h.prod_move (by rw [hp]; rfl) (by rw [hp]; rfl)
      ⟨hok, _, Nat.le_refl _, hroom, h.head⟩
  · rename_i x wait tail head hp
    have hok := h.prod
    rw [hp] at hok
    obtain ⟨rfl, h0, hle, hcap, rfl⟩ := hok
    split at hs
    · cases hs
      cases wait <;> exact h.prod_move (by rw [hp]; rfl) (by rw [hp]; rfl) trivial
    · rename_i hfull
      cases hs
      refine h.prod_move (by rw [hp]; rfl) (by rw [hp]; rfl) ⟨rfl, ?_⟩
      -- the difference of the two counters is the number of elements between them
      have hsem := h.sem
      have hpow := h.shape.lt
      have hdiff : (UInt64.ofNat s.pushed.length - UInt64.ofNat h0).toNat = s.pushed.length - h0 :=
        toNat_ofNat_sub (by omega) (by omega)
      rw [ge_iff_le, UInt64.le_iff_toNat_le, hdiff, h.shape.capacity] at hfull
      omega
  · rename_i x tail hp
    have hok := h.prod
    rw [hp] at hok
    obtain ⟨rfl, _⟩ := hok
    rw [if_pos (h.shape.slot_lt _)] at hs
    cases hs
    exact h.prod_write hp
  · rename_i x tail hp
    cases hs
    exact h.prod_publish hp
  · rename_i hp
    cases hs
    obtain ⟨shape, htail, hhead, order, sem, room, window, _, cons, fault⟩ := h
    rw [hp] at sem room window
    refine ⟨⟨shape.le, shape.capacity, shape.mask, shape.room⟩, htail, hhead, order, ?_, room, window,
      trivial, cons, fault⟩
    have sem' : s.q.itemsSem + 1 + s.cons.tokens + s.popped.length = s.pushed.length := sem
    show s.q.itemsSem + 1 + 0 + s.cons.tokens + s.popped.length = s.pushed.length
    omega

/-! ## the consumer -/

theorem LfSys.Inv.cons_move (h : s.Inv k) {c : ConsPc α} (htok : c.tokens = s.cons.tokens)
    (htaken : c.taken = s.cons.taken) (hok : c.Ok s.pushed s.popped.length) :
    LfSys.Inv k { s with cons := c } := by
  obtain ⟨shape, htail, hhead, order, sem, room, window, prod, _, fault⟩ := h
  rw [← htok] at sem
  rw [← htaken] at window
  exact ⟨shape, htail, hhead, order, sem, room, window, prod, hok, fault⟩

theorem LfSys.Inv.cons_clear (h : s.Inv k) {head : UInt64} {e : Option α}
    (hc : s.cons = .entryRead head e) :
    LfSys.Inv k { s with q := { s.q with ptr := Function.update s.q.ptr (s.q.slot head) none },
                         cons := .cleared head e } := by
  have hlt : s.popped.length < s.pushed.length := by
    have hs := h.sem
    rw [hc, show ConsPc.tokens (.entryRead head e) = 1 from rfl] at hs
    omega
  have hw := h.window_front hlt (by rw [hc]; rfl)
  obtain ⟨shape, htail, hhead, order, sem, room, _, prod, cons, fault⟩ := h
  rw [hc] at sem cons
  obtain ⟨rfl, he⟩ := cons
  refine ⟨⟨shape.le, shape.capacity, shape.mask, shape.room⟩, htail, hhead, order, sem, room, ?_,
    prod, ⟨rfl, he⟩, fault⟩
  show Window (Function.update s.q.ptr (s.q.slot _) none) _ (s.popped.length + 1) _
  rw [shape.slot]
  exact hw.pop

/-- the head moves, and the pop returns what it has read -/
theorem LfSys.Inv.cons_return (h : s.Inv k) {head : UInt64} {e : Option α}
    (hc : s.cons = .cleared head e) :
    LfSys.Inv k { s with q := { s.q with head := head + 1 }, cons := .idle,
                         popped := s.popped ++ [e] } := by
  obtain ⟨shape, htail, _, order, sem, room, window, prod, cons, fault⟩ := h
  rw [hc] at sem window cons
  obtain ⟨rfl, he⟩ := cons
  have sem' : s.q.itemsSem + s.prod.owed + 1 + s.popped.length = s.pushed.length := sem
  have hlt : s.popped.length < s.pushed.length := by omega
  have hlen : (s.popped ++ [e]).length = s.popped.length + 1 := by
    rw [List.length_append, List.length_singleton]
  refine ⟨⟨shape.le, shape.capacity, shape.mask, shape.room⟩, htail, ?_, ?_, ?_, ?_, ?_, ?_, trivial,
    fault⟩
  · show UInt64.ofNat s.popped.length + 1 = UInt64.ofNat (s.popped ++ [e]).length
    rw [hlen, ofNat_succ]
  · show s.popped ++ [e] = (s.pushed.take (s.popped ++ [e]).length).map some
    rw [hlen, List.take_add_one, List.map_append, ← order, he, List.getElem?_eq_getElem hlt]
    rfl
  · show s.q.itemsSem + s.prod.owed + 0 + (s.popped ++ [e]).length = s.pushed.length
    omega
  · show s.pushed.length + s.prod.ahead.length ≤ (s.popped ++ [e]).length + 2 ^ k
    omega
  · show Window s.q.ptr _ ((s.popped ++ [e]).length + 0) (s.pushed.drop ((s.popped ++ [e]).length + 0)
      ++ s.prod.ahead)
    rw [hlen]
    exact window
  · refine prod.mono ?_
    rw [hlen]
    exact Nat.le_succ _

theorem LfSys.Inv.consStep (h : s.Inv k) {eintr : Bool} (hs : s.consStep eintr = some s') :
    s'.Inv k := by
  unfold LfSys.consStep at hs
  split at hs
  · cases hs
  · rename_i wait hc
    cases eintr with
    | true =>
      cases hs
      exact h
    | false =>
      rw [if_neg (by decide)] at hs
      split at hs
      · cases wait with
        | true => cases hs
        | false =>
          cases hs
          exact h.cons_move (by rw [hc]; rfl) (by rw [hc]; rfl) trivial
      · rename_i hsem
        cases hs
        obtain ⟨shape, htail, hhead, order, sem, room, window, prod, _, fault⟩ := h
        rw [hc] at sem window
        refine ⟨⟨shape.le, shape.capacity, shape.mask, shape.room⟩, htail, hhead, order, ?_, room,
          window, prod, trivial, fault⟩
        have sem' : s.q.itemsSem + s.prod.owed + 0 + s.popped.length = s.pushed.length := sem
        show s.q.itemsSem - 1 + s.prod.owed + 1 + s.popped.length = s.pushed.length
        omega
  · rename_i hc
    cases hs
    exact h.cons_move (by rw [hc]; rfl) (by rw [hc]; rfl) h.head
  · rename_i head hc
    have hok := h.cons
    have hlt : s.popped.length < s.pushed.length := by
      have hsem := h.sem
      rw [hc, show ConsPc.tokens (.headRead head : ConsPc α) = 1 from rfl] at hsem
      omega
    have hw := h.window_front hlt (by rw [hc]; rfl)
    rw [hc] at hok
    obtain rfl : head = UInt64.ofNat s.popped.length := hok
    rw [if_pos (h.shape.slot_lt _)] at hs
    cases hs
    refine h.cons_move (by rw [hc]; rfl) (by rw [hc]; rfl) ⟨rfl, ?_⟩
    rw [h.shape.slot, hw.front, List.getElem?_eq_getElem hlt]
  · rename_i head e hc
    have hok := h.cons
    rw [hc] at hok
    obtain ⟨rfl, _⟩ := hok
    rw [if_pos (h.shape.slot_lt _)] at hs
    cases hs
    exact h.cons_clear hc
  · rename_i head e hc
    cases hs
    exact h.cons_return hc

theorem LfSys.step_inv (s : LfSys α) (a : LfAct α) (s' : LfSys α) (h : s.Inv k)
    (hs : s.step a = some s') : s'.Inv k := by
  cases a with
  | push x wait =>
    simp only [LfSys.step] at hs
    split at hs
    · rename_i hp
      cases hs
      exact h.prod_move (by rw [hp]; rfl) (by rw [hp]; rfl) trivial
    · cases hs
      exact h
    · cases hs
  | prod => exact h.prodStep hs
  | pop wait =>
    simp only [LfSys.step] at hs
    split at hs
    · rename_i hc
      cases hs
      exact h.cons_move (by rw [hc]; rfl) (by rw [hc]; rfl) trivial
    · cases hs
  | cons eintr => exact h.consStep hs

end

/-- the queue behaves as one: its depth is within the capacity, what has come out is the beginning
of what has gone in, no pop with a token has returned `NULL`, the slot that a push is about to write
is empty, and no access was outside the array -/
structure LfSys.Fifo (s : LfSys α) : Prop where
  depth : (s.q.tail - s.q.head).toNat ≤ s.q.capacity.toNat
  order : s.popped <+: s.pushed.map some
  nonnull : none ∉ s.popped
  kept : ∀ x tail, s.prod = .free x tail → s.q.ptr (s.q.slot tail) = none
  bounds : s.fault = false

theorem LfSys.Inv.fifo {k : ℕ} {s : LfSys α} (h : s.Inv k) : s.Fifo := by
  have hsem := h.sem
  refine ⟨?_, ?_, ?_, fun x tail hp => h.slot_none hp, h.fault⟩
  · have hroom := h.room
    have hpow := h.shape.lt
    rw [h.tail, h.head, h.shape.capacity]
    by_cases hle : s.pushed.length - s.popped.length < 2 ^ 64
    · rw [toNat_ofNat_sub (by omega) hle]
      omega
    · omega
  · rw [h.order, List.map_take]
    exact List.take_prefix _ _
  · rw [h.order]
    intro hm
    obtain ⟨x, _, hx⟩ := List.mem_map.mp hm
    cases hx

/-- **The lock-free queue is a FIFO queue**, for every capacity that `lf_queue_init` accepts and
every interleaving of the accesses of its producer and its consumer. -/
theorem lfSys_fifo (size : UInt64) (hsize : size.toNat * 8 < 2 ^ 64) (q : LfQueue α)
    (hq : lfQueueInit α size true true = some q) (l : List (LfAct α)) (s : LfSys α)
    (hs : exec LfSys.step (LfSys.init q) l = some s) : s.Fifo := by
  obtain ⟨k, hk, hq'⟩ := lfQueueInit_shape hsize hq
  refine LfSys.Inv.fifo (exec_inv (I := LfSys.Inv k) LfSys.step_inv ?_ hs)
  rw [hq'] at hk ⊢
  exact ⟨hk, rfl, rfl, rfl, rfl, Nat.zero_le _, Window.empty _ _, trivial, trivial, rfl⟩

end

/-- two slots; the third push finds the queue full, tries again and succeeds after the first pop -/
def threePushes : List (LfAct ℕ) :=
  [.push (some 5) false, .prod, .prod, .prod, .prod, .prod, .prod,
    .push (some 6) false, .prod, .prod, .prod, .prod, .pop true, .cons false, .prod, .prod,
    .push (some 7) true, .prod, .prod, .prod, .cons false, .cons false, .cons false, .cons false,
    .prod, .prod, .prod, .prod, .prod, .prod, .pop false, .cons true, .cons false]

theorem lfSys_fifo_threePushes :
    ∃ q s, lfQueueInit ℕ 2 true true = some q ∧ exec LfSys.step (LfSys.init q) threePushes = some s ∧
      s.pushed = [5, 6, 7] ∧ s.popped = [some 5] ∧ s.Fifo :=
  ⟨_, _, rfl, rfl, rfl, rfl, lfSys_fifo 2 (by decide) _ rfl threePushes _ rfl⟩

end QuicVpn
