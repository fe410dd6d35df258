import QuicVpn.Lib.Exec
import QuicVpn.Lib.Threads
import QuicVpn.Common.Queue

/-!
# The bounded queue under any number of producers and consumers

The threads `T` push and pop as they like; a step of the system is a semaphore wait (or a wait that
fails), a locked section, or a post.  Three history variables say what the mutex has seen:

* `inserted`, `removed`   the elements stored by push sections and taken by pop sections, in order;
* `filled`                the cells that a push section has stored to and no pop section has taken
                          from since.

The main result is `queueSys_fifo`.
-/

set_option linter.unusedSectionVars false

namespace QuicVpn
open Conc

/-- where a thread is in a push or a pop -/
inductive QueuePc (α : Type) where
  | idle
  | pushing (x : Option α)
  | pushed
  | popping
  | popped (x : Option α)

/-- `queue_wait_push` and `queue_wait_pop`, or `queue_try_push` and `queue_try_pop` -/
inductive QueueCall where
  | wait
  | attempt
  deriving DecidableEq, Repr

structure QueueSys (T α : Type) where
  q : Queue α
  pc : T → QueuePc α
  inserted : List (Option α)
  removed : List (Option α)
  filled : ℕ → Bool

inductive QueueAct (T α : Type) where
  | takePush (t : T) (k : QueueCall) (x : Option α)
  | failPush (t : T) (k : QueueCall)
  | push (t : T)
  | postPop (t : T)
  | takePop (t : T) (k : QueueCall)
  | failPop (t : T) (k : QueueCall)
  | pop (t : T)
  | postPush (t : T)

section
variable {α : Type}

def QueuePc.beforePush : QueuePc α → ℕ
  | .pushing _ => 1
  | _ => 0

def QueuePc.afterPush : QueuePc α → ℕ
  | .pushed => 1
  | _ => 0

def QueuePc.beforePop : QueuePc α → ℕ
  | .popping => 1
  | _ => 0

def QueuePc.afterPop : QueuePc α → ℕ
  | .popped _ => 1
  | _ => 0

/-- `1` for a thread between its wait and its post -/
def QueuePc.inside : QueuePc α → ℕ
  | .idle => 0
  | _ => 1

variable {T : Type} [Fintype T] [DecidableEq T]

def QueueSys.step (s : QueueSys T α) : QueueAct T α → Option (QueueSys T α)
  | .takePush t _ x =>
    match s.pc t with
    | .idle =>
      (queueTakePush s.q).map fun q => { s with q := q, pc := Function.update s.pc t (.pushing x) }
    | _ => none
  -- a blocking wait can fail at any time (`EINTR`), `sem_trywait` only without a token
  | .failPush t k =>
    match s.pc t with
    | .idle => if k = .wait ∨ s.q.pushSemaphore = 0 then some s else none
    | _ => none
  | .push t =>
    match s.pc t with
    | .pushing x =>
      some { s with q := queuePush s.q x, pc := Function.update s.pc t .pushed,
                    inserted := s.inserted ++ [x], filled := Function.update s.filled s.q.tail true }
    | _ => none
  | .postPop t =>
    match s.pc t with
    | .pushed => some { s with q := queuePostPop s.q, pc := Function.update s.pc t .idle }
    | _ => none
  | .takePop t _ =>
    match s.pc t with
    | .idle =>
      (queueTakePop s.q).map fun q => { s with q := q, pc := Function.update s.pc t .popping }
    | _ => none
  | .failPop t k =>
    match s.pc t with
    | .idle => if k = .wait ∨ s.q.popSemaphore = 0 then some s else none
    | _ => none
  | .pop t =>
    match s.pc t with
    | .popping =>
      some { s with q := (queuePop s.q).2, pc := Function.update s.pc t (.popped (queuePop s.q).1),
                    removed := s.removed ++ [(queuePop s.q).1],
                    filled := Function.update s.filled s.q.head false }
    | _ => none
  | .postPush t =>
    match s.pc t with
    | .popped _ => some { s with q := queuePostPush s.q, pc := Function.update s.pc t .idle }
    | _ => none

/-- the steps that are possible, with their effects -/
inductive QueueSys.Move (s : QueueSys T α) : QueueAct T α → QueueSys T α → Prop
  | takePush {t : T} {k : QueueCall} {x : Option α} {q : Queue α} : s.pc t = .idle →
      queueTakePush s.q = some q →
      Move s (.takePush t k x) { s with q := q, pc := Function.update s.pc t (.pushing x) }
  | failPush {t : T} {k : QueueCall} : s.pc t = .idle → k = .wait ∨ s.q.pushSemaphore = 0 →
      Move s (.failPush t k) s
  | push {t : T} {x : Option α} : s.pc t = .pushing x →
      Move s (.push t)
        { s with q := queuePush s.q x, pc := Function.update s.pc t .pushed,
                 inserted := s.inserted ++ [x], filled := Function.update s.filled s.q.tail true }
  | postPop {t : T} : s.pc t = .pushed →
      Move s (.postPop t) { s with q := queuePostPop s.q, pc := Function.update s.pc t .idle }
  | takePop {t : T} {k : QueueCall} {q : Queue α} : s.pc t = .idle → queueTakePop s.q = some q →
      Move s (.takePop t k) { s with q := q, pc := Function.update s.pc t .popping }
  | failPop {t : T} {k : QueueCall} : s.pc t = .idle → k = .wait ∨ s.q.popSemaphore = 0 →
      Move s (.failPop t k) s
  | pop {t : T} : s.pc t = .popping →
      Move s (.pop t)
        { s with q := (queuePop s.q).2, pc := Function.update s.pc t (.popped (queuePop s.q).1),
                 removed := s.removed ++ [(queuePop s.q).1],
                 filled := Function.update s.filled s.q.head false }
  | postPush {t : T} {x : Option α} : s.pc t = .popped x →
      Move s (.postPush t) { s with q := queuePostPush s.q, pc := Function.update s.pc t .idle }

theorem QueueSys.step_move {s s' : QueueSys T α} {a : QueueAct T α} (hs : s.step a = some s') :
    s.Move a s' := by
  cases a with
  | takePush t k x =>
    simp only [QueueSys.step] at hs
    split at hs
    · rename_i hpc
      obtain ⟨q, hq, rfl⟩ := Option.map_eq_some_iff.mp hs
      exact .takePush hpc hq
    · cases hs
  | failPush t k =>
    simp only [QueueSys.step] at hs
    split at hs
    · rename_i hpc
      split at hs
      · rename_i hk
        cases hs
        exact .failPush hpc hk
      · cases hs
    · cases hs
  | push t =>
    simp only [QueueSys.step] at hs
    split at hs
    · rename_i x hpc
      cases hs
      exact .push hpc
    · cases hs
  | postPop t =>
    simp only [QueueSys.step] at hs
    split at hs
    · rename_i hpc
      cases hs
      exact .postPop hpc
    · cases hs
  | takePop t k =>
    simp only [QueueSys.step] at hs
    split at hs
    · rename_i hpc
      obtain ⟨q, hq, rfl⟩ := Option.map_eq_some_iff.mp hs
      exact .takePop hpc hq
    · cases hs
  | failPop t k =>
    simp only [QueueSys.step] at hs
    split at hs
    · rename_i hpc
      split at hs
      · rename_i hk
        cases hs
        exact .failPop hpc hk
      · cases hs
    · cases hs
  | pop t =>
    simp only [QueueSys.step] at hs
    split at hs
    · rename_i hpc
      cases hs
      exact .pop hpc
    · cases hs
  | postPush t =>
    simp only [QueueSys.step] at hs
    split at hs
    · rename_i x hpc
      cases hs
      exact .postPush hpc
    · cases hs

/-- nobody has called the queue yet -/
def QueueSys.init (q : Queue α) : QueueSys T α := ⟨q, fun _ => .idle, [], [], fun _ => false⟩

/-- number of threads between their wait and their post -/
def QueueSys.inside (s : QueueSys T α) : ℕ := ∑ t, (s.pc t).inside

/-! ## the invariant -/

/-- the counts of `QueueInv` read off the program counters -/
def QueueAt (q : Queue α) (xs : List (Option α)) (pc : T → QueuePc α) : Prop :=
  QueueInv q xs (∑ t, (pc t).beforePush) (∑ t, (pc t).afterPush) (∑ t, (pc t).beforePop)
    (∑ t, (pc t).afterPop)

/-- the cells with an element are the occupied part of the ring -/
def FilledRing (q : Queue α) (filled : ℕ → Bool) : Prop :=
  ∀ i, filled i = true ↔ ∃ j, j < q.pending ∧ i = (q.head + j) % q.size

structure QueueSys.Inv (size : ℕ) (s : QueueSys T α) : Prop where
  size : s.q.size = size
  filled : FilledRing s.q s.filled
  queue : ∃ xs, QueueAt s.q xs s.pc ∧ s.inserted = s.removed ++ xs

/-- a step of thread `t` changes the four counts by its own share only -/
theorem QueueAt.move {q q' : Queue α} {xs xs' : List (Option α)} {pc : T → QueuePc α} {t : T}
    {p0 : QueuePc α} (h : QueueAt q xs pc) (ht : pc t = p0) (p : QueuePc α)
    (hstep : ∀ a b c d, QueueInv q xs (a + p0.beforePush) (b + p0.afterPush)
        (c + p0.beforePop) (d + p0.afterPop) →
      QueueInv q' xs' (a + p.beforePush) (b + p.afterPush) (c + p.beforePop) (d + p.afterPop)) :
    QueueAt q' xs' (Function.update pc t p) := by
  subst ht
  obtain ⟨a, ha, ha'⟩ := sum_split QueuePc.beforePush pc t
  obtain ⟨b, hb, hb'⟩ := sum_split QueuePc.afterPush pc t
  obtain ⟨c, hc, hc'⟩ := sum_split QueuePc.beforePop pc t
  obtain ⟨d, hd, hd'⟩ := sum_split QueuePc.afterPop pc t
  unfold QueueAt at h ⊢
  rw [ha, hb, hc, hd, Nat.add_comm _ a, Nat.add_comm _ b, Nat.add_comm _ c, Nat.add_comm _ d] at h
  rw [ha', hb', hc', hd', Nat.add_comm _ a, Nat.add_comm _ b, Nat.add_comm _ c, Nat.add_comm _ d]
  exact hstep a b c d h

/-- a thread with a pop token takes the first of the elements inside -/
theorem QueueAt.pop {q : Queue α} {xs : List (Option α)} {pc : T → QueuePc α} {t : T}
    (h : QueueAt q xs pc) (ht : pc t = .popping) :
    ∃ ys, xs = (queuePop q).1 :: ys ∧
      QueueAt (queuePop q).2 ys (Function.update pc t (.popped (queuePop q).1)) := by
  -- the elements inside are known only after the counts have been split
  obtain ⟨ys, hys⟩ : ∃ ys, xs = (queuePop q).1 :: ys := by
    have hshare := share_le QueuePc.beforePop pc t
    rw [ht] at hshare
    obtain ⟨c, hc⟩ := Nat.exists_eq_add_of_le hshare
    unfold QueueAt at h
    rw [hc, Nat.add_comm] at h
    obtain ⟨ys, hys, _⟩ := QueueInv.pop h
    exact ⟨ys, hys⟩
  refine ⟨ys, hys, h.move ht _ fun a b c d hi => ?_⟩
  obtain ⟨zs, hzs, hi'⟩ := QueueInv.pop hi
  rw [hys] at hzs
  obtain rfl := (List.cons.inj hzs).2
  exact hi'

theorem QueueAt.inside {s : QueueSys T α} {xs : List (Option α)} (h : QueueAt s.q xs s.pc) :
    s.q.pushSemaphore + s.q.popSemaphore + s.inside = s.q.size := by
  have e : s.inside = ∑ t, (s.pc t).beforePush + ∑ t, (s.pc t).afterPush
      + ∑ t, (s.pc t).beforePop + ∑ t, (s.pc t).afterPop := by
    unfold QueueSys.inside
    rw [← Finset.sum_add_distrib, ← Finset.sum_add_distrib, ← Finset.sum_add_distrib]
    apply Finset.sum_congr rfl
    intro t _
    cases s.pc t <;> rfl
  rw [e]
  exact QueueInv.tokens h

theorem FilledRing.push {q : Queue α} {filled : ℕ → Bool} (x : Option α)
    (htail : q.tail = (q.head + q.pending) % q.size) (h : FilledRing q filled) :
    FilledRing (queuePush q x) (Function.update filled q.tail true) := by
  intro i
  show Function.update filled q.tail true i = true
    ↔ ∃ j, j < q.pending + 1 ∧ i = (q.head + j) % q.size
  by_cases hi : i = q.tail
  · rw [hi, Function.update_self]
    exact ⟨fun _ => ⟨q.pending, by omega, htail⟩, fun _ => rfl⟩
  · rw [Function.update_of_ne hi, h i]
    constructor
    · rintro ⟨j, hj, e⟩
      exact ⟨j, by omega, e⟩
    · rintro ⟨j, hj, e⟩
      have hne : j ≠ q.pending := fun h => hi (by rw [e, h, htail])
      exact ⟨j, by omega, e⟩

theorem FilledRing.pop {q : Queue α} {filled : ℕ → Bool} (hh : q.head < q.size)
    (hle : q.pending ≤ q.size) (h : FilledRing q filled) :
    FilledRing (queuePop q).2 (Function.update filled q.head false) := by
  intro i
  show Function.update filled q.head false i = true
    ↔ ∃ j, j < q.pending - 1 ∧ i = ((q.head + 1) % q.size + j) % q.size
  have hnext : ∀ j, ((q.head + 1) % q.size + j) % q.size = (q.head + (j + 1)) % q.size := by
    intro j
    rw [Nat.mod_add_mod]
    congr 1
    omega
  by_cases hi : i = q.head
  · rw [hi, Function.update_self]
    refine ⟨fun h => absurd h (by simp), ?_⟩
    rintro ⟨j, hj, e⟩
    rw [hnext] at e
    have hne := mod_ne_mod q.size q.head (show 0 < j + 1 by omega) (by omega)
    rw [Nat.add_zero, Nat.mod_eq_of_lt hh] at hne
    exact absurd e hne
  · rw [Function.update_of_ne hi, h i]
    constructor
    · rintro ⟨j, hj, e⟩
      cases j with
      | zero => exact absurd e (by rw [Nat.add_zero, Nat.mod_eq_of_lt hh]; exact hi)
      | succ j => exact ⟨j, by omega, by rw [hnext]; exact e⟩
    · rintro ⟨j, hj, e⟩
      exact ⟨j + 1, by omega, by rw [← hnext]; exact e⟩

/-- a thread that holds a push token will not store over an element -/
theorem QueueSys.Inv.tail_empty {size : ℕ} {s : QueueSys T α} (h : s.Inv size) {t : T}
    {x : Option α} (ht : s.pc t = .pushing x) : s.filled s.q.tail = false := by
  obtain ⟨xs, hq, _⟩ := h.queue
  have hshare := share_le QueuePc.beforePush s.pc t
  rw [ht] at hshare
  have hone : (QueuePc.pushing x).beforePush = 1 := rfl
  have hroom := QueueInv.room hq
  cases hf : s.filled s.q.tail with
  | false => rfl
  | true =>
    obtain ⟨j, hj, e⟩ := (h.filled s.q.tail).mp hf
    rw [QueueInv.tail hq] at e
    exact absurd e.symm (mod_ne_mod _ _ hj (by omega))

/-- a thread that holds a pop token will read an element -/
theorem QueueSys.Inv.head_filled {size : ℕ} {s : QueueSys T α} (h : s.Inv size) {t : T}
    (ht : s.pc t = .popping) : s.filled s.q.head = true := by
  obtain ⟨xs, hq, _⟩ := h.queue
  have hshare := share_le QueuePc.beforePop s.pc t
  rw [ht] at hshare
  have hone : (QueuePc.popping : QueuePc α).beforePop = 1 := rfl
  have hitems := QueueInv.items hq
  refine (h.filled s.q.head).mpr ⟨0, by omega, ?_⟩
  rw [Nat.add_zero, Nat.mod_eq_of_lt (QueueInv.head hq)]

theorem QueueSys.step_inv {size : ℕ} (s : QueueSys T α) (a : QueueAct T α) (s' : QueueSys T α)
    (h : s.Inv size) (hs : s.step a = some s') : s'.Inv size := by
  obtain ⟨hsize, hfill, xs, hq, hio⟩ := h
  cases QueueSys.step_move hs with
  | @takePush t k x q' hpc hq' =>
    have hq2 : QueueAt q' xs (Function.update s.pc t (.pushing x)) :=
      hq.move hpc _ fun a b c d hi => hi.takePush hq'
    unfold queueTakePush at hq'
    split at hq' <;> cases hq'
    exact ⟨hsize, hfill, xs, hq2, hio⟩
  | failPush hpc hk => exact ⟨hsize, hfill, xs, hq, hio⟩
  | @push t x hpc =>
    refine ⟨hsize, hfill.push x (QueueInv.tail hq), xs ++ [x], ?_, ?_⟩
    · exact hq.move hpc _ fun a b c d hi => hi.push x
    · show s.inserted ++ [x] = s.removed ++ (xs ++ [x])
      rw [hio, List.append_assoc]
  | postPop hpc => exact ⟨hsize, hfill, xs, hq.move hpc _ fun a b c d hi => hi.postPop, hio⟩
  | @takePop t k q' hpc hq' =>
    have hq2 : QueueAt q' xs (Function.update s.pc t .popping) :=
      hq.move hpc _ fun a b c d hi => hi.takePop hq'
    unfold queueTakePop at hq'
    split at hq' <;> cases hq'
    exact ⟨hsize, hfill, xs, hq2, hio⟩
  | failPop hpc hk => exact ⟨hsize, hfill, xs, hq, hio⟩
  | pop hpc =>
    have hfill' := hfill.pop (QueueInv.head hq) (QueueInv.pending_le hq)
    obtain ⟨ys, hys, hq'⟩ := hq.pop hpc
    refine ⟨hsize, hfill', ys, hq', ?_⟩
    show s.inserted = (s.removed ++ [(queuePop s.q).1]) ++ ys
    rw [hio, hys, List.append_assoc]
    rfl
  | postPush hpc => exact ⟨hsize, hfill, xs, hq.move hpc _ fun a b c d hi => hi.postPush, hio⟩

theorem QueueSys.init_inv {size : ℕ} {q : Queue α} (h : queueInit size = some q) :
    (QueueSys.init q : QueueSys T α).Inv size := by
  obtain ⟨hi, hsize, _⟩ := QueueInv.init h
  have hp : q.pending = 0 := hi.length.symm
  refine ⟨hsize, fun i => ⟨fun hf => absurd hf (by simp [QueueSys.init]), ?_⟩, [], ?_, rfl⟩
  · rintro ⟨j, hj, _⟩
    have : j < q.pending := hj
    omega
  · have hz : ∀ f : QueuePc α → ℕ, f .idle = 0 → ∑ _t : T, f .idle = 0 := by
      intro f hf
      rw [hf]
      exact Finset.sum_const_zero
    show QueueInv q [] (∑ _t : T, QueuePc.idle.beforePush) (∑ _t : T, QueuePc.idle.afterPush)
      (∑ _t : T, QueuePc.idle.beforePop) (∑ _t : T, QueuePc.idle.afterPop)
    rw [hz _ rfl, hz _ rfl, hz _ rfl, hz _ rfl]
    exact hi

/-- **The bounded queue is a FIFO under every interleaving.**  The ring never holds more than `size`
elements, a push section never stores over an element and a pop section never reads an empty cell,
the removed elements are a prefix of the inserted ones, and tokens are neither lost nor created. -/
theorem queueSys_fifo (size : ℕ) (q : Queue α) (hq : queueInit size = some q)
    (l : List (QueueAct T α)) (s : QueueSys T α)
    (hs : exec QueueSys.step (QueueSys.init q) l = some s) :
    s.q.pending ≤ size ∧ s.q.head < size ∧ s.q.tail < size ∧
      (∀ t x, s.pc t = .pushing x → s.filled s.q.tail = false) ∧
      (∀ t, s.pc t = .popping → s.filled s.q.head = true) ∧
      s.removed <+: s.inserted ∧
      s.q.pushSemaphore + s.q.popSemaphore + s.inside = size := by
  have hi := exec_inv (I := QueueSys.Inv size) QueueSys.step_inv (QueueSys.init_inv hq) hs
  obtain ⟨xs, hat, hio⟩ := hi.queue
  have h1 := QueueInv.pending_le hat
  have h2 := QueueInv.head hat
  have h3 := QueueInv.tail_lt hat
  have h4 := QueueAt.inside hat
  rw [hi.size] at h1 h2 h3 h4
  exact ⟨h1, h2, h3, fun t x => hi.tail_empty, fun t => hi.head_filled, ⟨xs, hio.symm⟩, h4⟩

end

/-- one cell, a producer and a consumer: the second push finds no token until the pop has posted -/
theorem queueSys_fifo_one_cell :
    ∃ s, exec QueueSys.step (QueueSys.init (T := Fin 2) (⟨1, fun _ => none, 0, 0, 0, 1, 0⟩ : Queue ℕ))
        [.takePush 0 .wait (some 5), .push 0, .postPop 0, .takePop 1 .wait, .failPush 0 .attempt,
          .pop 1, .postPush 1, .takePush 0 .attempt none] = some s ∧
      s.removed <+: s.inserted ∧ s.q.pushSemaphore + s.q.popSemaphore + s.inside = 1 := by
  obtain ⟨s, hs⟩ := Option.isSome_iff_exists.mp (show (exec QueueSys.step
    (QueueSys.init (T := Fin 2) (⟨1, fun _ => none, 0, 0, 0, 1, 0⟩ : Queue ℕ))
    [.takePush 0 .wait (some 5), .push 0, .postPop 0, .takePop 1 .wait, .failPush 0 .attempt,
      .pop 1, .postPush 1, .takePush 0 .attempt none]).isSome = true by decide)
  obtain ⟨_, _, _, _, _, hpre, htok⟩ := queueSys_fifo 1
    ⟨1, fun _ => none, 0, 0, 0, 1, 0⟩ rfl _ s hs
  exact ⟨s, hs, hpre, htok⟩

end QuicVpn
