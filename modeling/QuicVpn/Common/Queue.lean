import QuicVpn.Lib.Ring

/-!
# The bounded queue of `queue.h` (Linux): its steps

`queue_wait_push` and `queue_try_push` take a token of `push_semaphore`, store the element under
the mutex and post `pop_semaphore`; the pops do the same the other way round.  The wait and the post
stand outside the mutex, so they are steps of their own:

* `queueTakePush`, `queueTakePop`   a successful wait (`none`: there is no token);
* `queuePush`, `queuePop`           the locked sections;
* `queuePostPop`, `queuePostPush`   the posts.

Elements are pointers, so `none` is `NULL`, which may be pushed like any other element.

`QueueInv q xs a b c d`: the queue holds `xs` while `a` producers are between their wait and their
section, `b` producers between section and post, and `c`, `d` consumers likewise.  Each step
preserves it, with the counts moved by one.
-/

namespace QuicVpn
open Conc

structure Queue (α : Type) where
  size : ℕ
  ptr : ℕ → Option α
  head : ℕ
  tail : ℕ
  pending : ℕ
  pushSemaphore : ℕ
  popSemaphore : ℕ

/-- `SEM_VALUE_MAX` -/
def semValueMax : ℕ := 2 ^ 31 - 1

section
variable {α : Type}

/-- `queue_init` -/
def queueInit (size : ℕ) : Option (Queue α) :=
  if size = 0 then none
  else if size > semValueMax then none
  else some ⟨size, fun _ => none, 0, 0, 0, size, 0⟩

/-- `sem_wait` or `sem_trywait` on `push_semaphore` succeeds -/
def queueTakePush (q : Queue α) : Option (Queue α) :=
  if 0 < q.pushSemaphore then some { q with pushSemaphore := q.pushSemaphore - 1 } else none

/-- the locked section of a push -/
def queuePush (q : Queue α) (x : Option α) : Queue α :=
  { q with ptr := Function.update q.ptr q.tail x, tail := (q.tail + 1) % q.size,
           pending := q.pending + 1 }

/-- `sem_post(&q->pop_semaphore)` -/
def queuePostPop (q : Queue α) : Queue α := { q with popSemaphore := q.popSemaphore + 1 }

/-- `sem_wait` or `sem_trywait` on `pop_semaphore` succeeds -/
def queueTakePop (q : Queue α) : Option (Queue α) :=
  if 0 < q.popSemaphore then some { q with popSemaphore := q.popSemaphore - 1 } else none

/-- the locked section of a pop: the element and the queue -/
def queuePop (q : Queue α) : Option α × Queue α :=
  (q.ptr q.head,
    { q with ptr := Function.update q.ptr q.head none, head := (q.head + 1) % q.size,
             pending := q.pending - 1 })

/-- `sem_post(&q->push_semaphore)` -/
def queuePostPush (q : Queue α) : Queue α := { q with pushSemaphore := q.pushSemaphore + 1 }

/-! ## the invariant -/

structure QueueInv (q : Queue α) (xs : List (Option α)) (a b c d : ℕ) : Prop where
  head : q.head < q.size
  tail : q.tail = (q.head + q.pending) % q.size
  length : xs.length = q.pending
  ring : ring q.ptr q.size q.head q.pending = xs
  room : q.pushSemaphore + a + q.pending + d = q.size
  items : q.popSemaphore + b + c = q.pending

theorem QueueInv.init {size : ℕ} {q : Queue α} (h : queueInit size = some q) :
    QueueInv q [] 0 0 0 0 ∧ q.size = size ∧ size ≤ semValueMax := by
  unfold queueInit at h
  split at h
  · cases h
  · split at h
    · cases h
    · cases h
      exact ⟨⟨by show 0 < size; omega, by show 0 = (0 + 0) % size; simp, rfl, rfl,
        by show size + 0 + 0 + 0 = size; omega, rfl⟩, rfl, by omega⟩

section
variable {q q' : Queue α} {xs : List (Option α)} {a b c d : ℕ}

theorem QueueInv.pending_le (h : QueueInv q xs a b c d) : q.pending ≤ q.size := by
  have := h.room
  omega

theorem QueueInv.tail_lt (h : QueueInv q xs a b c d) : q.tail < q.size := by
  rw [h.tail]
  exact Nat.mod_lt _ (Nat.lt_of_le_of_lt (Nat.zero_le _) h.head)

/-- the tokens and the threads between their wait and their post -/
theorem QueueInv.tokens (h : QueueInv q xs a b c d) :
    q.pushSemaphore + q.popSemaphore + (a + b + c + d) = q.size := by
  have h1 := h.room
  have h2 := h.items
  omega

theorem QueueInv.takePush (h : QueueInv q xs a b c d) (hq : queueTakePush q = some q') :
    QueueInv q' xs (a + 1) b c d := by
  unfold queueTakePush at hq
  split at hq
  · rename_i hpos
    cases hq
    have := h.room
    exact ⟨h.head, h.tail, h.length, h.ring,
      by show q.pushSemaphore - 1 + (a + 1) + q.pending + d = q.size; omega, h.items⟩
  · cases hq

/-- a producer that holds a token finds room: the element goes behind the others -/
theorem QueueInv.push (h : QueueInv q xs (a + 1) b c d) (x : Option α) :
    QueueInv (queuePush q x) (xs ++ [x]) a (b + 1) c d := by
  have hroom := h.room
  have hlt : q.pending < q.size := by omega
  have hitems := h.items
  refine ⟨h.head, ?_, ?_, ?_, ?_, ?_⟩
  · show (q.tail + 1) % q.size = (q.head + (q.pending + 1)) % q.size
    rw [h.tail, Nat.mod_add_mod, Nat.add_assoc]
  · show (xs ++ [x]).length = q.pending + 1
    rw [List.length_append, h.length]
    rfl
  · show Conc.ring (Function.update q.ptr q.tail x) q.size q.head (q.pending + 1) = xs ++ [x]
    rw [h.tail, ring_push _ _ _ _ _ hlt, h.ring]
  · show q.pushSemaphore + a + (q.pending + 1) + d = q.size
    omega
  · show q.popSemaphore + (b + 1) + c = q.pending + 1
    omega

theorem QueueInv.postPop (h : QueueInv q xs a (b + 1) c d) : QueueInv (queuePostPop q) xs a b c d :=
  ⟨h.head, h.tail, h.length, h.ring, h.room,
    by have := h.items; show q.popSemaphore + 1 + b + c = q.pending; omega⟩

theorem QueueInv.takePop (h : QueueInv q xs a b c d) (hq : queueTakePop q = some q') :
    QueueInv q' xs a b (c + 1) d := by
  unfold queueTakePop at hq
  split at hq
  · rename_i hpos
    cases hq
    have := h.items
    exact ⟨h.head, h.tail, h.length, h.ring, h.room,
      by show q.popSemaphore - 1 + b + (c + 1) = q.pending; omega⟩
  · cases hq

/-- a consumer that holds a token finds an element: the oldest one -/
theorem QueueInv.pop (h : QueueInv q xs a b (c + 1) d) :
    ∃ xs', xs = (queuePop q).1 :: xs' ∧ QueueInv (queuePop q).2 xs' a b c (d + 1) := by
  have hroom := h.room
  have hitems := h.items
  obtain ⟨n, hn⟩ : ∃ n, q.pending = n + 1 := ⟨q.pending - 1, by omega⟩
  have hring := h.ring
  rw [hn, ring_pop _ _ _ _ h.head] at hring
  refine ⟨Conc.ring q.ptr q.size ((q.head + 1) % q.size) n, hring.symm, ?_⟩
  have hlt : n < q.size := by omega
  refine ⟨?_, ?_, ?_, ?_, ?_, ?_⟩
  · exact Nat.mod_lt _ (Nat.lt_of_le_of_lt (Nat.zero_le _) h.head)
  · show q.tail = ((q.head + 1) % q.size + (q.pending - 1)) % q.size
    rw [h.tail, hn, Nat.mod_add_mod, Nat.add_sub_cancel]
    congr 1
    omega
  · show (Conc.ring q.ptr q.size ((q.head + 1) % q.size) n).length = q.pending - 1
    rw [ring_length, hn]
    rfl
  · show Conc.ring (Function.update q.ptr q.head none) q.size ((q.head + 1) % q.size) (q.pending - 1)
      = Conc.ring q.ptr q.size ((q.head + 1) % q.size) n
    rw [hn, Nat.add_sub_cancel, ring_clear _ _ _ _ _ h.head hlt]
  · show q.pushSemaphore + a + (q.pending - 1) + (d + 1) = q.size
    omega
  · show q.popSemaphore + b + c = q.pending - 1
    omega

theorem QueueInv.postPush (h : QueueInv q xs a b c (d + 1)) :
    QueueInv (queuePostPush q) xs a b c d :=
  ⟨h.head, h.tail, h.length, h.ring,
    by have := h.room; show q.pushSemaphore + 1 + a + q.pending + d = q.size; omega, h.items⟩

end

end

end QuicVpn
