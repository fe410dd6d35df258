import QuicVpn.Lib.Exec
import QuicVpn.Common.Pool

/-!
# The block pool under any number of threads

The threads `T` call `pool_try_get` and `pool_wait_get` and hand the blocks on as they like; any
thread may call `pool_put` on a block that is out.  A step of the system is one section of
`Common/Pool.lean`, one return of `aligned_alloc`, or one wake-up:

* `tryGet t`, `waitGet t`   thread `t` enters a get and runs its first section;
* `wake t`                  `pthread_cond_wait` returns (signalled, or by itself) and the loop turns;
* `alloc t r`               `aligned_alloc` returns `r` outside the lock;
* `finish t`                the second section;
* `put b w`                 `pool_put b`, whose `pthread_cond_signal` wakes the sleeper `w` if there
                            is one.

`out` records the blocks that a get has returned and no put has taken back since.  The main result
is `poolSys_safe`.
-/

set_option linter.unusedSectionVars false

namespace QuicVpn
open Conc

/-- where a thread is in `pool_try_get` or `pool_wait_get` -/
inductive PoolPc where
  | idle
  | reserved
  | allocated (r : Option Blk)
  | sleeping
  | signalled
  deriving DecidableEq, Repr

structure PoolSys (T : Type) where
  pool : Pool
  pc : T → PoolPc
  heap : List Blk
  out : List Blk
  fatal : Bool

inductive PoolAct (T : Type) where
  | tryGet (t : T)
  | waitGet (t : T)
  | wake (t : T)
  | alloc (t : T) (r : Option Blk)
  | finish (t : T)
  | put (b : Blk) (w : Option T)

/-- what a thread has of the pool inside a get -/
def PoolPc.share : PoolPc → Share
  | .reserved => Share.reserved
  | .allocated r => Share.allocated r
  | _ => 0

/-- `1` for a thread that has reserved a block and not yet finished allocating -/
def PoolPc.resv : PoolPc → ℕ
  | .reserved => 1
  | .allocated _ => 1
  | _ => 0

section
variable {T : Type} [Fintype T] [DecidableEq T]

/-- `pthread_cond_signal` wakes a sleeping thread if there is one -/
def SignalOk (pc : T → PoolPc) : Option T → Prop
  | some t => pc t = .sleeping
  | none => ∀ t, pc t ≠ .sleeping

instance (pc : T → PoolPc) (w : Option T) : Decidable (SignalOk pc w) :=
  match w with
  | some t => inferInstanceAs (Decidable (pc t = .sleeping))
  | none => inferInstanceAs (Decidable (∀ t, pc t ≠ .sleeping))

def signal (pc : T → PoolPc) : Option T → T → PoolPc
  | some t => Function.update pc t .signalled
  | none => pc

/-- end of the first section of a get: `full` is where a thread without room goes -/
def PoolSys.afterGet (s : PoolSys T) (t : T) (full : PoolPc) : Got × Pool → PoolSys T
  | (.block b, p) => { s with pool := p, pc := Function.update s.pc t .idle, out := b :: s.out }
  | (.full, p) => { s with pool := p, pc := Function.update s.pc t full }
  | (.reserved, p) => { s with pool := p, pc := Function.update s.pc t .reserved }

def PoolSys.step (s : PoolSys T) : PoolAct T → Option (PoolSys T)
  | .tryGet t =>
    if s.pc t = .idle then some (s.afterGet t .idle (poolTryGetLocked s.pool)) else none
  | .waitGet t =>
    if s.pc t = .idle then some (s.afterGet t .sleeping (poolWaitGetLocked s.pool)) else none
  | .wake t =>
    if s.pc t = .sleeping ∨ s.pc t = .signalled then
      some (s.afterGet t .sleeping (poolWaitGetLocked s.pool))
    else none
  | .alloc t r =>
    if s.pc t = .reserved ∧ ∀ b ∈ r, b ∉ s.heap then
      some { s with pc := Function.update s.pc t (.allocated r), heap := r.toList ++ s.heap }
    else none
  | .finish t =>
    match s.pc t with
    | .allocated (some b) =>
      some { s with pool := poolAllocDone s.pool, pc := Function.update s.pc t .idle,
                    out := b :: s.out }
    | .allocated none =>
      some { s with pool := poolAllocFailed s.pool, pc := Function.update s.pc t .idle }
    | _ => none
  | .put b w =>
    if b ∈ s.out ∧ SignalOk s.pc w then
      match poolPut s.pool b with
      | some p => some { s with pool := p, pc := signal s.pc w, out := s.out.erase b }
      | none => some { s with fatal := true }
    else none

/-- nobody has called the pool yet -/
def PoolSys.init (p : Pool) : PoolSys T := ⟨p, fun _ => .idle, [], [], false⟩

/-- number of threads that have reserved a block and not yet finished allocating -/
def PoolSys.reservations (s : PoolSys T) : ℕ := ∑ t, (s.pc t).resv

/-! ## the invariant -/

def PoolSys.Inv (cap : ℕ) (s : PoolSys T) : Prop :=
  s.fatal = false ∧ s.pool.cap = cap ∧
    PoolOk s.pool (Share.held s.out + ∑ t, (s.pc t).share) s.heap

/-- the share of one thread, and how it may be replaced -/
theorem PoolSys.Inv.split {cap : ℕ} {s : PoolSys T} (h : s.Inv cap) (t : T) :
    ∃ R, PoolOk s.pool ((s.pc t).share + R) s.heap ∧
      ∀ b q, (Share.held ((b ::ₘ (s.out : Multiset Blk)))
          + ∑ u, (Function.update s.pc t q u).share) = Share.held {b} + (q.share + R) ∧
        (Share.held s.out + ∑ u, (Function.update s.pc t q u).share) = q.share + R := by
  obtain ⟨_, _, hp⟩ := h
  obtain ⟨r, r1, r2⟩ := sum_split PoolPc.share s.pc t
  have e : ∀ x : Share, Share.held s.out + (x + r) = x + (Share.held s.out + r) :=
    fun x => add_left_comm _ _ _
  refine ⟨Share.held s.out + r, ?_, fun b q => ⟨?_, ?_⟩⟩
  · rw [← e, ← r1]
    exact hp
  · rw [r2, Share.held_cons, add_assoc, e]
  · rw [r2, e]

/-- a thread goes on without touching the pool -/
theorem PoolSys.Inv.move {cap : ℕ} {s : PoolSys T} (h : s.Inv cap) {t : T} {q0 : PoolPc}
    (ht : s.pc t = q0) (q : PoolPc) (hsh : q.share = q0.share) :
    ({ s with pc := Function.update s.pc t q } : PoolSys T).Inv cap := by
  obtain ⟨R, hp, hput⟩ := h.split t
  refine ⟨h.1, h.2.1, ?_⟩
  show PoolOk s.pool (Share.held s.out + ∑ u, (Function.update s.pc t q u).share) s.heap
  rw [(hput 0 q).2, hsh, ← ht]
  exact hp

/-- the first section of a get, from any point at which the thread has nothing of the pool -/
theorem PoolSys.afterGet_inv {cap : ℕ} {s : PoolSys T} (t : T) (full : PoolPc)
    (ht : (s.pc t).share = 0) (hf : full.share = 0) (h : s.Inv cap) :
    (s.afterGet t full (poolTryGetLocked s.pool)).Inv cap := by
  obtain ⟨R, hp, hput⟩ := h.split t
  rw [ht, zero_add] at hp
  have hc : (poolTryGetLocked s.pool).2.cap = cap := (poolTryGetLocked_cap s.pool).trans h.2.1
  cases hlk : poolTryGetLocked s.pool with
  | mk g p =>
    rw [hlk] at hc
    cases g with
    | block b =>
      refine ⟨h.1, hc, ?_⟩
      show PoolOk p (Share.held (b ::ₘ (s.out : Multiset Blk))
        + ∑ u, (Function.update s.pc t .idle u).share) s.heap
      rw [(hput b .idle).1]
      show PoolOk p (Share.held {b} + (0 + R)) s.heap
      rw [zero_add]
      exact hp.get_block hlk
    | full =>
      obtain rfl := PoolInv.get_full hlk
      exact h.move rfl full (hf.trans ht.symm)
    | reserved =>
      refine ⟨h.1, hc, ?_⟩
      show PoolOk p (Share.held s.out + ∑ u, (Function.update s.pc t .reserved u).share) s.heap
      rw [(hput 0 .reserved).2]
      exact hp.get_reserved hlk

theorem PoolSys.Inv.signal {cap : ℕ} {s : PoolSys T} {w : Option T} (h : s.Inv cap)
    (hw : SignalOk s.pc w) : ({ s with pc := signal s.pc w } : PoolSys T).Inv cap := by
  cases w with
  | none => exact h
  | some t => exact h.move hw .signalled rfl

/-- the second section of a get -/
theorem PoolSys.finish_inv {cap : ℕ} {s s' : PoolSys T} {t : T} (h : s.Inv cap)
    (hs : s.step (.finish t) = some s') : s'.Inv cap := by
  obtain ⟨R, hp, hput⟩ := h.split t
  simp only [PoolSys.step] at hs
  split at hs
  · rename_i b hpc
    cases hs
    rw [hpc] at hp
    refine ⟨h.1, h.2.1, ?_⟩
    show PoolOk _ (Share.held (b ::ₘ (s.out : Multiset Blk))
      + ∑ u, (Function.update s.pc t .idle u).share) s.heap
    rw [(hput b .idle).1]
    show PoolOk _ (Share.held {b} + (0 + R)) s.heap
    rw [zero_add]
    exact hp.allocDone
  · rename_i hpc
    cases hs
    rw [hpc] at hp
    refine ⟨h.1, h.2.1, ?_⟩
    show PoolOk _ (Share.held s.out + ∑ u, (Function.update s.pc t .idle u).share) s.heap
    rw [(hput 0 .idle).2]
    show PoolOk _ (0 + R) s.heap
    rw [zero_add]
    exact hp.allocFailed
  · cases hs

theorem PoolSys.put_inv {cap : ℕ} {s s' : PoolSys T} {b : Blk} {w : Option T} (h : s.Inv cap)
    (hs : s.step (.put b w) = some s') : s'.Inv cap := by
  simp only [PoolSys.step] at hs
  split at hs
  · rename_i hc
    obtain ⟨hb, hw⟩ := hc
    have hp := h.2.2
    have hout : (s.out : Multiset Blk) = b ::ₘ ((s.out.erase b : List Blk) : Multiset Blk) := by
      rw [Multiset.cons_coe, Multiset.coe_eq_coe]
      exact List.perm_cons_erase hb
    rw [hout, Share.held_cons, add_assoc] at hp
    obtain ⟨q, hq, hp'⟩ := hp.put
    rw [hq] at hs
    cases hs
    have h' : ({ s with pool := q, out := s.out.erase b } : PoolSys T).Inv cap :=
      ⟨h.1, (poolPut_cap hq).trans h.2.1, hp'⟩
    exact h'.signal hw
  · cases hs

theorem PoolSys.step_inv {cap : ℕ} (s : PoolSys T) (a : PoolAct T) (s' : PoolSys T)
    (h : s.Inv cap) (hs : s.step a = some s') : s'.Inv cap := by
  cases a with
  | tryGet t =>
    simp only [PoolSys.step, Option.ite_none_right_eq_some, Option.some.injEq] at hs
    obtain ⟨hpc, rfl⟩ := hs
    exact PoolSys.afterGet_inv t .idle (by rw [hpc]; rfl) rfl h
  | waitGet t =>
    simp only [PoolSys.step, Option.ite_none_right_eq_some, Option.some.injEq] at hs
    obtain ⟨hpc, rfl⟩ := hs
    rw [poolWaitGetLocked_eq]
    exact PoolSys.afterGet_inv t .sleeping (by rw [hpc]; rfl) rfl h
  | wake t =>
    simp only [PoolSys.step, Option.ite_none_right_eq_some, Option.some.injEq] at hs
    obtain ⟨hpc, rfl⟩ := hs
    rw [poolWaitGetLocked_eq]
    have hz : (s.pc t).share = 0 := by
      rcases hpc with hpc | hpc <;> rw [hpc] <;> rfl
    exact PoolSys.afterGet_inv t .sleeping hz rfl h
  | alloc t r =>
    simp only [PoolSys.step, Option.ite_none_right_eq_some, Option.some.injEq] at hs
    obtain ⟨⟨hpc, hfresh⟩, rfl⟩ := hs
    obtain ⟨R, hp, hput⟩ := h.split t
    rw [hpc] at hp
    refine ⟨h.1, h.2.1, ?_⟩
    show PoolOk s.pool (Share.held s.out + ∑ u, (Function.update s.pc t (.allocated r) u).share)
      (r.toList ++ s.heap)
    rw [(hput 0 (.allocated r)).2]
    exact hp.alloc hfresh
  | finish t => exact PoolSys.finish_inv h hs
  | put b w => exact PoolSys.put_inv h hs

theorem PoolSys.init_inv {blockSize cap : ℕ} {p : Pool} (h : poolInit blockSize cap = some p) :
    (PoolSys.init p : PoolSys T).Inv cap := by
  refine ⟨rfl, poolInit_cap h, ?_⟩
  have hz : (∑ _t : T, PoolPc.idle.share) = 0 := Finset.sum_const_zero
  show PoolOk p (0 + ∑ _t : T, PoolPc.idle.share) []
  rw [hz, add_zero]
  exact PoolOk.init h []

/-- the open reservations are those of the threads inside a get -/
theorem PoolSys.resv_sum (s : PoolSys T) :
    (Share.held s.out + ∑ t, (s.pc t).share).2.2 = s.reservations := by
  have e : ∀ q : PoolPc, q.share.2.2 = q.resv := by
    intro q
    cases q with
    | allocated r => cases r <;> rfl
    | _ => rfl
  show 0 + (∑ t, (s.pc t).share).2.2 = _
  rw [Nat.zero_add, Prod.snd_sum, Prod.snd_sum]
  exact Finset.sum_congr rfl fun t _ => e (s.pc t)

/-- what is handed out is what the gets have returned -/
theorem PoolSys.out_sum (s : PoolSys T) :
    (Share.held s.out + ∑ t, (s.pc t).share).1 = s.out := by
  have e : ∀ q : PoolPc, q.share.1 = 0 := by
    intro q
    cases q with
    | allocated r => cases r <;> rfl
    | _ => rfl
  show (s.out : Multiset Blk) + (∑ t, (s.pc t).share).1 = s.out
  rw [Prod.fst_sum, Finset.sum_congr rfl fun t _ => e (s.pc t), Finset.sum_const_zero, add_zero]

/-- **Safety of the block pool.**  In every reachable state the blocks are accounted for, the
capacity is respected, no block is free twice or free and handed out at once, none is handed out
twice, and the underflow check of `pool_put` has never fired. -/
theorem poolSys_safe (blockSize cap : ℕ) (p : Pool) (hp : poolInit blockSize cap = some p)
    (l : List (PoolAct T)) (s : PoolSys T) (hs : exec PoolSys.step (PoolSys.init p) l = some s) :
    ∃ free, Chain s.pool.next s.pool.freeList free ∧
      (s.pool.totalBlocks : ℤ) = s.pool.inUse + free.length + s.reservations ∧
      (cap ≠ 0 → s.pool.totalBlocks ≤ cap) ∧
      s.pool.inUse = s.out.length ∧ free.Nodup ∧ s.out.Nodup ∧ (∀ b ∈ free, b ∉ s.out) ∧
      s.fatal = false := by
  obtain ⟨hfatal, hcap, free, hi⟩ := exec_inv (I := PoolSys.Inv cap) PoolSys.step_inv
    (PoolSys.init_inv hp) hs
  rw [PoolSys.resv_sum, PoolSys.out_sum] at hi
  have hn := Multiset.nodup_add.mp (Multiset.nodup_add.mp hi.nodup).1
  have hu : s.pool.inUse = s.out.length := hi.inUse
  refine ⟨free, hi.chain, ?_, ?_, hu, hn.1, hn.2.1, ?_, hfatal⟩
  · have ht : s.pool.totalBlocks = s.out.length + free.length + s.reservations := hi.total
    rw [ht, hu]
    push_cast
    rfl
  · intro hc
    have h := hi.cap
    rw [hcap] at h
    exact h hc
  · intro b hb hb'
    exact Multiset.disjoint_left.mp hn.2.2 hb hb'

end

/-- two threads and room for two blocks: one get recycles nothing and allocates, one runs out of
memory, and the block comes back -/
theorem poolSys_safe_two_threads :
    ∃ s, exec PoolSys.step (PoolSys.init (T := Fin 2) ⟨64, 2, 0, 0, none, fun _ => none⟩)
        [.tryGet 0, .waitGet 1, .alloc 0 (some 7), .alloc 1 none, .finish 0, .finish 1, .put 7 none]
        = some s ∧ s.pool.inUse = s.out.length ∧ s.fatal = false := by
  refine ⟨_, rfl, ?_⟩
  obtain ⟨_, _, _, _, hu, _, _, _, hf⟩ :=
    poolSys_safe (T := Fin 2) 64 2 ⟨64, 2, 0, 0, none, fun _ => none⟩ rfl
      [.tryGet 0, .waitGet 1, .alloc 0 (some 7), .alloc 1 none, .finish 0, .finish 1, .put 7 none] _ rfl
  exact ⟨hu, hf⟩

end QuicVpn
