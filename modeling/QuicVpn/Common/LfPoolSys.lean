import QuicVpn.Lib.Exec
import QuicVpn.Lib.Threads
import QuicVpn.Common.LfPool

/-!
# The lock-free pool under any number of threads

The threads `T` call `lf_pool_try_get` and `lf_pool_wait_get` and hand the blocks on as they like; any
thread may call `lf_pool_put` on a block that is out.  A step of the system is one access to what the
threads share:

* `tryGet t`, `waitGet t`   the semaphore operation of a get;
* `put t b`                 thread `t` calls `lf_pool_put` on the block `b`;
* `load t`                  the load of `head`;
* `access t`                the body of the loop: a get reads `next_idx` of the block it has seen (or
                            `lf_pool_try_get` sees the end of the list), a put writes its own;
* `cas t ok`                the compare-exchange; the weak form may fail without a reason, then `ok`
                            is `false`;
* `count t`                 the change of `in_use`;
* `post t`                  `sem_post`.

`out` records the blocks that a get has returned and no put has been called for since.  `updates`
counts the successful compare-exchanges, and a thread keeps its value at the last load of `head`: the
generation is this number modulo `2 ^ 32`.  The main result is `lfPool_safe`.
-/

set_option linter.unusedSectionVars false

namespace QuicVpn
open Conc

/-- where a thread is; `try_` tells `lf_pool_try_get` from `lf_pool_wait_get` -/
inductive LfPoolPc where
  | idle
  | token (try_ : Bool)
  | loaded (try_ : Bool) (old : LfHead) (seen : ℕ)
  | read (try_ : Bool) (old : LfHead) (next : ℕ) (seen : ℕ)
  | popped (b : ℕ)
  | refund
  | putting (b : ℕ)
  | putLoaded (b : ℕ) (old : LfHead) (seen : ℕ)
  | linked (b : ℕ) (old : LfHead) (seen : ℕ)
  | pushed
  | counted
  deriving DecidableEq, Repr

structure LfPoolSys (T : Type) where
  pool : LfPool
  pc : T → LfPoolPc
  out : List ℕ
  updates : ℕ

inductive LfPoolAct (T : Type) where
  | tryGet (t : T)
  | waitGet (t : T)
  | put (t : T) (b : ℕ)
  | load (t : T)
  | access (t : T)
  | cas (t : T) (ok : Bool)
  | count (t : T)
  | post (t : T)

section
variable {T : Type} [DecidableEq T]

def LfPoolSys.go (s : LfPoolSys T) (t : T) (q : LfPoolPc) : LfPoolSys T :=
  { s with pc := Function.update s.pc t q }

/-- the semaphore gives a token -/
def LfPoolSys.take (s : LfPoolSys T) (t : T) (try_ : Bool) : LfPoolSys T :=
  LfPoolSys.go { s with pool := { s.pool with blocksSem := s.pool.blocksSem - 1 } } t (.token try_)

def LfPoolSys.post (s : LfPoolSys T) (t : T) : LfPoolSys T :=
  LfPoolSys.go { s with pool := { s.pool with blocksSem := s.pool.blocksSem + 1 } } t .idle

/-- a successful compare-exchange -/
def LfPoolSys.swap (s : LfPoolSys T) (t : T) (new : LfHead) (q : LfPoolPc) : LfPoolSys T :=
  LfPoolSys.go { s with pool := { s.pool with head := new }, updates := s.updates + 1 } t q

def LfPoolSys.step (s : LfPoolSys T) : LfPoolAct T → Option (LfPoolSys T)
  | .tryGet t =>
    if s.pc t = .idle then
      -- without a token `lf_pool_try_get` returns `NULL`
      if s.pool.blocksSem = 0 then some s else some (s.take t true)
    else none
  | .waitGet t =>
    if s.pc t = .idle ∧ s.pool.blocksSem ≠ 0 then some (s.take t false) else none
  | .put t b =>
    if s.pc t = .idle ∧ b ∈ s.out then
      some (LfPoolSys.go { s with out := s.out.erase b } t (.putting b))
    else none
  | .load t =>
    match s.pc t with
    | .token try_ => some (s.go t (.loaded try_ s.pool.head s.updates))
    | .putting b => some (s.go t (.putLoaded b s.pool.head s.updates))
    | _ => none
  | .access t =>
    match s.pc t with
    | .loaded try_ old seen =>
      if try_ = true ∧ old.nextIdx = uint32Max then some (s.go t .refund)
      else some (s.go t (.read try_ old (s.pool.nextIdx old.nextIdx) seen))
    | .putLoaded b old seen =>
      let pool := { s.pool with nextIdx := Function.update s.pool.nextIdx b old.nextIdx }
      some (LfPoolSys.go { s with pool := pool } t (.linked b old seen))
    | _ => none
  | .cas t ok =>
    match s.pc t with
    | .read try_ old next _ =>
      if ok = true ∧ s.pool.head = old then
        some (s.swap t ⟨next, old.generation + 1⟩ (.popped old.nextIdx))
      else some (s.go t (.loaded try_ s.pool.head s.updates))
    | .linked b old _ =>
      if ok = true ∧ s.pool.head = old then some (s.swap t ⟨b, old.generation + 1⟩ .pushed)
      else some (s.go t (.putLoaded b s.pool.head s.updates))
    | _ => none
  | .count t =>
    match s.pc t with
    | .popped b =>
      let pool := { s.pool with inUse := s.pool.inUse + 1 }
      some (LfPoolSys.go { s with pool := pool, out := b :: s.out } t .idle)
    | .pushed =>
      some (LfPoolSys.go { s with pool := { s.pool with inUse := s.pool.inUse - 1 } } t .counted)
    | _ => none
  | .post t =>
    match s.pc t with
    | .counted => some (s.post t)
    | .refund => some (s.post t)
    | _ => none

/-- nobody has called the pool yet -/
def LfPoolSys.init (p : LfPool) : LfPoolSys T := ⟨p, fun _ => .idle, [], 0⟩

/-- the number of updates at the load of `head`, before a compare-exchange -/
def LfPoolPc.seen : LfPoolPc → Option ℕ
  | .read _ _ _ seen => some seen
  | .linked _ _ seen => some seen
  | _ => none

/-- fewer than `2 ^ 32` updates between the load of `head` and the compare-exchange -/
def LfPoolSys.Fresh (s : LfPoolSys T) : LfPoolAct T → Prop
  | .cas t _ => ∀ seen ∈ (s.pc t).seen, s.updates - seen < 2 ^ 32
  | _ => True

instance LfPoolSys.decidableFresh (s : LfPoolSys T) : ∀ a, Decidable (s.Fresh a)
  | .cas t _ => inferInstanceAs (Decidable (∀ seen ∈ (s.pc t).seen, s.updates - seen < 2 ^ 32))
  | .tryGet _ => .isTrue trivial
  | .waitGet _ => .isTrue trivial
  | .put _ _ => .isTrue trivial
  | .load _ => .isTrue trivial
  | .access _ => .isTrue trivial
  | .count _ => .isTrue trivial
  | .post _ => .isTrue trivial

/-! ## what the threads have -/

/-- the block a thread has inside a call -/
def LfPoolPc.hand : LfPoolPc → Multiset ℕ
  | .popped b => {b}
  | .putting b => {b}
  | .putLoaded b _ _ => {b}
  | .linked b _ _ => {b}
  | _ => 0

/-- `1` for a get that has a token and no block yet -/
def LfPoolPc.tokens : LfPoolPc → ℕ
  | .token _ => 1
  | .loaded _ _ _ => 1
  | .read _ _ _ _ => 1
  | .refund => 1
  | _ => 0

/-- `1` for a put whose block is in the list and whose token is not posted -/
def LfPoolPc.owed : LfPoolPc → ℕ
  | .pushed => 1
  | .counted => 1
  | _ => 0

/-- `1` for a put that still has to lower `in_use` -/
def LfPoolPc.used : LfPoolPc → ℕ
  | .putting _ => 1
  | .putLoaded _ _ _ => 1
  | .linked _ _ _ => 1
  | .pushed => 1
  | _ => 0

/-- the head that a get has seen -/
def LfPoolPc.sees : LfPoolPc → Option LfHead
  | .loaded _ old _ => some old
  | .read _ old _ _ => some old
  | _ => none

variable [Fintype T]

/-- the blocks that are in use: out, or in the hands of a thread inside a call -/
def LfPoolSys.held (s : LfPoolSys T) : Multiset ℕ := s.out + ∑ t, (s.pc t).hand

/-- the pool is safe -/
structure LfPoolSys.Safe (s : LfPoolSys T) : Prop where
  /-- the free list is finite, without repetition, in range, and has nothing that is held -/
  free : ∃ l, s.pool.Free l ∧ l.Nodup ∧ (∀ b ∈ l, b < s.pool.capacity) ∧ ∀ b ∈ l, b ∉ s.held
  /-- no block is held twice -/
  held : s.held.Nodup
  inUse : 0 ≤ s.pool.inUse ∧ s.pool.inUse ≤ s.pool.capacity
  /-- while a get has a token the list is not empty -/
  token : ∀ t, (s.pc t).tokens = 1 → s.pool.head.nextIdx ≠ uint32Max
  /-- and the index it uses is one of a block -/
  inRange : ∀ t old, (s.pc t).sees = some old → old.nextIdx < s.pool.capacity
  refund : ∀ t, s.pc t ≠ .refund

/-! ## the invariant -/

/-- `old` is the head as it was after `seen` updates -/
structure Saw (p : LfPool) (updates : ℕ) (old : LfHead) (seen : ℕ) : Prop where
  le : seen ≤ updates
  gen : old.generation = BitVec.ofNat 32 seen
  same : updates = seen → p.head = old

/-- what a thread knows; a head it has loaded may be old, and then its other knowledge is void -/
def LfPoolPc.Ok (p : LfPool) (updates : ℕ) : LfPoolPc → Prop
  | .loaded _ old seen => Saw p updates old seen ∧ old.nextIdx < p.capacity
  | .read _ old next seen =>
    Saw p updates old seen ∧ old.nextIdx < p.capacity ∧
      (updates = seen → next = p.nextIdx old.nextIdx)
  | .refund => False
  | .putLoaded _ old seen => Saw p updates old seen
  | .linked b old seen => Saw p updates old seen ∧ p.nextIdx b = old.nextIdx
  | _ => True

/-- what a thread has: its block, its token, the token it owes, and its part of `in_use` -/
def LfPoolPc.share (q : LfPoolPc) : Multiset ℕ × ℕ × ℕ × ℕ := (q.hand, q.tokens, q.owed, q.used)

/-- the books of the pool, with the free list `l` and the shares `sh` of the threads -/
structure LfBooks (p : LfPool) (l out : List ℕ) (sh : Multiset ℕ × ℕ × ℕ × ℕ) : Prop where
  blocks : (l : Multiset ℕ) + (out + sh.1) = Multiset.range p.capacity
  tokens : p.blocksSem + sh.2.1 + sh.2.2.1 = l.length
  inUse : p.inUse = out.length + sh.2.2.2

structure LfPoolSys.Inv (s : LfPoolSys T) (l : List ℕ) : Prop where
  cap : s.pool.capacity < uint32Max
  free : s.pool.Free l
  books : LfBooks s.pool l s.out (∑ t, (s.pc t).share)
  gen : s.pool.head.generation = BitVec.ofNat 32 s.updates
  pcs : ∀ t, (s.pc t).Ok s.pool s.updates

section
variable {p p' : LfPool} {n : ℕ} {q : LfPoolPc}

theorem LfPoolPc.Ok.congr (h : q.Ok p n) (hh : p'.head = p.head) (hn : p'.nextIdx = p.nextIdx)
    (hc : p'.capacity = p.capacity) : q.Ok p' n := by
  have hsaw : ∀ old seen, Saw p n old seen → Saw p' n old seen :=
    fun old seen hs => ⟨hs.le, hs.gen, fun e => hh.trans (hs.same e)⟩
  cases q with
  | loaded _ old seen => exact ⟨hsaw _ _ h.1, hc ▸ h.2⟩
  | read _ old next seen => exact ⟨hsaw _ _ h.1, hc ▸ h.2.1, fun e => hn ▸ h.2.2 e⟩
  | refund => exact h
  | putLoaded b old seen => exact hsaw _ _ h
  | linked b old seen => exact ⟨hsaw _ _ h.1, hn ▸ h.2⟩
  | _ => trivial

/-- another thread links a block that is neither the first of the list nor ours -/
theorem LfPoolPc.Ok.link (h : q.Ok p n) {b x : ℕ} (hb : p.head.nextIdx ≠ b) (hq : b ∉ q.hand) :
    q.Ok { p with nextIdx := Function.update p.nextIdx b x } n := by
  have hsaw : ∀ old seen, Saw p n old seen →
      Saw { p with nextIdx := Function.update p.nextIdx b x } n old seen :=
    fun old seen hs => ⟨hs.le, hs.gen, hs.same⟩
  cases q with
  | loaded _ old seen => exact ⟨hsaw _ _ h.1, h.2⟩
  | read _ old next seen =>
    refine ⟨hsaw _ _ h.1, h.2.1, fun e => ?_⟩
    show next = Function.update p.nextIdx b x old.nextIdx
    rw [Function.update_of_ne (fun e' => hb (by rw [h.1.same e]; exact e'))]
    exact h.2.2 e
  | refund => exact h
  | putLoaded _ old seen => exact hsaw _ _ h
  | linked c old seen =>
    refine ⟨hsaw _ _ h.1, ?_⟩
    show Function.update p.nextIdx b x c = old.nextIdx
    rw [Function.update_of_ne (fun e => hq (Multiset.mem_singleton.mpr e.symm))]
    exact h.2
  | _ => trivial

/-- another thread moves the head: what was loaded is old now -/
theorem LfPoolPc.Ok.swap (h : q.Ok p n) (new : LfHead) : q.Ok { p with head := new } (n + 1) := by
  have hsaw : ∀ old seen, Saw p n old seen → Saw { p with head := new } (n + 1) old seen := by
    intro old seen hs
    exact ⟨by have := hs.le; omega, hs.gen, fun e => absurd hs.le (by omega)⟩
  cases q with
  | loaded _ old seen => exact ⟨hsaw _ _ h.1, h.2⟩
  | read _ old next seen =>
    exact ⟨hsaw _ _ h.1, h.2.1, fun e => absurd h.1.le (by omega)⟩
  | refund => exact h
  | putLoaded _ old seen => exact hsaw _ _ h
  | linked c old seen => exact ⟨hsaw _ _ h.1, h.2⟩
  | _ => trivial

end

/-- the generation tells a new head from an old one, within `2 ^ 32` updates -/
theorem Saw.current {p : LfPool} {updates seen : ℕ} {old : LfHead} (h : Saw p updates old seen)
    (hg : p.head.generation = BitVec.ofNat 32 updates) (hf : updates - seen < 2 ^ 32)
    (he : p.head = old) : updates = seen := by
  have e : BitVec.ofNat 32 updates = BitVec.ofNat 32 seen := by
    rw [← hg, he]
    exact h.gen
  have e' := congrArg BitVec.toNat e
  rw [BitVec.toNat_ofNat, BitVec.toNat_ofNat] at e'
  have hle := h.le
  omega

namespace LfPoolSys.Inv
variable {s : LfPoolSys T} {l : List ℕ}

/-- a step of thread `t`: the books are kept for any shares of the others, and so is what the others
know -/
theorem move (h : s.Inv l) (t : T) {p : LfPool} {l' out : List ℕ} {updates : ℕ} {q : LfPoolPc}
    (hc : p.capacity = s.pool.capacity) (hf : p.Free l')
    (hb : ∀ R, LfBooks s.pool l s.out ((s.pc t).share + R) → LfBooks p l' out (q.share + R))
    (hg : p.head.generation = BitVec.ofNat 32 updates) (hq : q.Ok p updates)
    (ho : ∀ u, u ≠ t → (s.pc u).Ok s.pool s.updates → (s.pc u).Ok p updates) :
    (⟨p, Function.update s.pc t q, out, updates⟩ : LfPoolSys T).Inv l' := by
  obtain ⟨R, r1, r2⟩ := sum_split LfPoolPc.share s.pc t
  refine ⟨hc ▸ h.cap, hf, ?_, hg, fun u => ?_⟩
  · show LfBooks p l' out (∑ u, (Function.update s.pc t q u).share)
    rw [r2]
    exact hb R (r1 ▸ h.books)
  · show (Function.update s.pc t q u).Ok p updates
    by_cases hu : u = t
    · rw [hu, Function.update_self]
      exact hq
    · rw [Function.update_of_ne hu]
      exact ho u hu (h.pcs u)

/-- a step of thread `t` that changes nothing but where it is -/
theorem turn (h : s.Inv l) (t : T) {q : LfPoolPc} (he : q.share = (s.pc t).share)
    (hq : q.Ok s.pool s.updates) : (s.go t q).Inv l :=
  h.move t rfl h.free (fun _ hb => he ▸ hb) h.gen hq fun _ _ ho => ho

/-- the free list of a thread with a token is not empty -/
theorem ne_nil (h : s.Inv l) {t : T} (ht : (s.pc t).tokens = 1) : l ≠ [] := by
  obtain ⟨R, r1, -⟩ := sum_split LfPoolPc.share s.pc t
  have hb := h.books.tokens
  rw [r1] at hb
  have e : ((s.pc t).share + R).2.1 = (s.pc t).tokens + R.2.1 := rfl
  rw [e, ht] at hb
  intro hl
  rw [hl] at hb
  simp only [List.length_nil] at hb
  omega

/-- every block is below the capacity -/
theorem lt_of_mem (h : s.Inv l) {b : ℕ} (hb : b ∈ l) : b < s.pool.capacity := by
  have hm : b ∈ (l : Multiset ℕ) + (s.out + (∑ t, (s.pc t).share).1) :=
    Multiset.mem_add.mpr (.inl hb)
  rw [h.books.blocks] at hm
  exact Multiset.mem_range.mp hm

/-- the head of the list, as a thread with a token loads it -/
theorem load_ok (h : s.Inv l) {t : T} (ht : (s.pc t).tokens = 1) :
    s.pool.head.nextIdx < s.pool.capacity :=
  h.lt_of_mem (h.free.head_of_ne_nil (h.ne_nil ht)).1

theorem saw (h : s.Inv l) : Saw s.pool s.updates s.pool.head s.updates :=
  ⟨Nat.le_refl _, h.gen, fun _ => rfl⟩

theorem hands (s : LfPoolSys T) : (∑ t, (s.pc t).share).1 = ∑ t, (s.pc t).hand := Prod.fst_sum

theorem nodup (h : s.Inv l) : ((l : Multiset ℕ) + s.held).Nodup := by
  have e : (l : Multiset ℕ) + s.held = Multiset.range s.pool.capacity := by
    unfold LfPoolSys.held
    rw [← hands]
    exact h.books.blocks
  rw [e]
  exact Multiset.nodup_range _

/-- the block in the hands of a thread is not free, and no other thread has it -/
theorem hand (h : s.Inv l) {t : T} {b : ℕ} (hb : b ∈ (s.pc t).hand) :
    b ∉ l ∧ b < s.pool.capacity ∧ ∀ u, u ≠ t → b ∉ (s.pc u).hand := by
  have hn := Multiset.nodup_add.mp h.nodup
  have hmem : b ∈ ∑ u, (s.pc u).hand := mem_share LfPoolPc.hand s.pc t hb
  have hheld : b ∈ s.held := Multiset.mem_add.mpr (.inr hmem)
  refine ⟨fun hl => Multiset.disjoint_left.mp hn.2.2 hl hheld, ?_, fun u hu hbu => ?_⟩
  · have hm : b ∈ (l : Multiset ℕ) + (s.out + (∑ t, (s.pc t).share).1) := by
      rw [hands]
      exact Multiset.mem_add.mpr (.inr hheld)
    rw [h.books.blocks] at hm
    exact Multiset.mem_range.mp hm
  · have hnh := (Multiset.nodup_add.mp hn.2.1).2.1
    exact hu (owner_unique LfPoolPc.hand s.pc hnh hbu hb)

/-- a block that is not free is not the head -/
theorem head_ne (h : s.Inv l) {b : ℕ} (hb : b ∉ l) (hc : b < s.pool.capacity) :
    s.pool.head.nextIdx ≠ b := by
  intro e
  have hcap := h.cap
  by_cases hl : l = []
  · have hz : blockAt s.pool.head.nextIdx = none := by
      have hfree := h.free
      rw [hl] at hfree
      exact hfree
    rw [e, blockAt_of_ne (by omega)] at hz
    exact absurd hz (Option.some_ne_none b)
  · exact hb (e ▸ (h.free.head_of_ne_nil hl).1)

/-! ## the steps -/

theorem take (h : s.Inv l) {t : T} (ht : s.pc t = .idle) (hs : s.pool.blocksSem ≠ 0) (try_ : Bool) :
    (s.take t try_).Inv l := by
  refine h.move t rfl h.free (fun R hb => ?_) h.gen trivial fun _ _ ho => ho.congr rfl rfl rfl
  rw [ht] at hb
  refine ⟨hb.blocks, ?_, hb.inUse⟩
  have e : s.pool.blocksSem + (0 + R.2.1) + (0 + R.2.2.1) = l.length := hb.tokens
  show s.pool.blocksSem - 1 + (1 + R.2.1) + (0 + R.2.2.1) = l.length
  omega

theorem put (h : s.Inv l) {t : T} (ht : s.pc t = .idle) {b : ℕ} (hb : b ∈ s.out) :
    (LfPoolSys.go { s with out := s.out.erase b } t (.putting b)).Inv l := by
  refine h.move t rfl h.free (fun R hk => ?_) h.gen trivial fun _ _ ho => ho
  rw [ht] at hk
  have hout : (s.out : Multiset ℕ) = b ::ₘ ((s.out.erase b : List ℕ) : Multiset ℕ) := by
    rw [Multiset.cons_coe, Multiset.coe_eq_coe]
    exact List.perm_cons_erase hb
  refine ⟨?_, hk.tokens, ?_⟩
  · have e : (l : Multiset ℕ) + (s.out + (0 + R.1)) = Multiset.range s.pool.capacity := hk.blocks
    show (l : Multiset ℕ) + ((s.out.erase b : List ℕ) + ({b} + R.1)) = Multiset.range s.pool.capacity
    rw [← e, hout, zero_add, ← Multiset.singleton_add b]
    ac_rfl
  · have e : s.pool.inUse = s.out.length + ((0 + R.2.2.2 : ℕ) : ℤ) := hk.inUse
    show s.pool.inUse = (s.out.erase b).length + ((1 + R.2.2.2 : ℕ) : ℤ)
    have hpos := List.length_pos_of_mem hb
    rw [e, List.length_erase_of_mem hb]
    omega

theorem link (h : s.Inv l) {t : T} {b : ℕ} {old : LfHead} {seen : ℕ}
    (ht : s.pc t = .putLoaded b old seen) :
    (LfPoolSys.go { s with pool :=
      { s.pool with nextIdx := Function.update s.pool.nextIdx b old.nextIdx } } t
      (.linked b old seen)).Inv l := by
  have hmem : b ∈ (s.pc t).hand := by
    rw [ht]
    exact Multiset.mem_singleton_self b
  obtain ⟨hbl, hbc, hbu⟩ := h.hand hmem
  have hok := h.pcs t
  rw [ht] at hok
  refine h.move t rfl (h.free.link hbl _) (fun R hb => ?_) h.gen ⟨⟨hok.le, hok.gen, hok.same⟩, ?_⟩
    fun u hu ho => ho.link (h.head_ne hbl hbc) (hbu u hu)
  · rw [ht] at hb
    exact ⟨hb.blocks, hb.tokens, hb.inUse⟩
  · exact Function.update_self ..

/-- a get takes the first block -/
theorem pop (h : s.Inv l) {t : T} {try_ : Bool} {old : LfHead} {next seen : ℕ}
    (ht : s.pc t = .read try_ old next seen) (hf : s.updates - seen < 2 ^ 32)
    (he : s.pool.head = old) :
    ∃ l', (s.swap t ⟨next, old.generation + 1⟩ (.popped old.nextIdx)).Inv l' := by
  have hok := h.pcs t
  rw [ht] at hok
  obtain ⟨hsaw, -, hnext⟩ := hok
  have hcur : s.updates = seen := hsaw.current h.gen hf he
  have hl : l ≠ [] := h.ne_nil (t := t) (by rw [ht]; rfl)
  obtain ⟨l', rfl, hfree⟩ := h.free.pop hl (old.generation + 1)
  refine ⟨l', h.move t rfl ?_ (fun R hb => ?_) ?_ trivial fun _ _ ho => ho.swap _⟩
  · rw [hnext hcur, ← he]
    rw [← he] at hfree
    exact hfree
  · rw [ht] at hb
    refine ⟨?_, ?_, hb.inUse⟩
    · have e : ((s.pool.head.nextIdx :: l' : List ℕ) : Multiset ℕ) + (s.out + (0 + R.1)) =
        Multiset.range s.pool.capacity := hb.blocks
      show (l' : Multiset ℕ) + (s.out + ({old.nextIdx} + R.1)) = Multiset.range s.pool.capacity
      rw [← e, ← Multiset.cons_coe, ← Multiset.singleton_add, he, zero_add]
      ac_rfl
    · have e : s.pool.blocksSem + (1 + R.2.1) + (0 + R.2.2.1) = l'.length + 1 := hb.tokens
      show s.pool.blocksSem + (0 + R.2.1) + (0 + R.2.2.1) = l'.length
      omega
  · show old.generation + 1 = BitVec.ofNat 32 (s.updates + 1)
    rw [hsaw.gen, ← hcur]
    exact (BitVec.ofNat_add ..).symm

/-- a put makes its block the first one -/
theorem push (h : s.Inv l) {t : T} {b : ℕ} {old : LfHead} {seen : ℕ}
    (ht : s.pc t = .linked b old seen) (he : s.pool.head = old) :
    (s.swap t ⟨b, old.generation + 1⟩ .pushed).Inv (b :: l) := by
  have hmem : b ∈ (s.pc t).hand := by
    rw [ht]
    exact Multiset.mem_singleton_self b
  have hbc := (h.hand hmem).2.1
  have hok := h.pcs t
  rw [ht] at hok
  have hcap := h.cap
  refine h.move t rfl (h.free.push ?_ (by omega) _) (fun R hb => ?_) ?_ trivial
    fun _ _ ho => ho.swap _
  · rw [he]
    exact hok.2
  · rw [ht] at hb
    refine ⟨?_, ?_, hb.inUse⟩
    · have e : (l : Multiset ℕ) + (s.out + ({b} + R.1)) = Multiset.range s.pool.capacity := hb.blocks
      show ((b :: l : List ℕ) : Multiset ℕ) + (s.out + (0 + R.1)) = Multiset.range s.pool.capacity
      rw [← e, ← Multiset.cons_coe, ← Multiset.singleton_add, zero_add]
      ac_rfl
    · have e : s.pool.blocksSem + (0 + R.2.1) + (0 + R.2.2.1) = l.length := hb.tokens
      show s.pool.blocksSem + (0 + R.2.1) + (1 + R.2.2.1) = l.length + 1
      omega
  · show old.generation + 1 = BitVec.ofNat 32 (s.updates + 1)
    rw [← he, h.gen]
    exact (BitVec.ofNat_add ..).symm

/-- a get raises `in_use` and returns -/
theorem count_get (h : s.Inv l) {t : T} {b : ℕ} (ht : s.pc t = .popped b) :
    (LfPoolSys.go { s with pool := { s.pool with inUse := s.pool.inUse + 1 }, out := b :: s.out }
      t .idle).Inv l := by
  refine h.move t rfl h.free (fun R hb => ?_) h.gen trivial fun _ _ ho => ho.congr rfl rfl rfl
  rw [ht] at hb
  refine ⟨?_, hb.tokens, ?_⟩
  · have e : (l : Multiset ℕ) + (s.out + ({b} + R.1)) = Multiset.range s.pool.capacity := hb.blocks
    show (l : Multiset ℕ) + ((b :: s.out : List ℕ) + (0 + R.1)) = Multiset.range s.pool.capacity
    rw [← e, ← Multiset.cons_coe, ← Multiset.singleton_add, zero_add]
    ac_rfl
  · have e : s.pool.inUse = s.out.length + ((0 + R.2.2.2 : ℕ) : ℤ) := hb.inUse
    show s.pool.inUse + 1 = (b :: s.out).length + ((0 + R.2.2.2 : ℕ) : ℤ)
    rw [e, List.length_cons]
    omega

/-- a put lowers it -/
theorem count_put (h : s.Inv l) {t : T} (ht : s.pc t = .pushed) :
    (LfPoolSys.go { s with pool := { s.pool with inUse := s.pool.inUse - 1 } } t .counted).Inv l := by
  refine h.move t rfl h.free (fun R hb => ?_) h.gen trivial fun _ _ ho => ho.congr rfl rfl rfl
  rw [ht] at hb
  refine ⟨hb.blocks, hb.tokens, ?_⟩
  have e : s.pool.inUse = s.out.length + ((1 + R.2.2.2 : ℕ) : ℤ) := hb.inUse
  show s.pool.inUse - 1 = s.out.length + ((0 + R.2.2.2 : ℕ) : ℤ)
  rw [e]
  omega

theorem post (h : s.Inv l) {t : T} (ht : s.pc t = .counted) : (s.post t).Inv l := by
  refine h.move t rfl h.free (fun R hb => ?_) h.gen trivial fun _ _ ho => ho.congr rfl rfl rfl
  rw [ht] at hb
  refine ⟨hb.blocks, ?_, hb.inUse⟩
  have e : s.pool.blocksSem + (0 + R.2.1) + (1 + R.2.2.1) = l.length := hb.tokens
  show s.pool.blocksSem + 1 + (0 + R.2.1) + (0 + R.2.2.1) = l.length
  omega

end LfPoolSys.Inv

theorem LfPoolSys.step_inv (s : LfPoolSys T) (a : LfPoolAct T) (s' : LfPoolSys T)
    (h : ∃ l, s.Inv l) (hf : s.Fresh a) (hs : s.step a = some s') : ∃ l, s'.Inv l := by
  obtain ⟨l, h⟩ := h
  cases a with
  | tryGet t =>
    simp only [LfPoolSys.step] at hs
    split_ifs at hs with ht hz
    · exact ⟨l, Option.some.inj hs ▸ h⟩
    · exact ⟨l, Option.some.inj hs ▸ h.take ht hz true⟩
  | waitGet t =>
    simp only [LfPoolSys.step, Option.ite_none_right_eq_some, Option.some.injEq] at hs
    obtain ⟨⟨ht, hz⟩, rfl⟩ := hs
    exact ⟨l, h.take ht hz false⟩
  | put t b =>
    simp only [LfPoolSys.step, Option.ite_none_right_eq_some, Option.some.injEq] at hs
    obtain ⟨⟨ht, hb⟩, rfl⟩ := hs
    exact ⟨l, h.put ht hb⟩
  | load t =>
    simp only [LfPoolSys.step] at hs
    split at hs
    · rename_i try_ ht
      have htok : (s.pc t).tokens = 1 := by rw [ht]; rfl
      exact ⟨l, Option.some.inj hs ▸ h.turn t (by rw [ht]; rfl) ⟨h.saw, h.load_ok htok⟩⟩
    · rename_i b ht
      exact ⟨l, Option.some.inj hs ▸ h.turn t (by rw [ht]; rfl) h.saw⟩
    · cases hs
  | access t =>
    simp only [LfPoolSys.step] at hs
    have hok := h.pcs t
    split at hs
    · rename_i try_ old seen ht
      rw [ht] at hok
      have hcap := h.cap
      -- the head it has seen is a block
      have hne : old.nextIdx ≠ uint32Max := by
        have := hok.2
        omega
      rw [if_neg (fun hc => hne hc.2)] at hs
      exact ⟨l, Option.some.inj hs ▸ h.turn t (by rw [ht]; rfl) ⟨hok.1, hok.2, fun _ => rfl⟩⟩
    · rename_i b old seen ht
      exact ⟨l, Option.some.inj hs ▸ h.link ht⟩
    · cases hs
  | cas t ok =>
    simp only [LfPoolSys.step] at hs
    split at hs
    · rename_i try_ old next seen ht
      have hseen : s.updates - seen < 2 ^ 32 := hf seen (by rw [ht]; rfl)
      split_ifs at hs with he
      · obtain ⟨l', h'⟩ := h.pop ht hseen he.2
        exact ⟨l', Option.some.inj hs ▸ h'⟩
      · have htok : (s.pc t).tokens = 1 := by rw [ht]; rfl
        exact ⟨l, Option.some.inj hs ▸ h.turn t (by rw [ht]; rfl) ⟨h.saw, h.load_ok htok⟩⟩
    · rename_i b old seen ht
      split_ifs at hs with he
      · exact ⟨b :: l, Option.some.inj hs ▸ h.push ht he.2⟩
      · exact ⟨l, Option.some.inj hs ▸ h.turn t (by rw [ht]; rfl) h.saw⟩
    · cases hs
  | count t =>
    simp only [LfPoolSys.step] at hs
    split at hs
    · rename_i b ht
      exact ⟨l, Option.some.inj hs ▸ h.count_get ht⟩
    · rename_i ht
      exact ⟨l, Option.some.inj hs ▸ h.count_put ht⟩
    · cases hs
  | post t =>
    simp only [LfPoolSys.step] at hs
    split at hs
    · rename_i ht
      exact ⟨l, Option.some.inj hs ▸ h.post ht⟩
    · rename_i ht
      have hok := h.pcs t
      rw [ht] at hok
      exact hok.elim
    · cases hs

theorem LfPoolSys.init_inv {blockSize capacity : ℕ} {malloc semInit : Bool} {p : LfPool}
    (hp : lfPoolInit blockSize capacity malloc semInit = some p) :
    (LfPoolSys.init p : LfPoolSys T).Inv (List.range capacity) := by
  have hfree := lfPoolInit_free hp
  obtain ⟨hc, hm, rfl⟩ := lfPoolInit_some hp
  refine ⟨hm, hfree, ?_, rfl, fun _ => trivial⟩
  have hz : (∑ _t : T, LfPoolPc.idle.share) = 0 := Finset.sum_const_zero
  show LfBooks _ _ [] (∑ _t : T, LfPoolPc.idle.share)
  rw [hz]
  refine ⟨?_, ?_, rfl⟩
  · show ((List.range capacity : List ℕ) : Multiset ℕ) + (0 + 0) = Multiset.range capacity
    rw [add_zero, add_zero]
    rfl
  · show capacity + 0 + 0 = (List.range capacity).length
    rw [List.length_range]
    rfl

/-- what counts as used is in somebody's hands, or in the list without its token -/
theorem LfPoolPc.used_le (q : LfPoolPc) : q.used ≤ Multiset.card q.hand + q.owed := by
  cases q <;> simp [LfPoolPc.used, LfPoolPc.hand, LfPoolPc.owed]

theorem LfPoolSys.Inv.safe {s : LfPoolSys T} {l : List ℕ} (h : s.Inv l) : s.Safe := by
  have hn := Multiset.nodup_add.mp h.nodup
  refine ⟨⟨l, h.free, hn.1, fun b => h.lt_of_mem, fun b hb hh => ?_⟩, hn.2.1, ⟨?_, ?_⟩, ?_, ?_, ?_⟩
  · exact Multiset.disjoint_left.mp hn.2.2 hb hh
  · rw [h.books.inUse]
    omega
  · have hblocks := congrArg Multiset.card h.books.blocks
    have htok := h.books.tokens
    have huse := h.books.inUse
    have e1 : (∑ t, (s.pc t).share).2.2.2 = ∑ t, (s.pc t).used := by
      rw [Prod.snd_sum, Prod.snd_sum, Prod.snd_sum]
      rfl
    have e2 : (∑ t, (s.pc t).share).2.2.1 = ∑ t, (s.pc t).owed := by
      rw [Prod.snd_sum, Prod.snd_sum, Prod.fst_sum]
      rfl
    have hle : ∑ t, (s.pc t).used ≤ ∑ t, (Multiset.card (s.pc t).hand + (s.pc t).owed) :=
      Finset.sum_le_sum fun t _ => (s.pc t).used_le
    rw [Finset.sum_add_distrib] at hle
    rw [LfPoolSys.Inv.hands, Multiset.card_add, Multiset.card_add, Multiset.coe_card,
      Multiset.coe_card, Multiset.card_range, Multiset.card_sum] at hblocks
    rw [e1] at huse
    rw [e2] at htok
    omega
  · intro t ht
    exact (h.free.head_of_ne_nil (h.ne_nil ht)).2
  · intro t old hsees
    have hok := h.pcs t
    cases hpc : s.pc t with
    | loaded try_ old' seen =>
      rw [hpc] at hok hsees
      cases hsees
      exact hok.2
    | read try_ old' next seen =>
      rw [hpc] at hok hsees
      cases hsees
      exact hok.2.1
    | _ =>
      rw [hpc] at hsees
      cases hsees
  · intro t ht
    have hok := h.pcs t
    rw [ht] at hok
    exact hok

/-- **Safety of the lock-free pool.**  In every state of every run in which no compare-exchange comes
`2 ^ 32` updates or more after its load of `head`, the pool is safe. -/
theorem lfPool_safe (blockSize capacity : ℕ) (malloc semInit : Bool) (p : LfPool)
    (hp : lfPoolInit blockSize capacity malloc semInit = some p) (l : List (LfPoolAct T))
    (hf : Along LfPoolSys.step LfPoolSys.Fresh (LfPoolSys.init p) l) :
    Always LfPoolSys.step LfPoolSys.Safe (LfPoolSys.init p) l :=
  always_of_along (I := fun s : LfPoolSys T => ∃ l, s.Inv l) (fun _ ⟨_, h⟩ => h.safe)
    LfPoolSys.step_inv ⟨_, LfPoolSys.init_inv hp⟩ hf

end

/-- one get overtakes the other between its load and its compare-exchange, and a block comes back -/
def overtaken : List (LfPoolAct Bool) :=
  [.waitGet true, .load true, .access true, .tryGet false, .load false, .access false, .cas false true,
   .count false, .cas true true, .access true, .cas true true, .count true, .put false 0, .load false,
   .access false, .cas false true, .count false, .post false]

theorem lfPool_safe_overtaken : ∃ p, lfPoolInit 64 2 true true = some p ∧
    (exec LfPoolSys.step (LfPoolSys.init p) overtaken).map (fun s => s.out) = some [1] ∧
    Always LfPoolSys.step LfPoolSys.Safe (LfPoolSys.init p) overtaken := by
  refine ⟨_, rfl, by decide, ?_⟩
  exact lfPool_safe 64 2 true true _ rfl overtaken (by decide)

end QuicVpn
