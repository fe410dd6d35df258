import QuicVpn.Common.Basic
import QuicVpn.Common.PoolSys

/-!
# The end of a block pool (`pool_destroy`)

`pool_destroy` walks the free list and gives each block back to `free`.  It knows no other block: what
is checked out at that time is lost, and the warning is about it.

* `poolDestroy`          the function, with the accesses to blocks and the calls of `free`;
* `PoolSys.Kept`         a block that was ever allocated is in the free list, handed out, or still in
                         the hands of the thread that allocates it;
* `FreeOk`               nothing is read or freed after it was freed;
* `poolDestroy_frees`    after any use of the pool, every block that is not checked out is freed once.
-/

set_option linter.unusedSectionVars false

namespace QuicVpn
open Conc

/-- an access of `pool_destroy` to a block, or to the pool -/
inductive FreeEv where
  | read (b : Blk)
  | free (b : Blk)
  | freePool
  deriving DecidableEq, Repr

/-- `while (b != NULL)`: the next block is read before the block is freed -/
def poolDestroyLoop (next : Blk → Option Blk) : ℕ → Option Blk → Option (List FreeEv)
  | _, none => some []
  | 0, some _ => none
  | fuel + 1, some b => (poolDestroyLoop next fuel (next b)).map fun l => .read b :: .free b :: l

/-- `pool_destroy`: its code, whether it warns, and what it does to the heap -/
def poolDestroy (fuel : ℕ) : Option Pool → Option (ℤ × Bool × List FreeEv)
  | none => some (einval, false, [])
  | some p =>
    (poolDestroyLoop p.next fuel p.freeList).map fun l => (0, decide (p.inUse ≠ 0), l ++ [.freePool])

/-- nothing is touched after it was freed -/
def FreeOk (l : List FreeEv) : Prop :=
  l.Pairwise fun e e' => e ≠ .freePool ∧ ∀ b, e = .free b → e' ≠ .read b ∧ e' ≠ .free b

/-! ## the walk -/

/-- what the loop does on a list of blocks -/
def freeAll : List Blk → List FreeEv
  | [] => []
  | b :: l => .read b :: .free b :: freeAll l

theorem poolDestroyLoop_chain {next : Blk → Option Blk} {h : Option Blk} {l : List Blk}
    (hc : Chain next h l) {fuel : ℕ} (hf : l.length ≤ fuel) :
    poolDestroyLoop next fuel h = some (freeAll l) := by
  induction l generalizing h fuel with
  | nil =>
    obtain rfl : h = none := hc
    cases fuel <;> rfl
  | cons b l ih =>
    obtain ⟨rfl, hr⟩ := hc
    obtain ⟨k, rfl⟩ := Nat.exists_eq_add_of_le' hf
    rw [List.length_cons, ← Nat.add_assoc]
    unfold poolDestroyLoop
    rw [ih hr (Nat.le_add_left _ _)]
    rfl

theorem mem_freeAll {l : List Blk} {b : Blk} {e : FreeEv} (he : e = .read b ∨ e = .free b) :
    e ∈ freeAll l ↔ b ∈ l := by
  induction l with
  | nil => exact iff_of_false List.not_mem_nil List.not_mem_nil
  | cons c l ih =>
    rw [freeAll, List.mem_cons, List.mem_cons, List.mem_cons, ih]
    rcases he with rfl | rfl <;> simp

theorem count_freeAll (l : List Blk) (b : Blk) : (freeAll l).count (.free b) = l.count b := by
  induction l with
  | nil => rfl
  | cons c l ih =>
    rw [freeAll, List.count_cons, List.count_cons, List.count_cons, ih]
    simp

theorem freeAll_ok {l : List Blk} (h : l.Nodup) : FreeOk (freeAll l ++ [.freePool]) := by
  induction l with
  | nil => exact List.pairwise_singleton _ _
  | cons c l ih =>
    obtain ⟨hc, hn⟩ := List.nodup_cons.mp h
    have hread : ∀ e ∈ freeAll l ++ [.freePool], ∀ b, FreeEv.free c = .free b → e ≠ .read b ∧ e ≠ .free b := by
      rintro e he b ⟨⟩
      rcases List.mem_append.mp he with he | he
      · exact ⟨fun hr => hc ((mem_freeAll (.inl hr)).mp he), fun hr => hc ((mem_freeAll (.inr hr)).mp he)⟩
      · rw [List.mem_singleton.mp he]
        exact ⟨FreeEv.noConfusion, FreeEv.noConfusion⟩
    refine List.pairwise_cons.mpr ⟨fun e _ => ⟨FreeEv.noConfusion, fun b hb => FreeEv.noConfusion hb⟩, ?_⟩
    exact List.pairwise_cons.mpr ⟨fun e he => ⟨FreeEv.noConfusion, hread e he⟩, ih hn⟩

/-! ## no block is lost before -/

section
variable {T : Type} [Fintype T] [DecidableEq T]

/-- the block is in the free list -/
def Pool.Listed (p : Pool) (b : Blk) : Prop := ∃ free, Chain p.next p.freeList free ∧ b ∈ free

structure PoolSys.Kept (s : PoolSys T) : Prop where
  nodup : s.heap.Nodup
  kept : ∀ b ∈ s.heap, s.pool.Listed b ∨ b ∈ s.out ∨ ∃ t, s.pc t = .allocated (some b)

/-- what a get takes from the free list is what it returns -/
theorem poolTryGetLocked_listed {p p' : Pool} {g : Got} (hg : poolTryGetLocked p = (g, p')) {b : Blk}
    (h : p.Listed b) : p'.Listed b ∨ g = .block b := by
  obtain ⟨free, hc, hb⟩ := h
  unfold poolTryGetLocked at hg
  cases hf : p.freeList with
  | none =>
    rw [hf] at hc
    rw [hc.nil_of_none] at hb
    exact absurd hb List.not_mem_nil
  | some c =>
    rw [hf] at hg hc
    cases hg
    obtain ⟨free', rfl, hr⟩ := hc.pop
    rcases List.mem_cons.mp hb with rfl | hb
    · exact .inr rfl
    · exact .inl ⟨free', hr, hb⟩

section
variable {s : PoolSys T} {t : T}

/-- a thread that was not about to return a new block goes on -/
theorem PoolSys.Kept.goto (h : s.Kept) (ht : ∀ b, s.pc t ≠ .allocated (some b)) {p : Pool} {out : List Blk}
    (q : PoolPc) (hp : ∀ b, s.pool.Listed b → p.Listed b ∨ b ∈ out) (ho : ∀ b ∈ s.out, b ∈ out) :
    ({ s with pool := p, pc := Function.update s.pc t q, out := out } : PoolSys T).Kept := by
  refine ⟨h.nodup, fun b hb => ?_⟩
  rcases h.kept b hb with hl | hout | ⟨u, hu⟩
  · exact (hp b hl).imp_right .inl
  · exact .inr (.inl (ho b hout))
  · have hne : u ≠ t := fun e => ht b (e ▸ hu)
    exact .inr (.inr ⟨u, (Function.update_of_ne hne ..).trans hu⟩)

/-- the first section of a get -/
theorem PoolSys.Kept.afterGet (h : s.Kept) (ht : ∀ b, s.pc t ≠ .allocated (some b)) (full : PoolPc) :
    (s.afterGet t full (poolTryGetLocked s.pool)).Kept := by
  cases hg : poolTryGetLocked s.pool with
  | mk g p =>
    have hl : ∀ b, s.pool.Listed b → p.Listed b ∨ g = .block b := fun b => poolTryGetLocked_listed hg
    cases g with
    | block c =>
      refine h.goto ht .idle (fun b hb => (hl b hb).imp_right fun e => ?_) fun b hb =>
        List.mem_cons_of_mem _ hb
      exact Got.block.inj e ▸ List.mem_cons_self
    | full => exact h.goto ht full (fun b hb => (hl b hb).imp_right fun e => by cases e) fun b hb => hb
    | reserved => exact h.goto ht .reserved (fun b hb => (hl b hb).imp_right fun e => by cases e) fun b hb => hb

theorem PoolSys.Kept.signal {w : Option T} (h : s.Kept) (hw : SignalOk s.pc w) :
    ({ s with pc := signal s.pc w } : PoolSys T).Kept := by
  cases w with
  | none => exact h
  | some t =>
    have ht : s.pc t = .sleeping := hw
    refine h.goto (fun b e => ?_) .signalled (fun b hb => .inl hb) fun b hb => hb
    rw [ht] at e
    cases e

end

/-- a block that is put is in the free list, and what was there stays -/
theorem PoolSys.Inv.put_listed {cap : ℕ} {s : PoolSys T} (hi : s.Inv cap) {c : Blk} (hout : c ∈ s.out)
    {p : Pool} (hq : poolPut s.pool c = some p) :
    p.Listed c ∧ ∀ b, s.pool.Listed b → p.Listed b := by
  obtain ⟨free, hfree⟩ := hi.2.2
  have hcf : c ∉ free := by
    have hn := (Multiset.nodup_add.mp (Multiset.nodup_add.mp hfree.nodup).1).2.2
    have hco : c ∈ (Share.held s.out + ∑ u, (s.pc u).share).1 := by
      rw [PoolSys.out_sum]
      exact hout
    exact fun hm => Multiset.disjoint_left.mp hn hm hco
  have hpush := hfree.chain.push hcf
  unfold poolPut at hq
  split at hq
  · cases hq
  · cases hq
    refine ⟨⟨c :: free, hpush, List.mem_cons_self⟩, ?_⟩
    rintro b ⟨free', hc', hb⟩
    rw [hc'.unique hfree.chain] at hb
    exact ⟨c :: free, hpush, List.mem_cons_of_mem _ hb⟩

theorem PoolSys.step_kept {cap : ℕ} {s s' : PoolSys T} {a : PoolAct T} (hi : s.Inv cap) (h : s.Kept)
    (hs : s.step a = some s') : s'.Kept := by
  cases a with
  | tryGet t =>
    simp only [PoolSys.step, Option.ite_none_right_eq_some, Option.some.injEq] at hs
    obtain ⟨hpc, rfl⟩ := hs
    exact h.afterGet (fun b e => by rw [hpc] at e; cases e) .idle
  | waitGet t =>
    simp only [PoolSys.step, Option.ite_none_right_eq_some, Option.some.injEq] at hs
    obtain ⟨hpc, rfl⟩ := hs
    rw [poolWaitGetLocked_eq]
    exact h.afterGet (fun b e => by rw [hpc] at e; cases e) .sleeping
  | wake t =>
    simp only [PoolSys.step, Option.ite_none_right_eq_some, Option.some.injEq] at hs
    obtain ⟨hpc, rfl⟩ := hs
    rw [poolWaitGetLocked_eq]
    refine h.afterGet (fun b e => ?_) .sleeping
    rcases hpc with hpc | hpc <;> rw [hpc] at e <;> cases e
  | alloc t r =>
    simp only [PoolSys.step, Option.ite_none_right_eq_some, Option.some.injEq] at hs
    obtain ⟨⟨hpc, hfresh⟩, rfl⟩ := hs
    have hk := h.goto (t := t) (fun b e => by rw [hpc] at e; cases e) (.allocated r)
      (fun b hb => .inl hb) fun b hb => hb
    cases r with
    | none => exact hk
    | some c =>
      refine ⟨List.nodup_cons.mpr ⟨hfresh c rfl, h.nodup⟩, List.forall_mem_cons.mpr ⟨?_, hk.kept⟩⟩
      exact .inr (.inr ⟨t, Function.update_self ..⟩)
  | finish t =>
    simp only [PoolSys.step] at hs
    split at hs
    · rename_i c hpc
      cases hs
      refine ⟨h.nodup, fun b hb => ?_⟩
      rcases h.kept b hb with hl | hout | ⟨u, hu⟩
      · exact .inl hl
      · exact .inr (.inl (List.mem_cons_of_mem _ hout))
      · by_cases hut : u = t
        · rw [hut, hpc] at hu
          exact .inr (.inl (Option.some.inj (PoolPc.allocated.inj hu) ▸ List.mem_cons_self))
        · exact .inr (.inr ⟨u, (Function.update_of_ne hut ..).trans hu⟩)
    · rename_i hpc
      cases hs
      exact h.goto (fun b e => by rw [hpc] at e; cases e) .idle (fun b hb => .inl hb) fun b hb => hb
    · cases hs
  | put c w =>
    simp only [PoolSys.step] at hs
    split at hs
    · rename_i hc
      obtain ⟨hout, hw⟩ := hc
      cases hq : poolPut s.pool c with
      | none =>
        rw [hq] at hs
        cases hs
        exact ⟨h.nodup, h.kept⟩
      | some p =>
        rw [hq] at hs
        cases hs
        have hlist := hi.put_listed hout hq
        have hk : ({ s with pool := p, out := s.out.erase c } : PoolSys T).Kept := by
          refine ⟨h.nodup, fun b hb => ?_⟩
          rcases h.kept b hb with hl | ho | hpc
          · exact .inl (hlist.2 b hl)
          · by_cases hbc : b = c
            · rw [hbc]
              exact .inl hlist.1
            · exact .inr (.inl ((List.mem_erase_of_ne hbc).mpr ho))
          · exact .inr (.inr hpc)
        exact hk.signal hw
    · cases hs

/-- **The end of a pool.**  After any use of the pool by any threads, with none of them inside it,
`pool_destroy` ends, touches nothing that it has freed, and frees every block that was ever allocated
and is not checked out, once.  The blocks that are checked out it neither frees nor touches, and it warns
just when there are any. -/
theorem poolDestroy_frees (blockSize cap : ℕ) (p : Pool) (hp : poolInit blockSize cap = some p)
    (l : List (PoolAct T)) (s : PoolSys T) (hs : exec PoolSys.step (PoolSys.init p) l = some s)
    (hidle : ∀ t, s.pc t = .idle) : ∃ evs,
    (∀ fuel ≥ s.heap.length, poolDestroy fuel (some s.pool) = some (0, decide (s.out ≠ []), evs)) ∧
    FreeOk evs ∧ (∀ b, evs.count (.free b) = if b ∈ s.heap ∧ b ∉ s.out then 1 else 0) ∧
    ∀ b ∈ s.out, b ∈ s.heap ∧ .read b ∉ evs := by
  have hboth : s.Inv cap ∧ s.Kept := exec_inv (I := fun s : PoolSys T => s.Inv cap ∧ s.Kept)
    (fun _ _ _ h hst => ⟨PoolSys.step_inv _ _ _ h.1 hst, PoolSys.step_kept h.1 h.2 hst⟩)
    ⟨PoolSys.init_inv hp, List.nodup_nil, fun b hb => absurd hb List.not_mem_nil⟩ hs
  obtain ⟨⟨-, -, free, hi⟩, hk⟩ := hboth
  rw [PoolSys.resv_sum, PoolSys.out_sum] at hi
  have hn := Multiset.nodup_add.mp (Multiset.nodup_add.mp hi.nodup).1
  have hfn : free.Nodup := hn.1
  have hdisj : ∀ b ∈ free, b ∉ s.out := fun b hb hb' => Multiset.disjoint_left.mp hn.2.2 hb hb'
  have hheap : ∀ b, b ∈ free ∨ b ∈ s.out → b ∈ s.heap := by
    intro b hb
    apply hi.heap
    rw [Multiset.mem_add, Multiset.mem_add]
    exact .inl hb
  have hmem : ∀ b, b ∈ free ↔ b ∈ s.heap ∧ b ∉ s.out := by
    intro b
    refine ⟨fun hb => ⟨hheap b (.inl hb), hdisj b hb⟩, fun ⟨hb, hno⟩ => ?_⟩
    rcases hk.kept b hb with ⟨free', hc, hbf⟩ | ho | ⟨t, ht⟩
    · rw [← hc.unique hi.chain]
      exact hbf
    · exact absurd ho hno
    · rw [hidle t] at ht
      cases ht
  have hlen : free.length ≤ s.heap.length :=
    (hfn.subperm fun b hb => hheap b (.inl hb)).length_le
  have huse : s.pool.inUse = s.out.length := hi.inUse
  have hwarn : decide (s.pool.inUse ≠ 0) = decide (s.out ≠ []) := by
    rw [decide_eq_decide, huse, not_iff_not, Int.natCast_eq_zero, List.length_eq_zero_iff]
  refine ⟨freeAll free ++ [.freePool], fun fuel hf => ?_, freeAll_ok hfn, fun b => ?_, fun b hb =>
    ⟨hheap b (.inr hb), fun hr => ?_⟩⟩
  · unfold poolDestroy
    dsimp only
    rw [poolDestroyLoop_chain hi.chain (hlen.trans hf), hwarn]
    rfl
  · rw [List.count_append, count_freeAll, List.count_singleton, hfn.count]
    simp only [hmem b]
    rfl
  · rcases List.mem_append.mp hr with hr | hr
    · exact hdisj b ((mem_freeAll (.inl rfl)).mp hr) hb
    · cases List.mem_singleton.mp hr

end

/-- two blocks are allocated and one comes back: the other is lost -/
theorem poolDestroy_frees_one :
    ∃ s, exec PoolSys.step (PoolSys.init (T := Fin 2) ⟨64, 2, 0, 0, none, fun _ => none⟩)
        [.tryGet 0, .alloc 0 (some 7), .finish 0, .waitGet 1, .alloc 1 (some 8), .finish 1, .put 7 none]
        = some s ∧ s.heap = [8, 7] ∧
      ∃ evs, poolDestroy 2 (some s.pool) = some (0, true, evs) ∧
        evs.count (.free 7) = 1 ∧ evs.count (.free 8) = 0 := by
  refine ⟨_, rfl, rfl, ?_⟩
  obtain ⟨evs, hrun, -, hcount, -⟩ :=
    poolDestroy_frees (T := Fin 2) 64 2 ⟨64, 2, 0, 0, none, fun _ => none⟩ rfl
      [.tryGet 0, .alloc 0 (some 7), .finish 0, .waitGet 1, .alloc 1 (some 8), .finish 1, .put 7 none] _ rfl
      (by decide)
  exact ⟨evs, hrun 2 (by decide), (hcount 7).trans rfl, (hcount 8).trans rfl⟩

end QuicVpn
