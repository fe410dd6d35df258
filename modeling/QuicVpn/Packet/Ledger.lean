import QuicVpn.Packet.Buffers

/-!
# The ledger of the packet buffers

`Ledger pool heap home trace tot`: the two pools are accounted for by the shares `tot`, the headers
of the blocks that are out point to their pool, and the trace agrees with what is out.  There is one
rule for each section of the pools, stated for the thread that runs it and the rest of the shares.
-/

set_option linter.unusedSectionVars false

namespace QuicVpn
open Conc

structure Ledger (pool : PoolId → Pool) (heap : PoolId → List Blk) (home : Blk → PoolId)
    (trace : List (Ev Blk)) (tot : PoolId → Share) : Prop where
  ok : ∀ i, PoolOk (pool i) (tot i) (heap i)
  apart : ∀ b ∈ heap .send, b ∉ heap .recv
  home : ∀ i, ∀ b ∈ (tot i).1, home b = i
  held : Held trace ((tot .send).1 + (tot .recv).1)

/-- the other pool -/
def PoolId.other : PoolId → PoolId
  | .send => .recv
  | .recv => .send

section
variable {pool : PoolId → Pool} {heap : PoolId → List Blk} {home : Blk → PoolId}
  {trace : List (Ev Blk)} {tot : PoolId → Share} {i : PoolId} {b : Blk} {p : Pool} {R : Share}

/-- what is out of the two pools, seen from one of them -/
theorem out_comm (tot : PoolId → Share) (i : PoolId) :
    (tot .send).1 + (tot .recv).1 = (tot i).1 + (tot i.other).1 := by
  cases i with
  | send => rfl
  | recv => exact add_comm _ _

theorem PoolId.other_ne (i : PoolId) : i.other ≠ i := by
  cases i with
  | send => exact fun e => by cases e
  | recv => exact fun e => by cases e

theorem PoolId.eq_or_other (i j : PoolId) : j = i ∨ j = i.other := by
  cases i <;> cases j <;> simp [PoolId.other]

/-- no block belongs to both pools -/
theorem Ledger.not_mem_other (h : Ledger pool heap home trace tot) (hb : b ∈ heap i) :
    b ∉ (tot i.other).1 := by
  intro hm
  have hm' := (h.ok i.other).mem_heap hm
  cases i with
  | send => exact h.apart b hb hm'
  | recv => exact h.apart b hm' hb

/-- replacing the share of one pool, with `home` and `trace` brought up to date -/
theorem Ledger.update (h : Ledger pool heap home trace tot) {sh : Share} {H : List Blk}
    {home' : Blk → PoolId} {trace' : List (Ev Blk)} (hp : PoolOk p sh H)
    (hH : ∀ c ∈ H, c ∈ heap i ∨ c ∉ heap .send ∧ c ∉ heap .recv)
    (hhome : ∀ c ∈ sh.1, home' c = i)
    (hother : ∀ c ∈ (tot i.other).1, home' c = home c)
    (hheld : Held trace' (sh.1 + (tot i.other).1)) :
    Ledger (Function.update pool i p) (Function.update heap i H) home' trace'
      (Function.update tot i sh) := by
  have hne := PoolId.other_ne i
  refine ⟨fun j => ?_, ?_, fun j c hc => ?_, ?_⟩
  · rcases PoolId.eq_or_other i j with rfl | rfl
    · simp only [Function.update_self]
      exact hp
    · simp only [Function.update_of_ne hne]
      exact h.ok i.other
  · cases i with
    | send =>
      intro c hc hc'
      rw [Function.update_self] at hc
      rw [Function.update_of_ne (fun e => by cases e)] at hc'
      rcases hH c hc with hc | ⟨_, hc⟩
      · exact h.apart c hc hc'
      · exact hc hc'
    | recv =>
      intro c hc hc'
      rw [Function.update_self] at hc'
      rw [Function.update_of_ne (fun e => by cases e)] at hc
      rcases hH c hc' with hc' | ⟨hc', _⟩
      · exact h.apart c hc hc'
      · exact hc' hc
  · rcases PoolId.eq_or_other i j with rfl | rfl
    · rw [Function.update_self] at hc
      exact hhome c hc
    · rw [Function.update_of_ne hne] at hc
      rw [hother c hc]
      exact h.home i.other c hc
  · rw [out_comm _ i, Function.update_self, Function.update_of_ne hne]
    exact hheld

/-- a section in which nothing is handed out or put back -/
theorem Ledger.same_out (h : Ledger pool heap home trace tot) {sh : Share} {H : List Blk}
    (hp : PoolOk p sh H) (hH : ∀ c ∈ H, c ∈ heap i ∨ c ∉ heap .send ∧ c ∉ heap .recv)
    (hsh : sh.1 = (tot i).1) :
    Ledger (Function.update pool i p) (Function.update heap i H) home trace
      (Function.update tot i sh) := by
  refine h.update hp hH (fun c hc => ?_) (fun _ _ => rfl) ?_
  · rw [hsh] at hc
    exact h.home i c hc
  · rw [hsh, ← out_comm]
    exact h.held

/-- a block goes out: its header is set and the trace records it -/
theorem Ledger.handout (h : Ledger pool heap home trace tot)
    (hp : PoolOk p (Share.held {b} + R) (heap i)) (hR : R.1 = (tot i).1) :
    Ledger (Function.update pool i p) heap (Function.update home b i) (.handout b :: trace)
      (Function.update tot i (Share.held {b} + R)) := by
  have hout : (Share.held {b} + R).1 = b ::ₘ (tot i).1 := by
    show {b} + R.1 = _
    rw [hR, Multiset.singleton_add]
  have hn := hp.nodup
  rw [hout, Multiset.nodup_cons] at hn
  have hb : b ∈ heap i := hp.mem_heap (by rw [hout]; exact Multiset.mem_cons_self b _)
  have hbo := h.not_mem_other hb
  have hheap : Function.update heap i (heap i) = heap := Function.update_eq_self i heap
  rw [← hheap]
  refine h.update hp (fun c hc => Or.inl hc) (fun c hc => ?_) (fun c hc => ?_) ?_
  · by_cases hcb : c = b
    · rw [hcb, Function.update_self]
    · rw [Function.update_of_ne hcb]
      rw [hout, Multiset.mem_cons] at hc
      exact h.home i c (hc.resolve_left hcb)
  · have hcb : c ≠ b := fun e => hbo (e ▸ hc)
    rw [Function.update_of_ne hcb]
  · rw [hout, Multiset.cons_add, ← out_comm]
    apply h.held.handout
    rw [out_comm _ i, Multiset.mem_add, not_or]
    exact ⟨hn.1, hbo⟩

theorem Ledger.get_block (h : Ledger pool heap home trace tot)
    (hg : poolTryGetLocked (pool i) = (.block b, p)) :
    Ledger (Function.update pool i p) heap (Function.update home b i) (.handout b :: trace)
      (Function.update tot i (Share.held {b} + tot i)) :=
  h.handout ((h.ok i).get_block hg) rfl

theorem Ledger.get_reserved (h : Ledger pool heap home trace tot)
    (hg : poolTryGetLocked (pool i) = (.reserved, p)) :
    Ledger (Function.update pool i p) heap home trace
      (Function.update tot i (Share.reserved + tot i)) := by
  have hheap : Function.update heap i (heap i) = heap := Function.update_eq_self i heap
  rw [← hheap]
  exact h.same_out ((h.ok i).get_reserved hg) (fun c hc => Or.inl hc) (zero_add _)

theorem Ledger.alloc {r : Option Blk} (h : Ledger pool heap home trace tot)
    (ht : tot i = Share.reserved + R) (hr : ∀ b ∈ r, b ∉ heap .send ∧ b ∉ heap .recv) :
    Ledger pool (Function.update heap i (r.toList ++ heap i)) home trace
      (Function.update tot i (Share.allocated r + R)) := by
  have hpool : Function.update pool i (pool i) = pool := Function.update_eq_self i pool
  rw [← hpool]
  have hok := h.ok i
  rw [ht] at hok
  have hfresh : ∀ b ∈ r, b ∉ heap i := by
    intro b hb
    cases i with
    | send => exact (hr b hb).1
    | recv => exact (hr b hb).2
  refine h.same_out (hok.alloc hfresh) (fun c hc => ?_) ?_
  · rcases List.mem_append.mp hc with hc | hc
    · exact Or.inr (hr c (Option.mem_toList.mp hc))
    · exact Or.inl hc
  · rw [ht]
    cases r with
    | none => rfl
    | some b => rfl

theorem Ledger.allocDone (h : Ledger pool heap home trace tot)
    (ht : tot i = Share.allocated (some b) + R) :
    Ledger (Function.update pool i (poolAllocDone (pool i))) heap (Function.update home b i)
      (.handout b :: trace) (Function.update tot i (Share.held {b} + R)) := by
  have hok := h.ok i
  rw [ht] at hok
  refine h.handout hok.allocDone ?_
  rw [ht]
  exact (zero_add _).symm

theorem Ledger.allocFailed (h : Ledger pool heap home trace tot) (ht : tot i = Share.reserved + R) :
    Ledger (Function.update pool i (poolAllocFailed (pool i))) heap home trace
      (Function.update tot i R) := by
  have hok := h.ok i
  rw [ht] at hok
  have hheap : Function.update heap i (heap i) = heap := Function.update_eq_self i heap
  rw [← hheap]
  refine h.same_out hok.allocFailed (fun c hc => Or.inl hc) ?_
  rw [ht]
  exact (zero_add _).symm

/-- a block comes back: the header leads to its pool, and there is no underflow -/
theorem Ledger.put (h : Ledger pool heap home trace tot) (ht : tot i = Share.held {b} + R) :
    home b = i ∧ ∃ q, poolPut (pool i) b = some q ∧
      Ledger (Function.update pool i q) heap home (.put b :: trace) (Function.update tot i R) := by
  have hok := h.ok i
  rw [ht] at hok
  obtain ⟨q, hq, hok'⟩ := hok.put
  have hout : (tot i).1 = b ::ₘ R.1 := by
    rw [ht]
    show {b} + R.1 = _
    rw [Multiset.singleton_add]
  have hb : b ∈ (tot i).1 := by
    rw [hout]
    exact Multiset.mem_cons_self b _
  have hn := (h.ok i).nodup
  rw [hout, Multiset.nodup_cons] at hn
  have hbo := h.not_mem_other ((h.ok i).mem_heap hb)
  refine ⟨h.home i b hb, q, hq, ?_⟩
  have hheap : Function.update heap i (heap i) = heap := Function.update_eq_self i heap
  rw [← hheap]
  refine h.update hok' (fun c hc => Or.inl hc) (fun c hc => ?_) (fun _ _ => rfl) ?_
  · apply h.home i c
    rw [hout]
    exact Multiset.mem_cons_of_mem hc
  · have hheld := h.held
    rw [out_comm _ i, hout, Multiset.cons_add] at hheld
    apply hheld.put
    rw [Multiset.mem_add, not_or]
    exact ⟨hn.1, hbo⟩

theorem Ledger.touch (h : Ledger pool heap home trace tot) (hb : b ∈ (tot i).1) :
    Ledger pool heap home (.touch b :: trace) tot := by
  refine ⟨h.ok, h.apart, h.home, h.held.touch ?_⟩
  rw [out_comm _ i]
  exact Multiset.mem_add.mpr (Or.inl hb)

end

end QuicVpn
