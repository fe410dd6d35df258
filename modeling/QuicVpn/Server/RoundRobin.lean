import QuicVpn.Lib.Exec
import QuicVpn.Lib.Cycle
import QuicVpn.Server.IpPool

/-!
# The order in which addresses are handed out

`ip_acquire` scans the table from the cursor `next_idx` on and leaves the cursor behind the entry that
it takes.  A run is any sequence of calls of `ip_acquire` and `ip_release`.

* `IpCall.gets p a`     the entry that the call `a` hands out;
* `ipAcquire_split`     what was passed by the scan is in use, and comes last in the next scan;
* `call_before`         an entry that stays unused stays in front of the entry that was taken last.

The main result is `ipAcquire_round_robin`.
-/

set_option linter.unusedSectionVars false

namespace QuicVpn
open Conc

/-- the calls with their arguments, NULL included; an entry that is released is one of the table -/
inductive IpCall where
  | acquire (client : Option Blk)
  | release (e : Option ℕ)
  deriving DecidableEq, Repr

def IpPool.call (p : IpPool) : IpCall → Option IpPool
  | .acquire none => some p
  | .acquire (some c) => some (ipAcquire p c).2
  | .release none => some (ipRelease p none).2
  | .release (some e) => if e < p.maxClients then some (ipRelease p (some e)).2 else none

/-- the entry that a call hands out -/
def IpCall.gets (p : IpPool) : IpCall → Option ℕ
  | .acquire (some c) => (ipAcquire p c).1
  | _ => none

section
variable {p p' q : IpPool} {i j : ℕ}

/-- `ip_acquire` fails where every entry is in use, and only there -/
theorem ipAcquire_none_iff (p : IpPool) (c : Blk) :
    (ipAcquire p c).1 = none ↔ ∀ i < p.maxClients, (p.ipEntry i).used = true := by
  rcases ipAcquire_cases p c with ⟨e, hall⟩ | ⟨i, hi, hu, e⟩
  · rw [e]
    exact iff_of_true rfl fun i hi => hall i (mem_cycle.mpr hi)
  · rw [e]
    refine iff_of_false (Option.some_ne_none i) fun hall => ?_
    rw [hall i (IpPool.order_lt hi)] at hu
    cases hu

/-- the scan passes entries that are in use, and the next scan comes to them last -/
theorem ipAcquire_split {c : Blk} (h : (ipAcquire p c).1 = some i) :
    ∃ A B, p.order = A ++ i :: B ∧ (∀ k ∈ A, (p.ipEntry k).used = true) ∧
      (p.ipEntry i).used = false ∧ (ipAcquire p c).2.order = B ++ (A ++ [i]) ∧
      (ipAcquire p c).2 =
        { p.setEntry i true (some c) with nextIdx := (i + 1) % p.maxClients } := by
  unfold ipAcquire at h ⊢
  cases hf : p.order.find? fun idx => !(p.ipEntry idx).used with
  | none =>
    rw [hf] at h
    cases h
  | some k =>
    rw [hf] at h
    obtain rfl : k = i := Option.some.inj h
    obtain ⟨hu, A, B, hAB, hA⟩ := List.find?_eq_some_iff_append.mp hf
    refine ⟨A, B, hAB, fun a ha => ?_, by simpa using hu, cycle_next hAB, rfl⟩
    simpa using hA a ha

/-- **One call.**  The entry `j` stays unused and comes before `i` in the scan; a call that does not
hand out `i` keeps this order. -/
theorem call_before {a : IpCall} (h : p.call a = some p') (hu : (p.ipEntry j).used = false)
    (hu' : (p'.ipEntry j).used = false) (hi : a.gets p ≠ some i) (hb : [j, i].Sublist p.order) :
    [j, i].Sublist p'.order := by
  rcases a with (_ | c) | (_ | e)
  · cases h
    exact hb
  · cases h
    cases hg : (ipAcquire p c).1 with
    | none =>
      rcases ipAcquire_cases p c with ⟨e, _⟩ | ⟨k, _, _, e⟩
      · rw [e]
        exact hb
      · rw [e] at hg
        cases hg
    | some k =>
      obtain ⟨A, B, hAB, hA, _, hord, hpool⟩ := ipAcquire_split hg
      rw [hAB] at hb
      rw [hord]
      refine before_of_scan hb ?_ ?_
      · intro hj
        rw [hA j hj] at hu
        cases hu
      · -- the entry that is handed out is in use afterwards
        rintro rfl
        rw [hpool] at hu'
        have hself : (p.setEntry j true (some c)).ipEntry j = _ := p.setEntry_self j true (some c)
        rw [hself] at hu'
        cases hu'
  · cases h
    exact hb
  · simp only [IpPool.call, Option.ite_none_right_eq_some] at h
    cases h.2
    exact hb

/-- **A run of calls.**  While `j` stays unused and `i` is not handed out, `j` comes before `i`. -/
theorem run_before {l : List IpCall} (h : exec IpPool.call p l = some q)
    (hu : Always IpPool.call (fun p => (p.ipEntry j).used = false) p l)
    (hi : Along IpPool.call (fun p a => a.gets p ≠ some i) p l) (hb : [j, i].Sublist p.order) :
    [j, i].Sublist q.order ∧ (q.ipEntry j).used = false := by
  induction l generalizing p with
  | nil =>
    cases h
    exact ⟨hb, hu⟩
  | cons a l ih =>
    obtain ⟨p', hs, hl⟩ := exec_cons.mp h
    have hu1 := hu.2 p' hs
    have hu' : (p'.ipEntry j).used = false := by
      cases l with
      | nil => exact hu1
      | cons b l => exact hu1.1
    exact ih hl hu1 (hi.2 p' hs) (call_before hs hu.1 hu' hi.1 hb)

/-- behind an `ip_acquire` that returned `i`, every other entry comes before `i` -/
theorem acquired_last {c : Blk} (h : (ipAcquire p c).1 = some i) (hj : j < p.maxClients)
    (hji : j ≠ i) : [j, i].Sublist (ipAcquire p c).2.order := by
  obtain ⟨A, B, hAB, _, _, hord, _⟩ := ipAcquire_split h
  have hmem : j ∈ B ++ A := by
    have hm : j ∈ A ++ i :: B := by
      rw [← hAB]
      exact mem_cycle.mpr hj
    simp only [List.mem_append, List.mem_cons] at hm ⊢
    tauto
  rw [hord, ← List.append_assoc]
  exact (List.singleton_sublist.mpr hmem).append (List.Sublist.refl [i])

/-- an entry that is handed out again: none of the others has stayed unused -/
theorem reacquired {c c' : Blk} {l : List IpCall} (h : (ipAcquire p c).1 = some i)
    (hl : exec IpPool.call (ipAcquire p c).2 l = some q)
    (hi : Along IpPool.call (fun p a => a.gets p ≠ some i) (ipAcquire p c).2 l)
    (h' : (ipAcquire q c').1 = some i) (hj : j < p.maxClients) (hji : j ≠ i) :
    ¬ Always IpPool.call (fun p => (p.ipEntry j).used = false) (ipAcquire p c).2 l := by
  intro hu
  obtain ⟨hb, huj⟩ := run_before hl hu hi (acquired_last h hj hji)
  obtain ⟨A, B, hAB, hA, _⟩ := ipAcquire_split h'
  have hn : (A ++ i :: B).Nodup := by
    rw [← hAB]
    exact nodup_cycle _ _
  rw [hAB] at hb
  refine not_before hn (fun hmem => ?_) hji hb
  rw [hA j hmem] at huj
  cases huj

end

/-- **Round robin.**  In every state of a pool, and so in those that any sequence of calls reaches from
`ip_pool_create`, `ip_acquire` returns NULL if and only if every entry is in use; and where two calls
of it return the entry `i` and no call between them does, every other entry has been in use at some
time in between. -/
theorem ipAcquire_round_robin (p : IpPool) (c : Blk) :
    ((ipAcquire p c).1 = none ↔ ∀ i < p.maxClients, (p.ipEntry i).used = true) ∧
    ∀ i, (ipAcquire p c).1 = some i → ∀ l q c',
      exec IpPool.call (ipAcquire p c).2 l = some q →
      Along IpPool.call (fun p a => a.gets p ≠ some i) (ipAcquire p c).2 l →
      (ipAcquire q c').1 = some i → ∀ j < p.maxClients, j ≠ i →
      ¬ Always IpPool.call (fun p => (p.ipEntry j).used = false) (ipAcquire p c).2 l := by
  refine ⟨ipAcquire_none_iff p c, ?_⟩
  intro i hi l q c' hl hne hq j hj hji
  exact reacquired hi hl hne hq hj hji

/-- the interface `10.0.0.1/29`, with five free addresses -/
def tunFive : TunIface := ⟨0x0100000a, 0xf8ffffff⟩

/-- the first free address is released at once, and handed out again after the other four -/
theorem ipAcquire_round_robin_five : ∃ p q, ipPoolCreate (some tunFive) true true = some p ∧
    (ipAcquire p 7).1 = some 2 ∧
    exec IpPool.call (ipAcquire p 7).2 [.release (some 2), .acquire (some 8), .acquire (some 8),
      .release (some 3), .acquire (some 8), .acquire (some 8)] = some q ∧
    (ipAcquire q 9).1 = some 2 ∧
    ¬ Always IpPool.call (fun p => (p.ipEntry 6).used = false) (ipAcquire p 7).2
      [.release (some 2), .acquire (some 8), .acquire (some 8), .release (some 3),
        .acquire (some 8), .acquire (some 8)] := by
  refine ⟨_, _, rfl, by decide, rfl, by decide, ?_⟩
  exact (ipAcquire_round_robin _ 7).2 2 (by decide) _ _ 9 rfl (by decide) (by decide) 6 (by decide)
    (by decide)

end QuicVpn
