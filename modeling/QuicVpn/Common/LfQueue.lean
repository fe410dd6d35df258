import Mathlib.Algebra.Group.Nat.Defs
import Mathlib.Data.Nat.Notation
import Mathlib.Tactic.ByContra

/-!
# The lock-free queue of `lf_queue.h`: its record and its index arithmetic

One producer and one consumer share a ring of slots, two counters of 64 bits that are never reduced,
and a semaphore.  The slot of a counter value is found with a mask, which is why `lf_queue_init` asks
for a power of two.

* `lfQueueInit`             the argument checks and the record of the empty queue;
* `LfQueue.slot`            the slot of a counter value;
* `LfQueue.Shape k q`       the queue `q` has `2 ^ k` slots, and their number fits the counters.
-/

set_option linter.unusedSectionVars false

namespace QuicVpn

/-- `lf_queue_t`; `room` is the number of slots in the memory behind `ptr`, and `none` is `NULL` -/
structure LfQueue (α : Type) where
  capacity : UInt64
  mask : UInt64
  room : ℕ
  ptr : ℕ → Option α
  tail : UInt64
  head : UInt64
  itemsSem : ℕ

/-- `lf_queue_init`; `malloc` and `semInit` tell which of the two calls succeed -/
def lfQueueInit (α : Type) (size : UInt64) (malloc semInit : Bool) : Option (LfQueue α) :=
  if size = 0 then none
  else if size &&& (size - 1) ≠ 0 then none
  else if !malloc then none
  else if !semInit then none
  else some ⟨size, size - 1, (size * 8).toNat / 8, fun _ => none, 0, 0, 0⟩

/-- the slot of a counter value -/
def LfQueue.slot {α : Type} (q : LfQueue α) (i : UInt64) : ℕ := (i &&& q.mask).toNat

section
variable {α : Type}

/-! ## index arithmetic -/

/-- the counters differ by what they count, however often they have wrapped -/
theorem toNat_ofNat_sub {m n : ℕ} (h : m ≤ n) (hlt : n - m < 2 ^ 64) :
    (UInt64.ofNat n - UInt64.ofNat m).toNat = n - m := by
  rw [← UInt64.ofNat_sub h, UInt64.toNat_ofNat', Nat.mod_eq_of_lt hlt]

theorem ofNat_succ (n : ℕ) : UInt64.ofNat n + 1 = UInt64.ofNat (n + 1) :=
  (UInt64.ofNat_add n 1).symm

/-- a queue with `2 ^ k` slots -/
structure LfQueue.Shape (k : ℕ) (q : LfQueue α) : Prop where
  le : k ≤ 60
  capacity : q.capacity.toNat = 2 ^ k
  mask : q.mask.toNat = 2 ^ k - 1
  room : q.room = 2 ^ k

section
variable {k : ℕ} {q : LfQueue α}

/-- the mask divides the range of the counters, so it does not see them wrap -/
theorem LfQueue.Shape.slot (h : q.Shape k) (n : ℕ) : q.slot (UInt64.ofNat n) = n % 2 ^ k := by
  have hd : 2 ^ k ∣ 2 ^ 64 := Nat.pow_dvd_pow 2 (Nat.le_trans h.le (by decide))
  rw [LfQueue.slot, UInt64.toNat_and, h.mask, UInt64.toNat_ofNat', Nat.and_two_pow_sub_one_eq_mod,
    Nat.mod_mod_of_dvd n hd]

theorem LfQueue.Shape.slot_lt (h : q.Shape k) (n : ℕ) : q.slot (UInt64.ofNat n) < q.room := by
  rw [h.slot, h.room]
  exact Nat.mod_lt _ (Nat.two_pow_pos k)

theorem LfQueue.Shape.lt (h : q.Shape k) : 2 ^ k < 2 ^ 64 :=
  Nat.pow_lt_pow_right (by decide) (by have := h.le; omega)

end

/-- what `lf_queue_init` accepts is a power of two; below `2 ^ 61` the array has all its slots -/
theorem lfQueueInit_shape {size : UInt64} {malloc semInit : Bool} {q : LfQueue α}
    (hsize : size.toNat * 8 < 2 ^ 64) (h : lfQueueInit α size malloc semInit = some q) :
    ∃ k, q.Shape k ∧ q = ⟨size, size - 1, size.toNat, fun _ => none, 0, 0, 0⟩ := by
  unfold lfQueueInit at h
  split at h
  · cases h
  · rename_i h0
    split at h
    · cases h
    · rename_i hand
      rw [not_not] at hand
      split at h
      · cases h
      · split at h
        · cases h
        · have hn0 : size.toNat ≠ 0 := fun e => h0 (UInt64.toNat_inj.mp e)
          have hsub : (size - 1).toNat = size.toNat - 1 := by
            have h1 : (1 : UInt64) ≤ size := by
              rw [UInt64.le_iff_toNat_le]
              exact Nat.one_le_iff_ne_zero.mpr hn0
            exact UInt64.toNat_sub_of_le _ _ h1
          have hpow : size.toNat.isPowerOfTwo := by
            rw [← Nat.and_sub_one_eq_zero_iff_isPowerOfTwo hn0, ← hsub, ← UInt64.toNat_and, hand]
            rfl
          obtain ⟨k, hk⟩ := hpow
          have hroom : (size * 8).toNat / 8 = size.toNat := by
            have e : (size * 8).toNat = size.toNat * 8 := by
              rw [UInt64.toNat_mul]
              exact Nat.mod_eq_of_lt hsize
            rw [e, Nat.mul_div_cancel _ (by decide)]
          rw [hroom] at h
          cases h
          have hk60 : k ≤ 60 := by
            by_contra hlt
            have : 2 ^ 61 ≤ size.toNat := hk ▸ Nat.pow_le_pow_right (by decide) (by omega)
            omega
          exact ⟨k, ⟨hk60, hk, by rw [hsub, hk], hk⟩, rfl⟩

end

end QuicVpn
