import QuicVpn.Lib.Word
import QuicVpn.Common.Pool
import QuicVpn.Common.LfPool

/-!
# The memory of a block

Sizes are computed in words of 64 bits.  `pool_init` checks that a header can be added to the size of
a block, but `pool_try_get` and `pool_wait_get` then round the sum up; `lf_pool_init` checks no size at
all, and puts all blocks into one arena.

* `poolAllocSize`        what `pool_try_get` and `pool_wait_get` ask `aligned_alloc` for;
* `poolAllocSize_iff`    it has room for the block unless the rounding wraps;
* `LfArena`              the sizes of a lock-free pool, and where it looks for its blocks;
* `LfArena.Sound`        the blocks lie in the arena, apart from each other, and `lf_pool_put` finds
                         their indices;
* `lfArena_sound_iff`    so it is unless the size of the arena wraps.
-/

set_option linter.unusedSectionVars false

namespace QuicVpn
open Conc

/-! ## pool.h -/

/-- `ALIGN_UP(sizeof(pool_block_t) + p->block_size, 64)` -/
def poolAllocSize (p : Pool) : BitVec 64 :=
  alignUp 64 (BitVec.ofNat 64 poolHeader + BitVec.ofNat 64 p.blockSize)

theorem poolInit_some {blockSize cap : ℕ} {p : Pool} (h : poolInit blockSize cap = some p) :
    p.blockSize = blockSize ∧ 0 < blockSize ∧ blockSize + poolHeader ≤ sizeMax := by
  unfold poolInit at h
  split_ifs at h with h0 h1
  cases h
  have hle : poolHeader ≤ sizeMax := by decide
  exact ⟨rfl, Nat.pos_of_ne_zero h0, by omega⟩

theorem poolAllocSize_toNat {blockSize cap : ℕ} {p : Pool} (h : poolInit blockSize cap = some p) :
    (poolAllocSize p).toNat = (blockSize + 79) % 2 ^ 64 / 64 * 64 := by
  obtain ⟨e, -, hle⟩ := poolInit_some h
  have hheader : poolHeader = 16 := rfl
  have hmax : sizeMax = 18446744073709551615 := by decide
  have hsum : (BitVec.ofNat 64 poolHeader + BitVec.ofNat 64 p.blockSize).toNat = blockSize + 16 := by
    rw [e, BitVec.toNat_add, BitVec.toNat_ofNat, BitVec.toNat_ofNat]
    omega
  have hround := toNat_alignUp (k := 6) (by decide)
    (BitVec.ofNat 64 poolHeader + BitVec.ofNat 64 p.blockSize)
  rw [hsum] at hround
  exact hround

/-- **The size of a block.**  For a block size that `pool_init` accepts, what is allocated for a block is
a multiple of 64 with room for the header and the payload if and only if the size is at most
`2 ^ 64 - 80`. -/
theorem poolAllocSize_iff (blockSize cap : ℕ) (p : Pool) (h : poolInit blockSize cap = some p) :
    (64 ∣ (poolAllocSize p).toNat ∧ poolHeader + blockSize ≤ (poolAllocSize p).toNat) ↔
      blockSize + 80 ≤ 2 ^ 64 := by
  obtain ⟨-, -, hle⟩ := poolInit_some h
  have hheader : poolHeader = 16 := rfl
  have hmax : sizeMax = 18446744073709551615 := by decide
  rw [poolAllocSize_toNat h]
  constructor
  · rintro ⟨-, hroom⟩
    omega
  · intro hsmall
    exact ⟨Nat.dvd_mul_left _ _, by omega⟩

theorem poolAllocSize_iff_packet :
    64 ∣ (poolAllocSize ⟨2064, 64, 0, 0, none, fun _ => none⟩).toNat ∧
      poolHeader + 2064 ≤ (poolAllocSize ⟨2064, 64, 0, 0, none, fun _ => none⟩).toNat :=
  (poolAllocSize_iff 2064 64 _ rfl).mpr (by decide)

/-- the least size for which the sum wraps: nothing is asked for, and `pool_init` has accepted it -/
theorem accepted_size_wraps : ∃ p, poolInit (2 ^ 64 - 79) 0 = some p ∧ poolAllocSize p = 0 ∧
    ¬ (64 ∣ (poolAllocSize p).toNat ∧ poolHeader + (2 ^ 64 - 79) ≤ (poolAllocSize p).toNat) := by
  have hp : poolInit (2 ^ 64 - 79) 0 = some ⟨2 ^ 64 - 79, 0, 0, 0, none, fun _ => none⟩ := rfl
  have h0 : (poolAllocSize ⟨2 ^ 64 - 79, 0, 0, 0, none, fun _ => none⟩).toNat = 0 := by
    rw [poolAllocSize_toNat hp]
    rfl
  refine ⟨_, hp, BitVec.eq_of_toNat_eq h0, ?_⟩
  rw [h0]
  rintro ⟨-, hroom⟩
  exact absurd hroom (by decide)

/-! ## lf_pool.h -/

/-- `sizeof(lf_pool_block_t)` -/
def lfHeader : ℕ := 4

/-- the sizes that are passed to `lf_pool_init`, and the address that `malloc` returns -/
structure LfArena where
  blockSize : BitVec 64
  capacity : BitVec 64
  rawMemory : BitVec 64

namespace LfArena
variable (m : LfArena)

/-- `real_block_size` -/
def realBlockSize : BitVec 64 := alignUp 8 (BitVec.ofNat 64 lfHeader + m.blockSize)

/-- the bytes that are requested from `malloc` -/
def requested : BitVec 64 := m.capacity * m.realBlockSize

/-- where block `i` is, from the beginning of the arena -/
def offset (i : BitVec 32) : BitVec 64 := i.setWidth 64 * m.realBlockSize

/-- the header of block `i` -/
def block (i : BitVec 32) : BitVec 64 := m.rawMemory + m.offset i

/-- what the get functions return for block `i` -/
def payload (i : BitVec 32) : BitVec 64 := m.block i + BitVec.ofNat 64 lfHeader

/-- the index that `lf_pool_put` computes; `none` is a division by zero -/
def putIndex (ptr : BitVec 64) : Option (BitVec 32) :=
  let b := ptr - BitVec.ofNat 64 lfHeader
  if m.realBlockSize = 0 then none
  else some (((b - m.rawMemory) / m.realBlockSize).setWidth 32)

/-- the bytes of the header and of the payload of block `i` -/
def bytes (i : BitVec 32) : Set ℕ :=
  Set.Ico (m.offset i).toNat ((m.offset i).toNat + (lfHeader + m.blockSize.toNat))

structure Sound : Prop where
  enough : m.capacity.toNat * (lfHeader + m.blockSize.toNat) ≤ m.requested.toNat
  inside : ∀ i : BitVec 32, i.toNat < m.capacity.toNat → m.bytes i ⊆ Set.Iio m.requested.toNat
  apart : ∀ i j : BitVec 32, i.toNat < m.capacity.toNat → j.toNat < m.capacity.toNat → i ≠ j →
    ∀ x ∈ m.bytes i, x ∉ m.bytes j
  recovers : ∀ i : BitVec 32, i.toNat < m.capacity.toNat → m.putIndex (m.payload i) = some i

/-- a block rounded up to eight bytes, without overflow -/
def rounded : ℕ := (m.blockSize.toNat + 11) / 8 * 8

variable {m}

theorem realBlockSize_toNat :
    m.realBlockSize.toNat = ((m.blockSize.toNat + 4) % 2 ^ 64 + 7) % 2 ^ 64 / 8 * 8 := by
  have hround := toNat_alignUp (k := 3) (by decide) (BitVec.ofNat 64 lfHeader + m.blockSize)
  have hsum : (BitVec.ofNat 64 lfHeader + m.blockSize).toNat = (m.blockSize.toNat + 4) % 2 ^ 64 := by
    have hheader : lfHeader = 4 := rfl
    rw [BitVec.toNat_add, BitVec.toNat_ofNat]
    omega
  rw [hsum] at hround
  exact hround

theorem realBlockSize_of_lt (h : m.blockSize.toNat + 11 < 2 ^ 64) :
    m.realBlockSize.toNat = m.rounded := by
  rw [realBlockSize_toNat, rounded]
  omega

/-- rounding adds at most seven bytes to a block -/
theorem rounded_bounds : lfHeader + m.blockSize.toNat ≤ m.rounded ∧
    m.rounded ≤ lfHeader + m.blockSize.toNat + 7 := by
  unfold rounded lfHeader
  omega

theorem capacity_mul_rounded : m.capacity.toNat * (lfHeader + m.blockSize.toNat) ≤
      m.capacity.toNat * m.rounded ∧ m.capacity.toNat * m.rounded ≤
      m.capacity.toNat * (lfHeader + m.blockSize.toNat) + m.capacity.toNat * 7 := by
  obtain ⟨hlow, hhigh⟩ := m.rounded_bounds
  rw [← Nat.mul_add]
  exact ⟨Nat.mul_le_mul_left _ hlow, Nat.mul_le_mul_left _ hhigh⟩

/-- a request that is large enough has not wrapped -/
theorem rounded_of_enough (hc : 0 < m.capacity.toNat) (hc' : m.capacity.toNat < 2 ^ 32)
    (h : m.capacity.toNat * (lfHeader + m.blockSize.toNat) ≤ m.requested.toNat) :
    m.capacity.toNat * m.rounded < 2 ^ 64 := by
  have hheader : lfHeader = 4 := rfl
  have hreq : m.requested.toNat = m.capacity.toNat * m.realBlockSize.toNat % 2 ^ 64 :=
    BitVec.toNat_mul _ _
  have hlt := m.requested.isLt
  have hone : lfHeader + m.blockSize.toNat ≤ m.capacity.toNat * (lfHeader + m.blockSize.toNat) :=
    Nat.le_mul_of_pos_left _ hc
  obtain ⟨hlow, hhigh⟩ := m.capacity_mul_rounded
  by_cases hwrap : m.blockSize.toNat + 11 < 2 ^ 64
  · rw [realBlockSize_of_lt hwrap] at hreq
    omega
  · -- the rounding wraps to `0`, and so does the request
    have hzero : m.realBlockSize.toNat = 0 := by
      rw [realBlockSize_toNat]
      omega
    rw [hzero, Nat.mul_zero, Nat.zero_mod] at hreq
    omega

theorem realBlockSize_of_fits (hc : 0 < m.capacity.toNat)
    (hfit : m.capacity.toNat * m.rounded < 2 ^ 64) : m.realBlockSize.toNat = m.rounded := by
  have hone : m.rounded ≤ m.capacity.toNat * m.rounded := Nat.le_mul_of_pos_left _ hc
  have hr : m.rounded = (m.blockSize.toNat + 11) / 8 * 8 := rfl
  exact realBlockSize_of_lt (by omega)

theorem offset_toNat (hfit : m.capacity.toNat * m.rounded < 2 ^ 64) {i : BitVec 32}
    (hi : i.toNat < m.capacity.toNat) : (m.offset i).toNat = i.toNat * m.rounded := by
  have hlt : i.toNat * m.rounded < 2 ^ 64 := lt_of_le_of_lt (Nat.mul_le_mul_right _ hi.le) hfit
  rw [offset, BitVec.toNat_mul, BitVec.toNat_setWidth, realBlockSize_of_fits (by omega) hfit,
    Nat.mod_eq_of_lt (lt_trans i.isLt (by decide)), Nat.mod_eq_of_lt hlt]

theorem requested_toNat (hc : 0 < m.capacity.toNat) (hfit : m.capacity.toNat * m.rounded < 2 ^ 64) :
    m.requested.toNat = m.capacity.toNat * m.rounded := by
  rw [requested, BitVec.toNat_mul, realBlockSize_of_fits hc hfit, Nat.mod_eq_of_lt hfit]

/-- a block ends before the next one begins -/
theorem mul_rounded_add_le {i j : ℕ} (h : i < j) : i * m.rounded + m.rounded ≤ j * m.rounded := by
  rw [← Nat.succ_mul]
  exact Nat.mul_le_mul_right _ h

theorem sound_of_fits (hc : 0 < m.capacity.toNat) (hfit : m.capacity.toNat * m.rounded < 2 ^ 64) :
    m.Sound := by
  have hheader : lfHeader = 4 := rfl
  have hsize := m.rounded_bounds.1
  have hreq := requested_toNat hc hfit
  refine ⟨?_, fun i hi => ?_, fun i j hi hj hne => ?_, fun i hi => ?_⟩
  · rw [hreq]
    exact m.capacity_mul_rounded.1
  · rintro x ⟨-, hx⟩
    rw [offset_toNat hfit hi] at hx
    have hle := m.mul_rounded_add_le hi
    rw [Set.mem_Iio, hreq]
    omega
  · rintro x ⟨hx1, hx2⟩ ⟨hx3, hx4⟩
    rw [offset_toNat hfit hi] at hx1 hx2
    rw [offset_toNat hfit hj] at hx3 hx4
    rcases Nat.lt_or_gt_of_ne (fun e => hne (BitVec.eq_of_toNat_eq e)) with hlt | hlt
    · have hle := m.mul_rounded_add_le hlt
      omega
    · have hle := m.mul_rounded_add_le hlt
      omega
  · have hreal := realBlockSize_of_fits hc hfit
    have hpos : 0 < m.rounded := by omega
    have hne : m.realBlockSize ≠ 0 := by
      intro e
      rw [e] at hreal
      exact absurd hreal.symm (by simpa using hpos.ne')
    have hback : m.payload i - BitVec.ofNat 64 lfHeader - m.rawMemory = m.offset i := by
      rw [payload, block, BitVec.add_sub_cancel, BitVec.add_comm, BitVec.add_sub_cancel]
    unfold putIndex
    dsimp only
    rw [if_neg hne, hback, Option.some.injEq]
    apply BitVec.eq_of_toNat_eq
    rw [BitVec.toNat_setWidth, BitVec.toNat_udiv, offset_toNat hfit hi, hreal,
      Nat.mul_div_cancel _ hpos, Nat.mod_eq_of_lt i.isLt]

end LfArena

/-- **The arena of the lock-free pool.**  For sizes that `lf_pool_init` accepts, with `malloc` granting
what is requested, the arena is sound if and only if all blocks, each rounded up to eight bytes, need
less than `2 ^ 64` bytes. -/
theorem lfArena_sound_iff (m : LfArena) (semInit : Bool) (p : LfPool)
    (h : lfPoolInit m.blockSize.toNat m.capacity.toNat true semInit = some p) :
    m.Sound ↔ m.capacity.toNat * m.rounded < 2 ^ 64 := by
  obtain ⟨hc, hmax, -⟩ := lfPoolInit_some h
  have hcap : m.capacity.toNat < 2 ^ 32 := lt_trans hmax (by decide)
  constructor
  · intro hs
    exact LfArena.rounded_of_enough (by omega) hcap hs.enough
  · exact LfArena.sound_of_fits (by omega)

theorem lfArena_sound_iff_packets : LfArena.Sound ⟨2064, 8, 4096⟩ :=
  (lfArena_sound_iff ⟨2064, 8, 4096⟩ true _ rfl).mpr (by decide)

/-- four blocks of `2 ^ 64 - 1` bytes: `lf_pool_init` gives each 8 bytes of an arena of 32, and
returns `0` -/
theorem arena_wraps : ∃ p, lfPoolInit 0xffffffffffffffff 4 true true = some p ∧
    LfArena.realBlockSize ⟨0xffffffffffffffff, 4, 4096⟩ = 8 ∧
    LfArena.requested ⟨0xffffffffffffffff, 4, 4096⟩ = 32 ∧
      ¬ LfArena.Sound ⟨0xffffffffffffffff, 4, 4096⟩ := by
  have hreq : LfArena.requested ⟨0xffffffffffffffff, 4, 4096⟩ = 32 := by decide
  refine ⟨_, rfl, by decide, hreq, fun hs => ?_⟩
  have henough := hs.enough
  rw [hreq] at henough
  exact absurd henough (by decide)

end QuicVpn
