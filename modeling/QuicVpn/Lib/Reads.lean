import Mathlib.Data.Nat.Notation
import Mathlib.Data.Int.Notation
import Mathlib.Tactic.SplitIfs
import QuicVpn.Lib.Layout

/-!
# Computations that read a memory

`Reads α` is a computation that looks at bytes of a memory: its value, and the offsets that it has
looked at, in this order.  The memory has no end; how much of it is there is said by a bound.

* `le16`, `le32`        the integers of a memory, least significant byte first;
* `u8`, `u16`, `u32`    looking at them;
* `copy i n`            looking at `n` bytes, which are copied into a record;
* `Within L m mem`      nothing at or beyond `L` is looked at;
* `within_bind`         a sequence stays within if both of its parts do.
-/

namespace Conc

/-- the value, and the offsets read -/
def Reads (α : Type) : Type := (ℕ → UInt8) → α × List ℕ

namespace Reads
variable {α β : Type}

def val (m : Reads α) (mem : ℕ → UInt8) : α := (m mem).1

def touched (m : Reads α) (mem : ℕ → UInt8) : List ℕ := (m mem).2

instance : Monad Reads where
  pure a := fun _ => (a, [])
  bind m f := fun mem => ((f (m mem).1 mem).1, (m mem).2 ++ (f (m mem).1 mem).2)

/-- nothing at or beyond `L` is read -/
def Within (L : ℕ) (m : Reads α) (mem : ℕ → UInt8) : Prop := ∀ i ∈ m.touched mem, i < L

variable (mem : ℕ → UInt8) (L : ℕ)

@[simp] theorem val_pure (a : α) : (pure a : Reads α).val mem = a := rfl

@[simp] theorem val_bind (m : Reads α) (f : α → Reads β) :
    (m >>= f).val mem = (f (m.val mem)).val mem := rfl

@[simp] theorem val_ite {c : Prop} [Decidable c] (m m' : Reads α) :
    (if c then m else m').val mem = if c then m.val mem else m'.val mem := by
  split_ifs <;> rfl

@[simp] theorem within_pure (a : α) : Within L (pure a) mem := by
  intro i hi
  exact absurd hi List.not_mem_nil

@[simp] theorem within_bind (m : Reads α) (f : α → Reads β) :
    Within L (m >>= f) mem ↔ Within L m mem ∧ Within L (f (m.val mem)) mem :=
  List.forall_mem_append

theorem within_ite {c : Prop} [Decidable c] (m m' : Reads α) :
    Within L (if c then m else m') mem ↔ (c → Within L m mem) ∧ (¬ c → Within L m' mem) := by
  split_ifs with h
  · exact ⟨fun hm => ⟨fun _ => hm, fun hn => absurd h hn⟩, fun hm => hm.1 h⟩
  · exact ⟨fun hm => ⟨fun hc => absurd hc h, fun _ => hm⟩, fun hm => hm.2 h⟩

end Reads

/-! ## integers -/

section
variable (mem : ℕ → UInt8)

def le16 (i : ℕ) : ℕ := (mem i).toNat + 256 * (mem (i + 1)).toNat

def le32 (i : ℕ) : ℕ := le16 mem i + 65536 * le16 mem (i + 2)

theorem le16_lt (i : ℕ) : le16 mem i < 65536 := by
  have h0 := (mem i).toNat_lt
  have h1 := (mem (i + 1)).toNat_lt
  unfold le16
  omega

theorem le32_lt (i : ℕ) : le32 mem i < 4294967296 := by
  have h0 := le16_lt mem i
  have h1 := le16_lt mem (i + 2)
  unfold le32
  omega

end

namespace Reads

def u8 (i : ℕ) : Reads ℕ := fun mem => ((mem i).toNat, [i])

def u16 (i : ℕ) : Reads ℕ := fun mem => (le16 mem i, [i, i + 1])

def u32 (i : ℕ) : Reads ℕ := fun mem => (le32 mem i, [i, i + 1, i + 2, i + 3])

variable (mem : ℕ → UInt8) (L i : ℕ)

@[simp] theorem val_u8 : (u8 i).val mem = (mem i).toNat := rfl
@[simp] theorem val_u16 : (u16 i).val mem = le16 mem i := rfl
@[simp] theorem val_u32 : (u32 i).val mem = le32 mem i := rfl

@[simp] theorem within_u8 : Within L (u8 i) mem ↔ i < L := List.forall_mem_singleton

@[simp] theorem within_u16 : Within L (u16 i) mem ↔ i + 1 < L := by
  constructor
  · intro h
    exact h (i + 1) (by simp [touched, u16])
  · intro h j hj
    simp only [touched, u16, List.mem_cons, List.not_mem_nil, or_false] at hj
    omega

@[simp] theorem within_u32 : Within L (u32 i) mem ↔ i + 3 < L := by
  constructor
  · intro h
    exact h (i + 3) (by simp [touched, u32])
  · intro h j hj
    simp only [touched, u32, List.mem_cons, List.not_mem_nil, or_false] at hj
    omega

end Reads

/-! ## records -/

/-- the `n` bytes from `i` on -/
def Record.ofMem (mem : ℕ → UInt8) (i n : ℕ) : Record n :=
  ⟨(List.range n).map fun j => mem (i + j), by rw [List.length_map, List.length_range]⟩

section
variable {n : ℕ} (mem : ℕ → UInt8) (i : ℕ)

theorem Region.get_ofMem (g : Region n) :
    g.get (.ofMem mem i n) = (List.range g.len).map fun j => mem (i + g.off + j) := by
  have hfit := g.fits
  apply List.ext_getElem?
  intro j
  by_cases hj : j < g.len
  · rw [g.getElem?_get _ hj, Record.ofMem, List.getElem?_map, List.getElem?_map,
      List.getElem?_range (by omega), List.getElem?_range hj, Option.map_some, Option.map_some,
      Nat.add_assoc]
  · rw [List.getElem?_eq_none (by rw [Region.length_get]; omega),
      List.getElem?_eq_none (by rw [List.length_map, List.length_range]; omega)]

/-- a record is what its own bytes are copied to -/
theorem Record.ofMem_getD (r : Record n) : Record.ofMem (fun j => r.1.getD j 0) 0 n = r := by
  apply Subtype.ext
  apply List.ext_getElem?
  intro j
  show ((List.range n).map fun j => r.1.getD (0 + j) 0)[j]? = r.1[j]?
  by_cases hj : j < n
  · rw [List.getElem?_map, List.getElem?_range hj, Option.map_some, Nat.zero_add,
      List.getD_eq_getElem?_getD, List.getElem?_eq_getElem (r.2.symm ▸ hj), Option.getD_some]
  · rw [List.getElem?_eq_none (by rw [List.length_map, List.length_range]; omega),
      List.getElem?_eq_none (by rw [r.2]; omega)]

theorem Field.get_ofMem8 (f : Field n 8) :
    f.get (.ofMem mem i n) = BitVec.ofNat 8 (mem (i + f.off)).toNat := by
  rw [Field.get, Region.get_ofMem]
  rfl

theorem Field.get_ofMem16 (f : Field n 16) :
    f.get (.ofMem mem i n) = BitVec.ofNat 16 (le16 mem (i + f.off)) := by
  rw [Field.get, Region.get_ofMem]
  rfl

theorem Field.get_ofMem32 (f : Field n 32) :
    f.get (.ofMem mem i n) = BitVec.ofNat 32 (le32 mem (i + f.off)) := by
  have hrange : List.range (32 / 8) = [0, 1, 2, 3] := rfl
  rw [Field.get, Region.get_ofMem]
  show BitVec.ofNat 32 (leNat ((List.range (32 / 8)).map fun j => mem (i + f.off + j))) = _
  rw [hrange]
  simp only [List.map_cons, List.map_nil, leNat, le32, le16, Nat.add_assoc, Nat.reduceAdd, Nat.add_zero]
  congr 1
  omega

end

namespace Reads

/-- `memcpy` of `n` bytes -/
def copy (i n : ℕ) : Reads (Record n) := fun mem =>
  (.ofMem mem i n, (List.range n).map fun j => i + j)

@[simp] theorem val_copy (mem : ℕ → UInt8) (i n : ℕ) : (copy i n).val mem = .ofMem mem i n := rfl

theorem within_copy (mem : ℕ → UInt8) {L i n : ℕ} (h : i + n ≤ L) : Within L (copy i n) mem := by
  intro k hk
  obtain ⟨j, hj, rfl⟩ := List.mem_map.mp hk
  have hlt := List.mem_range.mp hj
  omega

end Reads

end Conc
