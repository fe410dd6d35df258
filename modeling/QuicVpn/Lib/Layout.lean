import Mathlib.Data.BitVec
import Mathlib.Tactic.Ring

/-!
# Packed records

A record of `n` bytes is a list of that length.  A part of it is

* `Region n`    some bytes in a row: an array, or a string;
* `Field n w`   an unsigned integer of `w` bits, least significant byte first.

Both carry the proof that they lie inside the record, so reading back what was written has no side
condition (`Region.get_write`, `Field.get_set`), and a write elsewhere is not seen
(`Region.get_write_of_apart`, `Field.get_set_of_apart`).
-/

set_option linter.unusedSectionVars false

namespace Conc

/-! ## writing over a part of a list -/

section
variable {α : Type*}

/-- `src` written over `m` from position `off` on; what would fall past the end is dropped -/
def put (m : List α) (off : ℕ) (src : List α) : List α :=
  m.mapIdx fun i b => if off ≤ i then src.getD (i - off) b else b

theorem length_put (m : List α) (off : ℕ) (src : List α) : (put m off src).length = m.length :=
  List.length_mapIdx

theorem getElem?_put_of_lt (m : List α) {off : ℕ} (src : List α) {j : ℕ} (h : j < off) :
    (put m off src)[j]? = m[j]? := by
  unfold put
  rw [List.getElem?_mapIdx]
  simp only [Nat.not_le.mpr h, if_false, Option.map_id']

theorem getElem?_put_of_le (m : List α) (off : ℕ) (src : List α) {j : ℕ}
    (h : off + src.length ≤ j) : (put m off src)[j]? = m[j]? := by
  have h1 : off ≤ j := by omega
  have h2 : src[j - off]? = none := by
    rw [List.getElem?_eq_none_iff]
    omega
  unfold put
  rw [List.getElem?_mapIdx]
  simp only [h1, if_true, List.getD_eq_getElem?_getD, h2, Option.getD_none, Option.map_id']

theorem getElem?_put_add (m : List α) (off : ℕ) (src : List α) {i : ℕ} (h : i < src.length)
    (hm : off + i < m.length) : (put m off src)[off + i]? = src[i]? := by
  unfold put
  rw [List.getElem?_mapIdx, List.getElem?_eq_getElem hm, List.getElem?_eq_getElem h]
  simp [h]

end

/-! ## regions -/

/-- a record of `n` bytes -/
abbrev Record (n : ℕ) := { m : List UInt8 // m.length = n }

/-- what `calloc` returns -/
def Record.zero (n : ℕ) : Record n := ⟨List.replicate n 0, List.length_replicate⟩

/-- `len` bytes from `off` on -/
structure Region (n : ℕ) where
  off : ℕ
  len : ℕ
  fits : off + len ≤ n

section
variable {n : ℕ}

def Region.get (g : Region n) (r : Record n) : List UInt8 := (r.1.drop g.off).take g.len

/-- the bytes of `src`, as many as there is room for -/
def Region.write (g : Region n) (r : Record n) (src : List UInt8) : Record n :=
  ⟨put r.1 g.off (src.take g.len), (length_put ..).trans r.2⟩

/-- the regions do not overlap -/
def Region.Apart (g h : Region n) : Prop := g.off + g.len ≤ h.off ∨ h.off + h.len ≤ g.off

instance (g h : Region n) : Decidable (g.Apart h) := inferInstanceAs (Decidable (_ ∨ _))

theorem Region.length_get (g : Region n) (r : Record n) : (g.get r).length = g.len := by
  have h := g.fits
  rw [Region.get, List.length_take, List.length_drop, r.2]
  omega

theorem Region.getElem?_get (g : Region n) (r : Record n) {i : ℕ} (h : i < g.len) :
    (g.get r)[i]? = r.1[g.off + i]? := by
  rw [Region.get, List.getElem?_take_of_lt h, List.getElem?_drop]

/-- what was written is there, and after it what was there before -/
theorem Region.get_write (g : Region n) (r : Record n) {src : List UInt8} (h : src.length ≤ g.len) :
    g.get (g.write r src) = src ++ (g.get r).drop src.length := by
  have hfit := g.fits
  apply List.ext_getElem?
  intro i
  by_cases hi : i < g.len
  · have hm : g.off + i < r.1.length := by
      rw [r.2]
      omega
    rw [g.getElem?_get _ hi]
    show (put r.1 g.off (src.take g.len))[g.off + i]? = _
    rw [List.take_of_length_le h]
    by_cases hs : i < src.length
    · rw [getElem?_put_add r.1 g.off src hs hm, List.getElem?_append_left hs]
    · rw [getElem?_put_of_le r.1 g.off src (by omega), List.getElem?_append_right (by omega),
        List.getElem?_drop, show src.length + (i - src.length) = i by omega, g.getElem?_get r hi]
  · rw [List.getElem?_eq_none (by rw [g.length_get]; omega), List.getElem?_eq_none
      (by rw [List.length_append, List.length_drop, g.length_get]; omega)]

theorem Region.get_write_all (g : Region n) (r : Record n) {src : List UInt8}
    (h : src.length = g.len) : g.get (g.write r src) = src := by
  rw [g.get_write r h.le, List.drop_of_length_le (by rw [g.length_get, h]), List.append_nil]

theorem Region.get_write_of_apart {g h : Region n} (ha : g.Apart h) (r : Record n)
    (src : List UInt8) : h.get (g.write r src) = h.get r := by
  apply List.ext_getElem?
  intro i
  by_cases hi : i < h.len
  · rw [h.getElem?_get _ hi, h.getElem?_get r hi]
    show (put r.1 g.off (src.take g.len))[h.off + i]? = _
    rcases ha with ha | ha
    · refine getElem?_put_of_le _ _ _ ?_
      rw [List.length_take]
      omega
    · exact getElem?_put_of_lt _ _ (by omega)
  · rw [List.getElem?_eq_none (by rw [h.length_get]; omega),
      List.getElem?_eq_none (by rw [h.length_get]; omega)]

theorem Region.get_zero (g : Region n) : g.get (Record.zero n) = List.replicate g.len 0 := by
  have h := g.fits
  show ((List.replicate n 0).drop g.off).take g.len = _
  rw [List.drop_replicate, List.take_replicate]
  congr 1
  omega

end

/-! ## numbers -/

/-- the `n` low bytes of a number -/
def leBytes : ℕ → ℕ → List UInt8
  | 0, _ => []
  | n + 1, v => UInt8.ofNat v :: leBytes n (v / 256)

def leNat : List UInt8 → ℕ
  | [] => 0
  | b :: l => b.toNat + 256 * leNat l

theorem length_leBytes (n v : ℕ) : (leBytes n v).length = n := by
  induction n generalizing v with
  | zero => rfl
  | succ n ih => rw [leBytes, List.length_cons, ih]

theorem leNat_leBytes (n v : ℕ) : leNat (leBytes n v) = v % 256 ^ n := by
  induction n generalizing v with
  | zero => rw [pow_zero, Nat.mod_one]; rfl
  | succ n ih =>
    rw [leBytes, leNat, ih, UInt8.toNat_ofNat', show 2 ^ 8 = 256 by rfl, pow_succ', Nat.mod_mul]

theorem leNat_replicate_zero (n : ℕ) : leNat (List.replicate n 0) = 0 := by
  induction n with
  | zero => rfl
  | succ n ih => rw [List.replicate_succ, leNat, ih]; rfl

/-! ## fields -/

/-- an unsigned integer of `w` bits at byte `off` -/
structure Field (n w : ℕ) where
  off : ℕ
  whole : 8 * (w / 8) = w
  fits : off + w / 8 ≤ n

section
variable {n w : ℕ}

def Field.region (f : Field n w) : Region n := ⟨f.off, w / 8, f.fits⟩

def Field.get (f : Field n w) (r : Record n) : BitVec w := BitVec.ofNat w (leNat (f.region.get r))

def Field.set (f : Field n w) (r : Record n) (v : BitVec w) : Record n :=
  f.region.write r (leBytes (w / 8) v.toNat)

@[simp] theorem Field.get_set (f : Field n w) (r : Record n) (v : BitVec w) :
    f.get (f.set r v) = v := by
  have hlen : (leBytes (w / 8) v.toNat).length = f.region.len := length_leBytes ..
  have hpow : 256 ^ (w / 8) = 2 ^ w := by
    rw [show 256 = 2 ^ 8 by rfl, ← pow_mul, f.whole]
  rw [Field.get, Field.set, f.region.get_write_all r hlen, leNat_leBytes, hpow,
    Nat.mod_eq_of_lt v.isLt, BitVec.ofNat_toNat, BitVec.setWidth_eq]

theorem Field.get_write_of_apart {g : Region n} {f : Field n w} (h : g.Apart f.region)
    (r : Record n) (src : List UInt8) : f.get (g.write r src) = f.get r := by
  rw [Field.get, Field.get, Region.get_write_of_apart h]

theorem Field.get_set_of_apart {w' : ℕ} {g : Field n w'} {f : Field n w}
    (h : g.region.Apart f.region) (r : Record n) (v : BitVec w') : f.get (g.set r v) = f.get r :=
  Field.get_write_of_apart h r _

theorem Region.get_set_of_apart {g : Field n w} {h : Region n} (ha : g.region.Apart h)
    (r : Record n) (v : BitVec w) : h.get (g.set r v) = h.get r :=
  Region.get_write_of_apart ha r _

theorem Field.get_zero (f : Field n w) : f.get (Record.zero n) = 0 := by
  rw [Field.get, Region.get_zero, leNat_replicate_zero]
  rfl

end

end Conc
