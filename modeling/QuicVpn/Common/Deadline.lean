import QuicVpn.Lib.Word
import QuicVpn.Common.Basic

/-!
# Deadlines

A timed wait adds milliseconds to the time.  The addition is written twice, and both copies compare the
seconds with their limit before the carry of the nanoseconds is known.

* `stateSyncTimespecAddMs`, `cntSyncDeadline`   the two copies; `none` is a signed overflow;
* `Timespec.deadline`       what both compute;
* `Timespec.Exact`          an accepted sum is the exact one, a refused one too large;
* `Timespec.CarryAtLimit`   the carry comes when the seconds are at their limit.

The main result is `deadline_exact_iff`.
-/

set_option linter.unusedSectionVars false

namespace QuicVpn
open Conc

/-- `struct timespec` -/
structure Timespec where
  tvSec : ℤ
  tvNsec : ℤ

/-- the returned code and the time -/
def stateSyncTimespecAddMs (ts : Timespec) (timeoutMs : BitVec 32) : Option (ℤ × Timespec) := do
  let secAdd : BitVec 64 := (timeoutMs / 1000).setWidth 64
  let nsecAdd : BitVec 64 := (timeoutMs % 1000).setWidth 64 * 1000000
  let limit ← subS int64Max secAdd.toInt
  if ts.tvSec > limit then pure (einval, ts)
  else
    let sec ← addS ts.tvSec secAdd.toInt
    let nsec ← addS ts.tvNsec nsecAdd.toInt
    if nsec ≥ 1000000000 then
      let sec' ← addS sec 1
      let nsec' ← subS nsec 1000000000
      pure (0, ⟨sec', nsec'⟩)
    else pure (0, ⟨sec, nsec⟩)

/-- the first part of `cnt_sync_wait_zero_ms`: the result and `errno` if it returns here, and the
time -/
def cntSyncDeadline (ts : Timespec) (timeoutMs : BitVec 64) : Option (Option (ℤ × ℤ) × Timespec) := do
  let secAdd : BitVec 64 := timeoutMs / 1000
  let nsecAdd : BitVec 64 := timeoutMs % 1000 * 1000000
  let limit ← subS int64Max secAdd.toInt
  if ts.tvSec > limit then pure (some (-1, 22), ts)
  else
    let sec ← addS ts.tvSec secAdd.toInt
    let nsec ← addS ts.tvNsec nsecAdd.toInt
    if nsec ≥ 1000000000 then
      let sec' ← addS sec 1
      let nsec' ← subS nsec 1000000000
      pure (none, ⟨sec', nsec'⟩)
    else pure (none, ⟨sec, nsec⟩)

namespace Timespec
variable (ts : Timespec) (ms : ℕ)

def Valid : Prop := 0 ≤ ts.tvSec ∧ ts.tvSec ≤ int64Max ∧ 0 ≤ ts.tvNsec ∧ ts.tvNsec < 1000000000

def nanos : ℤ := ts.tvSec * 1000000000 + ts.tvNsec

/-- the time `ms` milliseconds later -/
def later : ℤ := ts.nanos + ms * 1000000

/-- the seconds are at their limit when the nanoseconds carry -/
def CarryAtLimit : Prop :=
  ts.tvSec + (ms / 1000 : ℕ) = int64Max ∧ 1000000000 ≤ ts.tvNsec + (ms % 1000 * 1000000 : ℕ)

instance : Decidable (ts.CarryAtLimit ms) :=
  inferInstanceAs (Decidable (_ ∧ _))

/-- a sum that is accepted is exact, and one that is refused has too many seconds -/
def Exact : Option (Bool × Timespec) → Prop
  | none => False
  | some (true, ts') => 0 ≤ ts'.tvNsec ∧ ts'.tvNsec < 1000000000 ∧ ts'.nanos = ts.later ms
  | some (false, ts') => ts' = ts ∧ int64Max < ts.later ms / 1000000000

/-- what both copies compute -/
def deadline : Option (Bool × Timespec) :=
  if int64Max < ts.tvSec + (ms / 1000 : ℕ) then some (false, ts)
  else if ts.CarryAtLimit ms then none
  else some (true, ⟨ts.later ms / 1000000000, ts.later ms % 1000000000⟩)

variable {ts ms}

/-- the exact sum is accepted, unless the carry is lost -/
theorem exact_deadline_iff (h : ts.Valid) : ts.Exact ms (ts.deadline ms) ↔ ¬ ts.CarryAtLimit ms := by
  obtain ⟨hs, -, hn, -⟩ := h
  unfold deadline
  by_cases hbig : int64Max < ts.tvSec + (ms / 1000 : ℕ)
  · rw [if_pos hbig]
    have hnot : ¬ ts.CarryAtLimit ms := fun hc => absurd hc.1 (by omega)
    refine iff_of_true ⟨rfl, ?_⟩ hnot
    have hlater : (ts.tvSec + (ms / 1000 : ℕ)) * 1000000000 ≤ ts.later ms := by
      unfold later nanos
      omega
    omega
  · rw [if_neg hbig]
    by_cases hc : ts.CarryAtLimit ms
    · rw [if_pos hc]
      exact iff_of_false id (not_not_intro hc)
    · rw [if_neg hc]
      refine iff_of_true ⟨?_, ?_, ?_⟩ hc
      · exact Int.emod_nonneg _ (by decide)
      · exact Int.emod_lt_of_pos _ (by decide)
      · exact Int.ediv_mul_add_emod _ _

/-- the shape of both copies: what is returned with a refusal and with a sum, and the two parts of the
timeout -/
def addParts {α : Type} (ts : Timespec) (refused accepted : α) (secAdd nsecAdd : ℤ) :
    Option (α × Timespec) := do
  let limit ← subS int64Max secAdd
  if ts.tvSec > limit then pure (refused, ts)
  else
    let sec ← addS ts.tvSec secAdd
    let nsec ← addS ts.tvNsec nsecAdd
    if nsec ≥ 1000000000 then
      let sec' ← addS sec 1
      let nsec' ← subS nsec 1000000000
      pure (accepted, ⟨sec', nsec'⟩)
    else pure (accepted, ⟨sec, nsec⟩)

section
variable {α : Type} {refused accepted : α} {s n : ℤ}

/-- the parts of a timeout are far from the limits: only the carry can overflow -/
theorem addParts_of_limit (hs : 0 ≤ s) (hs' : s < 2 ^ 60) (hbig : int64Max < ts.tvSec + s) :
    ts.addParts refused accepted s n = some (refused, ts) := by
  have hmax : int64Max = 9223372036854775807 := rfl
  have hmin : int64Min = -9223372036854775808 := rfl
  unfold addParts
  rw [subS_some (by omega) (by omega)]
  dsimp only [Option.bind_eq_bind, Option.bind_some]
  rw [if_pos (by omega)]
  rfl

theorem addParts_of_le (h : ts.Valid) (hs : 0 ≤ s) (hn : 0 ≤ n) (hn' : n < 1000000000)
    (hle : ts.tvSec + s ≤ int64Max) : ts.addParts refused accepted s n =
      if 1000000000 ≤ ts.tvNsec + n then
        (addS (ts.tvSec + s) 1).bind fun sec => some (accepted, ⟨sec, ts.tvNsec + n - 1000000000⟩)
      else some (accepted, ⟨ts.tvSec + s, ts.tvNsec + n⟩) := by
  obtain ⟨h1, -, h2, h3⟩ := h
  have hmax : int64Max = 9223372036854775807 := rfl
  have hmin : int64Min = -9223372036854775808 := rfl
  unfold addParts
  rw [subS_some (by omega) (by omega)]
  dsimp only [Option.bind_eq_bind, Option.bind_some]
  rw [if_neg (by omega), addS_some (by omega) (by omega), addS_some (by omega) (by omega)]
  dsimp only [Option.bind_some]
  by_cases hc : 1000000000 ≤ ts.tvNsec + n
  · rw [if_pos hc, if_pos hc, subS_some (by omega) (by omega)]
    rfl
  · rw [if_neg hc, if_neg hc]
    rfl

end

/-- **What the copies compute**, for a function that tells a refusal from a sum. -/
theorem addParts_eq_deadline {α : Type} {refused accepted : α} (f : α → Bool) (hr : f refused = false)
    (ha : f accepted = true) (h : ts.Valid) (hms : ms < 2 ^ 64) :
    (ts.addParts refused accepted (ms / 1000 : ℕ) (ms % 1000 * 1000000 : ℕ)).map
      (fun r => (f r.1, r.2)) = ts.deadline ms := by
  have hsum : ts.later ms = (ts.tvSec + (ms / 1000 : ℕ)) * 1000000000 +
      (ts.tvNsec + (ms % 1000 * 1000000 : ℕ)) := by
    unfold later nanos
    omega
  unfold deadline
  by_cases hbig : int64Max < ts.tvSec + (ms / 1000 : ℕ)
  · rw [if_pos hbig, addParts_of_limit (by omega) (by omega) hbig, Option.map_some, hr]
  · obtain ⟨h1, -, h2, h3⟩ := id h
    rw [if_neg hbig, addParts_of_le h (by omega) (by omega) (by omega) (by omega)]
    by_cases hcarry : 1000000000 ≤ ts.tvNsec + (ms % 1000 * 1000000 : ℕ)
    · rw [if_pos hcarry]
      by_cases hlim : ts.tvSec + (ms / 1000 : ℕ) = int64Max
      · rw [if_pos ⟨hlim, hcarry⟩, addS_none (by omega)]
        rfl
      · have hmin : int64Min = -9223372036854775808 := rfl
        have hdiv : ts.later ms / 1000000000 = ts.tvSec + (ms / 1000 : ℕ) + 1 := by omega
        have hmod : ts.later ms % 1000000000 =
            ts.tvNsec + (ms % 1000 * 1000000 : ℕ) - 1000000000 := by omega
        rw [if_neg (fun hc => hlim hc.1), addS_some (by omega) (by omega), Option.bind_some,
          Option.map_some, ha, hdiv, hmod]
    · have hdiv : ts.later ms / 1000000000 = ts.tvSec + (ms / 1000 : ℕ) := by omega
      have hmod : ts.later ms % 1000000000 = ts.tvNsec + (ms % 1000 * 1000000 : ℕ) := by omega
      rw [if_neg hcarry, if_neg (fun hc => hcarry hc.2), Option.map_some, ha, hdiv, hmod]

end Timespec

/-! ## the two copies -/

theorem toInt_of_toNat {x : BitVec 64} {n : ℕ} (h : x.toNat = n) (hn : n < 2 ^ 63) : x.toInt = n := by
  rw [BitVec.toInt_eq_toNat_of_lt (by omega), h]

theorem stateSyncTimespecAddMs_eq (ts : Timespec) (t : BitVec 32) :
    stateSyncTimespecAddMs ts t =
      ts.addParts einval 0 (t.toNat / 1000 : ℕ) (t.toNat % 1000 * 1000000 : ℕ) := by
  have hlt := t.isLt
  have h1000 : (1000 : BitVec 32).toNat = 1000 := rfl
  have hmillion : (1000000 : BitVec 64).toNat = 1000000 := rfl
  have hsec : ((t / 1000).setWidth 64).toInt = (t.toNat / 1000 : ℕ) := by
    refine toInt_of_toNat ?_ (by omega)
    rw [BitVec.toNat_setWidth, BitVec.toNat_udiv, h1000]
    exact Nat.mod_eq_of_lt (by omega)
  have hnsec : ((t % 1000).setWidth 64 * 1000000).toInt = (t.toNat % 1000 * 1000000 : ℕ) := by
    refine toInt_of_toNat ?_ (by omega)
    rw [BitVec.toNat_mul, BitVec.toNat_setWidth, BitVec.toNat_umod, h1000, hmillion]
    omega
  rw [← hsec, ← hnsec]
  rfl

theorem cntSyncDeadline_eq (ts : Timespec) (t : BitVec 64) :
    cntSyncDeadline ts t =
      ts.addParts (some (-1, 22)) none (t.toNat / 1000 : ℕ) (t.toNat % 1000 * 1000000 : ℕ) := by
  have hlt := t.isLt
  have h1000 : (1000 : BitVec 64).toNat = 1000 := rfl
  have hmillion : (1000000 : BitVec 64).toNat = 1000000 := rfl
  have hsec : (t / 1000).toInt = (t.toNat / 1000 : ℕ) := by
    refine toInt_of_toNat ?_ (by omega)
    rw [BitVec.toNat_udiv, h1000]
  have hnsec : (t % 1000 * 1000000).toInt = (t.toNat % 1000 * 1000000 : ℕ) := by
    refine toInt_of_toNat ?_ (by omega)
    rw [BitVec.toNat_mul, BitVec.toNat_umod, h1000, hmillion]
    omega
  rw [← hsec, ← hnsec]
  rfl

/-- a sum of `state_sync_timespec_add_ms` is accepted if the code is `0` -/
def stateSyncAccepted (r : ℤ × Timespec) : Bool × Timespec := (decide (r.1 = 0), r.2)

/-- `cnt_sync_wait_zero_ms` goes on with its deadline -/
def cntSyncAccepted (r : Option (ℤ × ℤ) × Timespec) : Bool × Timespec := (r.1.isNone, r.2)

theorem stateSync_deadline {ts : Timespec} (h : ts.Valid) (t : BitVec 32) :
    (stateSyncTimespecAddMs ts t).map stateSyncAccepted = ts.deadline t.toNat := by
  rw [stateSyncTimespecAddMs_eq]
  exact Timespec.addParts_eq_deadline (fun code : ℤ => decide (code = 0)) rfl rfl h (by omega)

theorem cntSync_deadline {ts : Timespec} (h : ts.Valid) (t : BitVec 64) :
    (cntSyncDeadline ts t).map cntSyncAccepted = ts.deadline t.toNat := by
  rw [cntSyncDeadline_eq]
  exact Timespec.addParts_eq_deadline Option.isNone rfl rfl h t.isLt

/-- **Deadlines.**  For every valid time and every timeout, each copy is exact and free of overflow
unless the nanoseconds carry when the seconds are at their limit; on a timeout that both can be given
they do the same. -/
theorem deadline_exact_iff (ts : Timespec) (h : ts.Valid) :
    (∀ t : BitVec 32, ts.Exact t.toNat ((stateSyncTimespecAddMs ts t).map stateSyncAccepted) ↔
      ¬ ts.CarryAtLimit t.toNat) ∧
    (∀ t : BitVec 64, ts.Exact t.toNat ((cntSyncDeadline ts t).map cntSyncAccepted) ↔
      ¬ ts.CarryAtLimit t.toNat) ∧
    ∀ (t : BitVec 32) (u : BitVec 64), t.toNat = u.toNat →
      (stateSyncTimespecAddMs ts t).map stateSyncAccepted =
        (cntSyncDeadline ts u).map cntSyncAccepted := by
  refine ⟨fun t => ?_, fun t => ?_, fun t u e => ?_⟩
  · rw [stateSync_deadline h]
    exact Timespec.exact_deadline_iff h
  · rw [cntSync_deadline h]
    exact Timespec.exact_deadline_iff h
  · rw [stateSync_deadline h, cntSync_deadline h, e]

/-- five minutes and 999 milliseconds after some time -/
theorem deadline_exact_iff_minutes :
    Timespec.Exact ⟨1000, 999000000⟩ 300999
      ((stateSyncTimespecAddMs ⟨1000, 999000000⟩ 300999).map stateSyncAccepted) :=
  ((deadline_exact_iff ⟨1000, 999000000⟩ ⟨by decide, by decide, by decide, by decide⟩).1 300999).mpr
    (by decide)

/-- one millisecond more than the greatest time: the guard lets it pass, and the carry overflows -/
theorem carry_overflows :
    Timespec.Valid ⟨9223372036854775807, 999999999⟩ ∧
      stateSyncTimespecAddMs ⟨9223372036854775807, 999999999⟩ 1 = none ∧
      cntSyncDeadline ⟨9223372036854775807, 999999999⟩ 1 = none ∧
      ¬ Timespec.Exact ⟨9223372036854775807, 999999999⟩ 1
        ((stateSyncTimespecAddMs ⟨9223372036854775807, 999999999⟩ 1).map stateSyncAccepted) := by
  have hnone : stateSyncTimespecAddMs ⟨9223372036854775807, 999999999⟩ 1 = none := by decide
  refine ⟨⟨by decide, by decide, by decide, by decide⟩, hnone, by decide, ?_⟩
  rw [hnone]
  exact id

end QuicVpn
