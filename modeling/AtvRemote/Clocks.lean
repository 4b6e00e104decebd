import Mathlib.Algebra.Group.Int.Defs
import Mathlib.Data.List.Basic

namespace AtvRemote.Clocks

structure Duration where
  secs : UInt64
  nanos : Fin 1000000000
  deriving DecidableEq

/-- A reading of a clock that counts seconds from an unspecified moment. -/
structure Instant where
  secs : Int64
  nanos : Fin 1000000000
  deriving DecidableEq, Inhabited

def Duration.fromSecs (n : UInt64) : Duration := ⟨n, 0⟩

def Duration.isZero (d : Duration) : Bool := d.secs == 0 && d.nanos.val == 0

def checkedAddUnsigned (a : Int64) (b : UInt64) : Option Int64 :=
  let sum := a.toInt + b.toNat
  if sum < 2 ^ 63 then some (Int64.ofInt sum) else none

def Instant.checkedAdd (t : Instant) (d : Duration) : Option Instant :=
  (checkedAddUnsigned t.secs d.secs).bind fun secs =>
    let nanos := d.nanos.val + t.nanos.val
    if h : nanos < 1000000000 then some ⟨secs, ⟨nanos, h⟩⟩
    else (checkedAddUnsigned secs 1).map fun secs => ⟨secs, ⟨nanos - 1000000000, by omega⟩⟩

def Instant.before (t u : Instant) : Prop := t.secs < u.secs ∨ t.secs = u.secs ∧ t.nanos < u.nanos
  deriving Decidable

def Instant.checkedDurationSince (t earlier : Instant) : Option Duration :=
  if t.before earlier then none
  else if h : earlier.nanos ≤ t.nanos then
    some ⟨(t.secs - earlier.secs).toUInt64, ⟨t.nanos - earlier.nanos, by omega⟩⟩
  else some ⟨(t.secs - 1 - earlier.secs).toUInt64, ⟨t.nanos + 1000000000 - earlier.nanos, by omega⟩⟩

def Duration.toNanos (d : Duration) : Nat := d.secs.toNat * 1000000000 + d.nanos

def Instant.toNanos (t : Instant) : Int := t.secs.toInt * 1000000000 + t.nanos

theorem isZero_iff {d : Duration} : d.isZero = true ↔ d.toNanos = 0 := by
  unfold Duration.isZero Duration.toNanos
  rw [Bool.and_eq_true_iff, beq_iff_eq, beq_iff_eq, ← UInt64.toNat_inj]
  have hzero : (0 : UInt64).toNat = 0 := rfl
  omega

theorem toNanos_fromSecs (n : UInt64) : (Duration.fromSecs n).toNanos = n.toNat * 1000000000 :=
  Nat.add_zero _

theorem checkedAddUnsigned_some {a c : Int64} {b : UInt64} (h : checkedAddUnsigned a b = some c) :
    c.toInt = a.toInt + b.toNat := by
  unfold checkedAddUnsigned at h
  dsimp only at h
  split at h
  next hsum =>
    obtain rfl := Option.some.inj h
    have hle := a.le_toInt
    rw [Int64.toInt_ofInt_of_le (by omega) (by omega)]
  next => cases h

theorem checkedAddUnsigned_none {a : Int64} {b : UInt64} :
    checkedAddUnsigned a b = none ↔ 2 ^ 63 ≤ a.toInt + b.toNat := by
  unfold checkedAddUnsigned
  dsimp only
  split
  · simp; omega
  · simp; omega

theorem sub_toUInt64 {a b : Int64} (h : b.toInt ≤ a.toInt) :
    ((a - b).toUInt64.toNat : Int) = a.toInt - b.toInt := by
  have hsub : (a - b).toUInt64.toNat = (a.toBitVec - b.toBitVec).toNat := rfl
  have ha : a.toInt = a.toBitVec.toInt := rfl
  have hb : b.toInt = b.toBitVec.toInt := rfl
  have hlta := a.toBitVec.isLt
  have hltb := b.toBitVec.isLt
  rw [ha, hb, BitVec.toInt_eq_toNat_cond, BitVec.toInt_eq_toNat_cond] at h
  rw [hsub, BitVec.toNat_sub, ha, hb, BitVec.toInt_eq_toNat_cond, BitVec.toInt_eq_toNat_cond]
  omega

theorem before_iff {t u : Instant} : t.before u ↔ t.toNanos < u.toNanos := by
  unfold Instant.before Instant.toNanos
  rw [Int64.lt_iff_toInt_lt, ← Int64.toInt_inj, Fin.lt_def]
  omega

theorem toNanos_checkedAdd {t t' : Instant} {d : Duration} (h : t.checkedAdd d = some t') :
    t'.toNanos = t.toNanos + d.toNanos := by
  unfold Instant.checkedAdd at h
  obtain ⟨secs, hsecs, h⟩ := Option.bind_eq_some_iff.mp h
  have hsecs := checkedAddUnsigned_some hsecs
  dsimp only at h
  split at h
  next =>
    obtain rfl := Option.some.inj h
    simp only [Instant.toNanos, Duration.toNanos]
    omega
  next =>
    obtain ⟨secs', hsecs', rfl⟩ := Option.map_eq_some_iff.mp h
    have hsecs' := checkedAddUnsigned_some hsecs'
    have hone : (1 : UInt64).toNat = 1 := rfl
    simp only [Instant.toNanos, Duration.toNanos]
    omega

/-- The sum overflows exactly if it is not before the end of the seconds. -/
theorem checkedAdd_none {t : Instant} {d : Duration} :
    t.checkedAdd d = none ↔ 2 ^ 63 * 1000000000 ≤ t.toNanos + d.toNanos := by
  have ht := t.nanos.isLt
  have hd := d.nanos.isLt
  unfold Instant.checkedAdd Instant.toNanos Duration.toNanos
  cases hsecs : checkedAddUnsigned t.secs d.secs with
  | none =>
      have hsum := checkedAddUnsigned_none.mp hsecs
      simp only [Option.bind_none, true_iff]
      omega
  | some secs =>
      have hsum := checkedAddUnsigned_some hsecs
      have hmax := secs.toInt_lt
      dsimp only [Option.bind_some]
      split
      next =>
        simp only [reduceCtorEq, false_iff]
        omega
      next =>
        have hone : (1 : UInt64).toNat = 1 := rfl
        rw [Option.map_eq_none_iff, checkedAddUnsigned_none]
        omega

theorem checkedDurationSince_none {t earlier : Instant} :
    t.checkedDurationSince earlier = none ↔ t.toNanos < earlier.toNanos := by
  rw [← before_iff]
  unfold Instant.checkedDurationSince
  split
  next hbefore => simp [hbefore]
  next hbefore => split <;> simp [hbefore]

theorem toNanos_checkedDurationSince {t earlier : Instant} {d : Duration}
    (h : t.checkedDurationSince earlier = some d) :
    (d.toNanos : Int) = t.toNanos - earlier.toNanos := by
  unfold Instant.checkedDurationSince at h
  split at h
  next => cases h
  next hbefore =>
    have hle := mt before_iff.mpr hbefore
    unfold Instant.toNanos at hle
    have hmin := earlier.secs.le_toInt
    have hmax := t.secs.toInt_lt
    split at h
    next hnanos =>
      obtain rfl := Option.some.inj h
      have hnanos := Fin.le_def.mp hnanos
      have hsecs := @sub_toUInt64 t.secs earlier.secs (by omega)
      simp only [Duration.toNanos, Instant.toNanos]
      omega
    next hnanos =>
      obtain rfl := Option.some.inj h
      have hnanos := mt Fin.le_def.mpr hnanos
      have hone : (1 : Int64).toInt = 1 := rfl
      have hpred : (t.secs - 1).toInt = t.secs.toInt - 1 := by
        rw [Int64.toInt_sub, hone]
        exact Int.bmod_eq_of_le (by omega) (by omega)
      have hsecs := @sub_toUInt64 (t.secs - 1) earlier.secs (by omega)
      rw [hpred] at hsecs
      simp only [Duration.toNanos, Instant.toNanos]
      omega

end AtvRemote.Clocks
