import AtvRemote.Texts
import Mathlib.Algebra.GroupWithZero.Nat

namespace AtvRemote.HexDigits

open Texts

theorem toDigit_lt {c : Char} {d : Nat} (h : toDigit 16 c = some d) : d < 16 := by
  have hfilter := (Option.filter_eq_some_iff.mp h).2
  simpa using hfilter

theorem toDigit_ascii {c : Char} {d : Nat} (h : toDigit 16 c = some d) :
    c.utf8Size = 1 ∧ c ≠ '+' := by
  have hvalue := (Option.filter_eq_some_iff.mp h).1
  have hbounds : c.val ≤ 127 ∧ '0' ≤ c := by
    split at hvalue
    next hdigit => exact ⟨UInt32.le_trans hdigit.2 (by decide), hdigit.1⟩
    next =>
      split at hvalue
      next hlower =>
        exact ⟨UInt32.le_trans hlower.2 (by decide), UInt32.le_trans (by decide) hlower.1⟩
      next =>
        split at hvalue
        next hupper =>
          exact ⟨UInt32.le_trans hupper.2 (by decide), UInt32.le_trans (by decide) hupper.1⟩
        next => cases hvalue
  refine ⟨Char.utf8Size_eq_one_iff.mpr hbounds.1, ?_⟩
  rintro rfl
  exact absurd hbounds.2 (by decide)

theorem toLower_cases (c : Char) : c.toLower = c ∨ ∃ n : Fin 26, c = Char.ofNat (65 + n) := by
  by_cases h : c.val ≥ 'A'.val ∧ c.val ≤ 'Z'.val
  · have hle : 65 ≤ c.toNat ∧ c.toNat ≤ 90 :=
      ⟨UInt32.le_iff_toNat_le.mp h.1, UInt32.le_iff_toNat_le.mp h.2⟩
    refine .inr ⟨⟨c.toNat - 65, by omega⟩, ?_⟩
    dsimp only
    rw [Nat.add_sub_cancel' hle.1, Char.ofNat_toNat]
  · exact .inl (dif_neg h)

theorem toDigit_toLower (c : Char) : toDigit 16 c.toLower = toDigit 16 c := by
  have hupper : ∀ n : Fin 26, toDigit 16 (Char.ofNat (65 + n)).toLower = toDigit 16
      (Char.ofNat (65 + n)) := by decide
  rcases toLower_cases c with h | ⟨n, rfl⟩
  · rw [h]
  · exact hupper n

/-- A digit is written in one way up to the case of its letters. -/
theorem toLower_digit {c : Char} {d : Nat} (h : toDigit 16 c = some d) :
    c.toLower = Nat.digitChar d := by
  have hall : ∀ n : Fin 128, (toDigit 16 (Char.ofNat n)).all fun d => (Char.ofNat n).toLower ==
      Nat.digitChar d := by decide
  have hle : c.toNat ≤ 127 :=
    UInt32.le_iff_toNat_le.mp (Char.utf8Size_eq_one_iff.mp (toDigit_ascii h).1)
  have hc := hall ⟨c.toNat, by omega⟩
  rw [Char.ofNat_toNat, h] at hc
  simpa using hc

/-- The byte that two hexadecimal digits stand for. -/
def hexPair (a b : Nat) : UInt8 := UInt8.ofNat (a * 16 + b)

theorem hexPair_toNat {c d : Char} {a b : Nat} (hc : toDigit 16 c = some a)
    (hd : toDigit 16 d = some b) :
    (hexPair a b).toNat = a * 16 + b := by
  have ha := toDigit_lt hc
  have hb := toDigit_lt hd
  exact UInt8.toNat_ofNat_of_lt' (by omega : a * 16 + b < 256)

theorem fromStrRadix_pair {c d : Char} {a b : Nat} (hc : toDigit 16 c = some a)
    (hd : toDigit 16 d = some b) :
    fromStrRadix 16 (String.ofList [c, d]) = some (hexPair a b) := by
  have ha := toDigit_lt hc
  have hb := toDigit_lt hd
  have hplus := (toDigit_ascii hc).2
  have hfirst : 0 * 16 + a < 256 := by omega
  have hsecond : (0 * 16 + a) * 16 + b < 256 := by omega
  unfold fromStrRadix
  rw [String.toList_ofList]
  dsimp only
  split
  next heq => exact absurd (List.cons.inj heq).1 hplus
  next =>
    simp only [List.isEmpty_cons, List.foldlM_cons, List.foldlM_nil, hc, hd, Option.bind_eq_bind,
      Option.bind_some, if_pos hfirst,
      if_pos hsecond]
    simp [hexPair]

theorem mapM_toDigit {chars : List Char} (h : ∀ c ∈ chars, isAsciiHexdigit c = true) :
    ∃ digits, chars.mapM (toDigit 16) = some digits ∧
      List.Forall₂ (fun c d => toDigit 16 c = some d) chars digits := by
  induction chars with
  | nil => exact ⟨[], rfl, .nil⟩
  | cons c chars ih =>
      obtain ⟨hc, hchars⟩ := List.forall_mem_cons.mp h
      obtain ⟨d, hd⟩ := Option.isSome_iff_exists.mp hc
      obtain ⟨digits, hdigits, hall⟩ := ih hchars
      refine ⟨d :: digits, ?_, .cons hd hall⟩
      rw [List.mapM_cons, hd, hdigits]
      rfl

theorem forall₂_of_mapM {chars : List Char} {digits : List Nat}
    (h : chars.mapM (toDigit 16) = some digits) :
    List.Forall₂ (fun c d => toDigit 16 c = some d) chars digits := by
  induction chars generalizing digits with
  | nil =>
      cases h
      exact .nil
  | cons c chars ih =>
      rw [List.mapM_cons] at h
      obtain ⟨d, hd, h⟩ := Option.bind_eq_some_iff.mp h
      obtain ⟨rest, hrest, h⟩ := Option.bind_eq_some_iff.mp h
      cases h
      exact .cons hd (ih hrest)

theorem ascii_of_digits {chars : List Char} {digits : List Nat}
    (h : List.Forall₂ (fun c d => toDigit 16 c = some d) chars digits) :
    (∀ c ∈ chars, c.utf8Size = 1 ∧ isAsciiHexdigit c = true) ∧ chars.length = digits.length := by
  induction h with
  | nil => exact ⟨List.forall_mem_nil _, rfl⟩
  | cons hc _ ih =>
      refine ⟨List.forall_mem_cons.mpr ⟨⟨(toDigit_ascii hc).1, ?_⟩, ih.1⟩, congrArg Nat.succ ih.2⟩
      rw [isAsciiHexdigit, hc]
      rfl

theorem utf8ByteSize_ofList (chars : List Char) :
    (String.ofList chars).utf8ByteSize = (chars.map Char.utf8Size).sum := by
  induction chars with
  | nil => rfl
  | cons c chars ih =>
      have hcons : String.ofList (c :: chars) = String.singleton c ++ String.ofList chars := by
        apply String.toList_inj.mp
        simp
      rw [hcons, String.utf8ByteSize_append, String.utf8ByteSize_singleton, ih,
        List.map_cons, List.sum_cons]

theorem utf8ByteSize_ascii {s : String} (h : ∀ c ∈ s.toList, c.utf8Size = 1) :
    s.utf8ByteSize = s.toList.length := by
  have hsum : (s.toList.map Char.utf8Size).sum = s.toList.length := by
    rw [List.map_congr_left (g := fun _ => 1) h]
    simp
  rw [← hsum, ← utf8ByteSize_ofList, String.ofList_toList]

end AtvRemote.HexDigits
