import Mathlib.Data.Nat.Digits.Lemmas

namespace AtvRemote.Varints

/-- The base-128 encoding of a number, least significant group first. All
bytes but the last have their high bit set. -/
def encode (n : Nat) : List UInt8 :=
  if n < 128 then [UInt8.ofNat n] else UInt8.ofNat (n % 128 + 128) :: encode (n / 128)

def value (bytes : List UInt8) : Nat := Nat.ofDigits 128 (bytes.map fun b => b.toNat % 128)

def Terminated : List UInt8 → Prop
  | [] => False
  | [b] => b.toNat < 128
  | b :: bytes => 128 ≤ b.toNat ∧ Terminated bytes

@[simp] theorem value_nil : value [] = 0 := rfl

theorem value_cons (b : UInt8) (bytes : List UInt8) :
    value (b :: bytes) = b.toNat % 128 + 128 * value bytes := Nat.ofDigits_cons

theorem terminated_cons {b : UInt8} {bytes : List UInt8} :
    Terminated (b :: bytes) ↔ if b.toNat < 128 then bytes = [] else Terminated bytes := by
  cases bytes with
  | nil =>
      simp only [Terminated]
      split <;> simp_all
  | cons c bytes =>
      simp only [Terminated]
      split
      next h => simp; omega
      next h => simp; omega

theorem Terminated.ne_nil {bytes : List UInt8} (h : Terminated bytes) : bytes ≠ [] := by
  rintro rfl
  exact h

/-- A terminated encoding is never a proper beginning of another one. -/
theorem Terminated.unique {p q r s : List UInt8} (hp : Terminated p) (hq : Terminated q)
    (h : p ++ r = q ++ s) : p = q ∧ r = s := by
  induction p generalizing q with
  | nil => exact hp.elim
  | cons b p ih =>
      cases q with
      | nil => exact hq.elim
      | cons c q =>
          rw [List.cons_append, List.cons_append, List.cons.injEq] at h
          obtain ⟨rfl, h⟩ := h
          rw [terminated_cons] at hp hq
          split at hp
          next hlast =>
            rw [if_pos hlast] at hq
            rw [hp, hq] at h ⊢
            exact ⟨rfl, h⟩
          next hmore =>
            rw [if_neg hmore] at hq
            obtain ⟨rfl, hrest⟩ := ih hp hq h
            exact ⟨rfl, hrest⟩

theorem encode_of_lt {n : Nat} (h : n < 128) : encode n = [UInt8.ofNat n] := by
  rw [encode, if_pos h]

theorem encode_of_le {n : Nat} (h : 128 ≤ n) :
    encode n = UInt8.ofNat (n % 128 + 128) :: encode (n / 128) := by
  rw [encode, if_neg (Nat.not_lt.mpr h)]

theorem terminated_encode (n : Nat) : Terminated (encode n) := by
  induction n using encode.induct with
  | case1 n h =>
      rw [encode_of_lt h, terminated_cons, if_pos]
      rw [UInt8.toNat_ofNat']
      omega
  | case2 n h ih =>
      rw [encode_of_le (Nat.not_lt.mp h), terminated_cons, if_neg]
      · exact ih
      · rw [UInt8.toNat_ofNat']
        omega

theorem value_encode (n : Nat) : value (encode n) = n := by
  induction n using encode.induct with
  | case1 n h =>
      have hbyte : (UInt8.ofNat n).toNat % 128 = n := by
        rw [UInt8.toNat_ofNat']
        omega
      rw [encode_of_lt h, value_cons, hbyte, value_nil, Nat.mul_zero, Nat.add_zero]
  | case2 n h ih =>
      have hbyte : (UInt8.ofNat (n % 128 + 128)).toNat % 128 = n % 128 := by
        rw [UInt8.toNat_ofNat']
        omega
      rw [encode_of_le (Nat.not_lt.mp h), value_cons, hbyte, ih]
      omega

theorem length_encode_le {n k : Nat} (h : n < 128 ^ (k + 1)) : (encode n).length ≤ k + 1 := by
  induction k generalizing n with
  | zero =>
      rw [encode_of_lt (by simpa using h)]
      exact Nat.le_refl 1
  | succ k ih =>
      by_cases hn : n < 128
      · rw [encode_of_lt hn]
        exact Nat.succ_le_succ (Nat.zero_le _)
      · rw [encode_of_le (Nat.not_lt.mp hn), List.length_cons]
        apply Nat.succ_le_succ
        apply ih
        rw [Nat.pow_succ] at h
        exact Nat.div_lt_of_lt_mul (by rwa [Nat.mul_comm] at h)

end AtvRemote.Varints
