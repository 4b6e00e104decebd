import Mathlib.Data.Nat.Digits.Lemmas

namespace AtvRemote.BigEndian

/-- The number that bytes stand for, the most significant one first. -/
def bigEndian (bytes : List UInt8) : Nat := Nat.ofDigits 256 (bytes.reverse.map UInt8.toNat)

/-- The encoding of a number that has no leading zeros. -/
def shortest (n : Nat) : List UInt8 := (Nat.digits 256 n).reverse.map UInt8.ofNat

theorem bigEndian_cons (b : UInt8) (bytes : List UInt8) :
    bigEndian (b :: bytes) = b.toNat * 256 ^ bytes.length + bigEndian bytes := by
  unfold bigEndian
  rw [List.reverse_cons, List.map_append, Nat.ofDigits_append]
  simp [Nat.add_comm, Nat.mul_comm]

theorem ofNat_map_toNat (bytes : List UInt8) : (bytes.map UInt8.toNat).map UInt8.ofNat = bytes := by
  rw [List.map_map]
  apply List.map_id''
  intro b
  exact UInt8.ofNat_toNat

theorem toNat_map_ofNat {digits : List Nat} (h : ∀ d ∈ digits, d < 256) :
    (digits.map UInt8.ofNat).map UInt8.toNat = digits := by
  have hid : ∀ d ∈ digits, (UInt8.toNat ∘ UInt8.ofNat) d = id d := by
    intro d hd
    exact UInt8.toNat_ofNat_of_lt' (h d hd)
  rw [List.map_map, List.map_congr_left hid, List.map_id]

theorem bigEndian_shortest (n : Nat) : bigEndian (shortest n) = n := by
  unfold bigEndian shortest
  rw [← List.map_reverse, List.reverse_reverse, toNat_map_ofNat fun d hd =>
    Nat.digits_lt_base (by decide) hd]
  exact Nat.ofDigits_digits 256 n

theorem shortest_bigEndian {bytes : List UInt8} (h : bytes.head? ≠ some 0) :
    shortest (bigEndian bytes) = bytes := by
  have hdigits : Nat.digits 256 (bigEndian bytes) = bytes.reverse.map UInt8.toNat := by
    apply Nat.digits_ofDigits 256 (by decide)
    · intro d hd
      obtain ⟨b, _, rfl⟩ := List.mem_map.mp hd
      exact b.toNat_lt
    · intro hne hlast
      cases bytes with
      | nil => exact hne rfl
      | cons b bytes =>
          have hb : b.toNat = 0 := by simpa using hlast
          exact h (congrArg some (UInt8.toNat_inj.mp hb))
  unfold shortest
  rw [hdigits, ← List.map_reverse, List.reverse_reverse, ofNat_map_toNat]

theorem dropWhile_zero (bytes : List UInt8) :
    bytes.dropWhile (· == 0) = shortest (bigEndian bytes) := by
  induction bytes with
  | nil => rfl
  | cons b bytes ih =>
      by_cases hb : b = 0
      · subst hb
        rw [bigEndian_cons, List.dropWhile_cons_of_pos (by rfl), ih]
        simp
      · rw [List.dropWhile_cons_of_neg (by simpa using hb), shortest_bigEndian]
        simpa using hb

/-- No other bytes for the same number are as short. -/
theorem eq_shortest_of_length {bytes : List UInt8}
    (h : bytes.length ≤ (shortest (bigEndian bytes)).length) :
    bytes = shortest (bigEndian bytes) := by
  rw [← dropWhile_zero] at h ⊢
  exact ((List.dropWhile_suffix _).eq_of_length_le h).symm

end AtvRemote.BigEndian
