import Mathlib.Data.List.Basic

namespace AtvRemote.Numerals

theorem digitChar_injective {d e : Nat} (hd : d < 16) (he : e < 16)
    (h : Nat.digitChar d = Nat.digitChar e) : d = e := by
  have hall : ∀ d e : Fin 16, Nat.digitChar d = Nat.digitChar e → d = e := by decide
  exact congrArg Fin.val (hall ⟨d, hd⟩ ⟨e, he⟩ h)

variable {b : Nat} (hb : 1 < b)
include hb

theorem digit_of_mem_toDigits {n : Nat} {c : Char} (h : c ∈ Nat.toDigits b n) :
    ∃ d < b, c = Nat.digitChar d := by
  induction n using Nat.strongRecOn with
  | ind n ih =>
      rw [Nat.toDigits_eq_if hb] at h
      split at h
      next hn => exact ⟨n, hn, List.mem_singleton.mp h⟩
      next hn =>
        rcases List.mem_append.mp h with h | h
        · exact ih _ (Nat.div_lt_self (by omega) hb) h
        · exact ⟨n % b, Nat.mod_lt n (by omega), List.mem_singleton.mp h⟩

/-- A number is written in one way, in every base that has digits for it. -/
theorem toDigits_injective (hb' : b ≤ 16) {n m : Nat} (h : Nat.toDigits b n = Nat.toDigits b m) :
    n = m := by
  induction n using Nat.strongRecOn generalizing m with
  | ind n ih =>
      have hne : ∀ k, Nat.toDigits b k ≠ [] := fun _ => Nat.toDigits_ne_nil
      rw [Nat.toDigits_eq_if hb (n := n), Nat.toDigits_eq_if hb (n := m)] at h
      split at h
      next hn =>
        split at h
        next hm => exact digitChar_injective (by omega) (by omega) (List.singleton_inj.mp h)
        next hm =>
          have hlength := congrArg List.length h
          simp [hne] at hlength
      next hn =>
        split at h
        next hm =>
          have hlength := congrArg List.length h
          simp [hne] at hlength
        next hm =>
          obtain ⟨hhigh, hlow⟩ := List.append_inj' h rfl
          have hdiv := ih _ (Nat.div_lt_self (by omega) hb) hhigh
          have hn := Nat.mod_lt n (by omega : 0 < b)
          have hm := Nat.mod_lt m (by omega : 0 < b)
          have hmod := digitChar_injective (by omega) (by omega) (List.singleton_inj.mp hlow)
          rw [← Nat.div_add_mod n b, ← Nat.div_add_mod m b, hdiv, hmod]

end AtvRemote.Numerals
