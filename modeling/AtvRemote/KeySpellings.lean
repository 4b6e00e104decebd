import AtvRemote.Cli

namespace AtvRemote.KeySpellings

open Ascii Messages Texts KeyNames Cli

/-- The names without their prefix that are numbers too. -/
def numbered : List String := ["0", "1", "2", "3", "4", "5", "6", "7", "8", "9", "11", "12"]

def Numeral (c : Char) : Prop := ('0' ≤ c ∧ c ≤ '9') ∨ c = '+' ∨ c = '-'

theorem numeral_of_digit {c : Char} {d : Nat} (h : toDigit 10 c = some d) : '0' ≤ c ∧ c ≤ '9' := by
  obtain ⟨hvalue, hlt⟩ := Option.filter_eq_some_iff.mp h
  have hlt : d < 10 := by simpa using hlt
  split at hvalue
  next hdigit => exact hdigit
  next =>
    split at hvalue
    next =>
      cases hvalue
      omega
    next =>
      split at hvalue
      next =>
        cases hvalue
        omega
      next => cases hvalue

theorem foldlM_numerals {chars : List Char} {sign n m : Int}
    (h : chars.foldlM (fun (n : Int) c => do
      let d ← toDigit 10 c
      let n := n * 10 + sign * d
      if -2 ^ 31 ≤ n ∧ n < 2 ^ 31 then some n else none) n = some m) : ∀ c ∈ chars, Numeral c := by
  induction chars generalizing n with
  | nil => exact List.forall_mem_nil _
  | cons c chars ih =>
      rw [List.foldlM_cons] at h
      obtain ⟨n', hn', h⟩ := Option.bind_eq_some_iff.mp h
      obtain ⟨d, hd, _⟩ := Option.bind_eq_some_iff.mp hn'
      exact List.forall_mem_cons.mpr ⟨.inl (numeral_of_digit hd), ih h⟩

theorem parseI32_numerals {s : String} {n : Int32} (h : parseI32 s = some n) :
    ∀ c ∈ s.toList, Numeral c := by
  have hdigits : ∀ {digits : List Char} {sign : Int}, (if digits.isEmpty then none
      else (digits.foldlM (fun (n : Int) c => do
        let d ← toDigit 10 c
        let n := n * 10 + sign * d
        if -2 ^ 31 ≤ n ∧ n < 2 ^ 31 then some n else none) 0).map Int32.ofInt) = some n →
          ∀ c ∈ digits, Numeral c := by
    intro digits sign h
    split at h
    next => cases h
    next =>
      obtain ⟨m, hm, _⟩ := Option.map_eq_some_iff.mp h
      exact foldlM_numerals hm
  unfold parseI32 at h
  split at h
  next sign digits hsplit =>
    have hall := hdigits h
    split at hsplit
    next rest heq =>
      cases hsplit
      rw [heq]
      exact List.forall_mem_cons.mpr ⟨.inr (.inl rfl), hall⟩
    next rest heq =>
      cases hsplit
      rw [heq]
      exact List.forall_mem_cons.mpr ⟨.inr (.inr rfl), hall⟩
    next =>
      cases hsplit
      exact hall

theorem le_of_numeral {c : Char} (h : Numeral c) : c.toNat ≤ 57 := by
  rcases h with ⟨_, hle⟩ | rfl | rfl
  · exact UInt32.le_iff_toNat_le.mp hle
  · decide
  · decide

theorem toUpper_numeral {c : Char} (h : Numeral c) : c.toUpper = c := by
  have hle := le_of_numeral h
  apply dif_neg
  rintro ⟨hge, _⟩
  have hge : 97 ≤ c.toNat := UInt32.le_iff_toNat_le.mp hge
  omega

/-- Every name has a letter after the prefix, or what follows is a number. -/
theorem names_lettered :
    RemoteKeyCode.names.all (fun name => ((utf8 name).drop 8).any (fun b => 65 ≤ b && b ≤ 90) ||
    numbered.any fun n => (utf8 name).drop 8 == utf8 n) = true := by decide +kernel

theorem numbered_number {s : String} (h : s ∈ numbered) : ∃ n, parseI32 s = some n := by
  have hall : numbered.all (fun s => (parseI32 s).isSome) = true := by decide
  exact Option.isSome_iff_exists.mp (List.all_eq_true.mp hall s h)

theorem numbered_of_numerals {k : RemoteKeyCode} {s : String}
    (hname : "KEYCODE_" ++ s = k.asStrName)
    (h : ∀ c ∈ s.toList, Numeral c) : s ∈ numbered := by
  have hbytes : utf8 k.asStrName = utf8 "KEYCODE_" ++ utf8 s := by rw [← hname, utf8_append]
  have hdrop : (utf8 k.asStrName).drop 8 = utf8 s := by
    rw [hbytes]
    exact List.drop_left' (by decide)
  have hascii : ∀ b ∈ utf8 s, b.toNat < 128 := by
    intro b hb
    apply ascii_of_wellFormed (asStrName_wellFormed k) b
    rw [hbytes]
    exact List.mem_append_right _ hb
  have hlettered := List.all_eq_true.mp names_lettered k.asStrName (List.get_mem _ _)
  rw [hdrop] at hlettered
  rcases Bool.or_eq_true_iff.mp hlettered with hletter | hnumber
  · obtain ⟨b, hb, hrange⟩ := List.any_eq_true.mp hletter
    have hge : 65 ≤ b.toNat := by
      have hge := (Bool.and_eq_true_iff.mp hrange).1
      exact UInt8.le_iff_toNat_le.mp (of_decide_eq_true hge)
    have hmem : charOf b ∈ s.toList := by
      rw [toList_ascii hascii]
      exact List.mem_map_of_mem hb
    have hle := le_of_numeral (h _ hmem)
    have hval := charOf_val (hascii b hb)
    change (charOf b).val.toNat ≤ 57 at hle
    omega
  · obtain ⟨n, hn, heq⟩ := List.any_eq_true.mp hnumber
    rw [utf8_injective (beq_iff_eq.mp heq)]
    exact hn

theorem toAsciiUppercase_numerals {s : String} (h : ∀ c ∈ s.toList, Numeral c) :
    toAsciiUppercase s = s :=
  toAsciiUppercase_letters fun c hc => toUpper_numeral (h c hc)

theorem names_prefixed_once :
    RemoteKeyCode.names.all (fun name => ((utf8 name).drop 8).take 8 != (utf8 name).take 8) =
      true := by
  decide +kernel

theorem startsWith_iff {s pattern : String} :
    startsWith s pattern = true ↔ pattern.toList <+: s.toList := List.isPrefixOf_iff_prefix

theorem not_startsWith_suffix {k : RemoteKeyCode} {s : String}
    (hname : "KEYCODE_" ++ s = k.asStrName) :
    startsWith s "KEYCODE_" = false := by
  rw [Bool.eq_false_iff]
  intro hstart
  obtain ⟨rest, hrest⟩ := startsWith_iff.mp hstart
  have hs : s = "KEYCODE_" ++ String.ofList rest := by
    apply String.toList_inj.mp
    rw [String.toList_append, String.toList_ofList (l := rest), hrest]
  have honce := List.all_eq_true.mp names_prefixed_once k.asStrName (List.get_mem _ _)
  have hbytes :
      utf8 k.asStrName = utf8 "KEYCODE_" ++ (utf8 "KEYCODE_" ++ utf8 (String.ofList rest)) := by
    rw [← hname, hs, utf8_append, utf8_append]
  rw [hbytes, List.drop_left' (by decide), List.take_left' (by decide), List.take_left'
    (by decide)] at honce
  simp at honce

variable {debug : String → String} {s : String}

theorem parseI32_none (h : (∀ c ∈ s.toList, Numeral c) → toAsciiUppercase s = s → False) :
    parseI32 s = none := by
  cases hnumber : parseI32 s with
  | none => rfl
  | some n =>
      have hnumerals := parseI32_numerals hnumber
      exact (h hnumerals (toAsciiUppercase_numerals hnumerals)).elim

theorem parseI32_name {k : RemoteKeyCode} (hname : toAsciiUppercase s = k.asStrName) :
    parseI32 s = none := by
  apply parseI32_none
  intro hnumerals hupper
  rw [hupper] at hname
  obtain ⟨⟨rest, hrest⟩, _⟩ := asStrName_letters k
  have hmem : 'K' ∈ s.toList := by
    rw [hname, hrest]
    exact List.mem_append_left _ (by decide)
  exact absurd (le_of_numeral (hnumerals _ hmem)) (by decide)

theorem parseI32_suffix {k : RemoteKeyCode} (hname : "KEYCODE_" ++ toAsciiUppercase s = k.asStrName)
    (hs : s ∉ numbered) :
    parseI32 s = none := by
  apply parseI32_none
  intro hnumerals hupper
  rw [hupper] at hname
  exact hs (numbered_of_numerals hname hnumerals)

theorem parseKeycode_number {n : Int32} (h : parseI32 s = some n) (code : Int32) :
    parseKeycode debug s = .ok code ↔ code = n ∧ ∃ k : RemoteKeyCode, code = k.toI32 := by
  rw [parseKeycode, h]
  dsimp only
  cases hk : RemoteKeyCode.tryFrom n with
  | none =>
      constructor
      · intro hok
        cases hok
      · rintro ⟨rfl, k, rfl⟩
        rw [tryFrom_toI32] at hk
        cases hk
  | some k =>
      have hn := toI32_tryFrom hk
      constructor
      · rintro ⟨⟩
        exact ⟨hn, k, rfl⟩
      · rintro ⟨rfl, _⟩
        exact congrArg Except.ok hn

theorem fromStrName_ok {name e : String} {code : Int32} :
    (match RemoteKeyCode.fromStrName name with
      | some k => Except.ok k.toI32
      | none => Except.error e) = .ok code ↔ ∃ k : RemoteKeyCode, name = k.asStrName ∧
          code = k.toI32 := by
  cases hk : RemoteKeyCode.fromStrName name with
  | none =>
      constructor
      · nofun
      · rintro ⟨k, rfl, _⟩
        rw [fromStrName_asStrName] at hk
        cases hk
  | some k =>
      have hname := asStrName_fromStrName hk
      constructor
      · rintro ⟨⟩
        exact ⟨k, hname.symm, rfl⟩
      · rintro ⟨k', rfl, rfl⟩
        rw [fromStrName_asStrName] at hk
        cases hk
        rfl

theorem parseKeycode_text (h : parseI32 s = none) (code : Int32) : parseKeycode debug s = .ok code ↔
    ∃ k : RemoteKeyCode, (toAsciiUppercase s = k.asStrName ∨ "KEYCODE_" ++ toAsciiUppercase s =
      k.asStrName) ∧ code = k.toI32 := by
  rw [parseKeycode, h]
  refine fromStrName_ok.trans ?_
  apply exists_congr
  intro k
  apply and_congr_left
  intro _
  split
  next hstart =>
    constructor
    · exact .inl
    · rintro (hname | hname)
      · exact hname
      · rw [not_startsWith_suffix hname] at hstart
        cases hstart
  next hstart =>
    constructor
    · exact .inr
    · rintro (hname | hname)
      · obtain ⟨⟨rest, hrest⟩, _⟩ := asStrName_letters k
        rw [hname] at hstart
        exact absurd (startsWith_iff.mpr ⟨rest, hrest.symm⟩) hstart
      · exact hname

/-- Names are read with or without their prefix and in any case, numbers are
the codes of keys, and of a text that is both the number counts. -/
theorem parseKeycode_reads (debug : String → String) (s : String) :
    (∀ k : RemoteKeyCode, toAsciiUppercase s = k.asStrName → parseKeycode debug s = .ok k.toI32) ∧
    (∀ k : RemoteKeyCode, "KEYCODE_" ++ toAsciiUppercase s = k.asStrName → s ∉ numbered →
      parseKeycode debug s = .ok k.toI32) ∧
    ((∀ k : RemoteKeyCode, toAsciiUppercase s ≠ k.asStrName) →
      ((∀ k : RemoteKeyCode, "KEYCODE_" ++ toAsciiUppercase s ≠ k.asStrName) ∨ s ∈ numbered) →
        ∀ code, parseKeycode debug s = .ok code ↔ parseI32 s = some code ∧ ∃ k :
    RemoteKeyCode, code = k.toI32) := by
  refine ⟨?_, ?_, ?_⟩
  · intro k hname
    exact (parseKeycode_text (parseI32_name hname) _).mpr ⟨k, .inl hname, rfl⟩
  · intro k hname hs
    exact (parseKeycode_text (parseI32_suffix hname hs) _).mpr ⟨k, .inr hname, rfl⟩
  · intro hname hsuffix code
    cases hnumber : parseI32 s with
    | some n =>
        rw [parseKeycode_number hnumber, Option.some.injEq]
        exact and_congr_left fun _ => eq_comm
    | none =>
        rw [parseKeycode_text hnumber]
        constructor
        · rintro ⟨k, hk | hk, _⟩
          · exact absurd hk (hname k)
          · rcases hsuffix with hsuffix | hs
            · exact absurd hk (hsuffix k)
            · obtain ⟨n, hn⟩ := numbered_number hs
              rw [hnumber] at hn
              cases hn
        · nofun

/-- The number 7 is the code of another key than the name `KEYCODE_7`. -/
theorem parseKeycode_prefers_numbers :
    ¬∀ (debug : String → String) (s : String) (k : RemoteKeyCode),
    "KEYCODE_" ++ toAsciiUppercase s = k.asStrName → parseKeycode debug s = .ok k.toI32 := by
  intro h
  have hcode : (RemoteKeyCode.fromStrName "KEYCODE_7").map RemoteKeyCode.toI32 = some 14 := by
    decide +kernel
  obtain ⟨k, hk, hcode⟩ := Option.map_eq_some_iff.mp hcode
  have hname : "KEYCODE_" ++ toAsciiUppercase "7" = k.asStrName := by
    rw [asStrName_fromStrName hk]
    decide
  have hnumber : parseKeycode id "7" = .ok 7 := by decide +kernel
  have hok := h id "7" k hname
  rw [hnumber, hcode] at hok
  exact absurd (Except.ok.inj hok) (by decide)

end AtvRemote.KeySpellings
