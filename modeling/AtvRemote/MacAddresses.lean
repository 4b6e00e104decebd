import AtvRemote.HexDigits
import AtvRemote.Pieces
import AtvRemote.Wake

namespace AtvRemote.MacAddresses

open Texts Wake HexDigits Pieces

def IsSeparator (c : Char) : Prop := c = ':' ∨ c = '-'
  deriving Decidable

def Octet (chars : List Char) (b : UInt8) : Prop :=
  ∃ c d x y, chars = [c, d] ∧ toDigit 16 c = some x ∧ toDigit 16 d = some y ∧ b = hexPair x y

/-- A plus sign in the place of the first digit. -/
def Signed (chars : List Char) (b : UInt8) : Prop :=
  ∃ d y, chars = ['+', d] ∧ toDigit 16 d = some y ∧ b = UInt8.ofNat y

/-- The documented form: six octets, all separated by colons or all by hyphens. -/
def Documented (s : String) (mac : Mac) : Prop :=
  ∃ sep, IsSeparator sep ∧ Joined (fun c => c = sep) Octet s.toList mac.toList

/-- The form that `parseMac` reads. -/
def Readable (s : String) (mac : Mac) : Prop :=
  Joined IsSeparator (fun chars b => Octet chars b ∨ Signed chars b) s.toList mac.toList

/-- Readable, but with a sign or with both separators. -/
def Loose (s : String) : Prop :=
  (∃ mac, Readable s mac) ∧ ('+' ∈ s.toList ∨ ':' ∈ s.toList ∧ '-' ∈ s.toList)

def Alike (c c' : Char) : Prop := c.toLower = c'.toLower ∨ IsSeparator c ∧ IsSeparator c'

/-- The same text up to the case of its letters and its separators. -/
def SameSpelling (s s' : String) : Prop := List.Forall₂ Alike s.toList s'.toList

theorem fromStrRadix_plus (d : Char) :
    fromStrRadix 16 (String.ofList ['+', d]) = (toDigit 16 d).map UInt8.ofNat := by
  unfold fromStrRadix
  rw [String.toList_ofList]
  cases hd : toDigit 16 d with
  | none => simp [hd]
  | some y =>
      have hy : y < 256 := Nat.lt_trans (toDigit_lt hd) (by decide)
      simp [hd, hy]

theorem fromStrRadix_unsigned {c : Char} (h : c ≠ '+') (chars : List Char) :
    fromStrRadix 16 (String.ofList (c :: chars)) =
      ((c :: chars).foldlM (fun n c => (toDigit 16 c).bind fun d => if n * 16 + d < 256 then some
        (n * 16 + d) else none) 0).map
        UInt8.ofNat := by
  unfold fromStrRadix
  rw [String.toList_ofList]
  dsimp only
  split
  next heq => exact absurd (List.cons.inj heq).1 h
  next => rfl

theorem fromStrRadix_single {c : Char} (h : c.utf8Size = 2) :
    fromStrRadix 16 (String.ofList [c]) = none := by
  have hplus : c ≠ '+' := by
    rintro rfl
    exact absurd h (by decide)
  have hdigit : toDigit 16 c = none := by
    cases hc : toDigit 16 c with
    | none => rfl
    | some x =>
        rw [(toDigit_ascii hc).1] at h
        cases h
  rw [fromStrRadix_unsigned hplus]
  simp [hdigit]

theorem octet_of_fromStrRadix {c d : Char} {b : UInt8} (hplus : c ≠ '+')
    (h : fromStrRadix 16 (String.ofList [c, d]) = some b) :
    Octet [c, d] b := by
  cases hc : toDigit 16 c with
  | none =>
      rw [fromStrRadix_unsigned hplus] at h
      simp [hc] at h
  | some x =>
      cases hd : toDigit 16 d with
      | none =>
          rw [fromStrRadix_unsigned hplus] at h
          simp [hc, hd] at h
      | some y =>
          rw [fromStrRadix_pair hc hd] at h
          exact ⟨c, d, x, y, rfl, hc, hd, (Option.some.inj h).symm⟩

/-- What a part of two bytes may be. -/
theorem part_iff {chars : List Char} {b : UInt8} :
    (String.ofList chars).utf8ByteSize = 2 ∧ fromStrRadix 16 (String.ofList chars) = some b ↔
    Octet chars b ∨ Signed chars b := by
  rw [utf8ByteSize_ofList]
  constructor
  · rintro ⟨hsize, hvalue⟩
    match chars with
    | [] => cases hsize
    | [c] =>
        rw [fromStrRadix_single (by simpa using hsize)] at hvalue
        cases hvalue
    | [c, d] =>
        by_cases hplus : c = '+'
        · rw [hplus, fromStrRadix_plus] at hvalue
          obtain ⟨y, hy, rfl⟩ := Option.map_eq_some_iff.mp hvalue
          exact .inr ⟨d, y, by rw [hplus], hy, rfl⟩
        · exact .inl (octet_of_fromStrRadix hplus hvalue)
    | c :: d :: e :: chars =>
        have hc := c.utf8Size_pos
        have hd := d.utf8Size_pos
        have he := e.utf8Size_pos
        simp only [List.map_cons, List.sum_cons] at hsize
        omega
  · rintro (⟨c, d, x, y, rfl, hc, hd, rfl⟩ | ⟨d, y, rfl, hd, rfl⟩)
    · rw [fromStrRadix_pair hc hd]
      simp [(toDigit_ascii hc).1, (toDigit_ascii hd).1]
    · have hplus : '+'.utf8Size = 1 := by decide
      rw [fromStrRadix_plus, hd]
      simp [hplus, (toDigit_ascii hd).1]

theorem parseParts_ok {err : String} {mac mac' : Mac} {i : Nat} {groups : List (List Char)}
    (h : i + groups.length ≤ 6) :
    parseParts err mac i (groups.map String.ofList) = .ok mac' ↔
      ∃ bytes, List.Forall₂ (fun chars b => Octet chars b ∨ Signed chars b) groups bytes ∧
        mac'.toList = mac.toList.take i ++ bytes ++ mac.toList.drop (i + groups.length) := by
  induction groups generalizing mac i with
  | nil =>
      constructor
      · rintro ⟨⟩
        exact ⟨[], .nil, by simp⟩
      · rintro ⟨_, ⟨⟩, hmac⟩
        have heq : mac'.toList = mac.toList := by simpa using hmac
        rw [List.map_nil, parseParts, Vector.toList_inj.mp heq]
  | cons chars groups ih =>
      rw [List.length_cons] at h
      have hlen : i < mac.toList.length := by
        rw [Vector.length_toList]
        omega
      rw [List.map_cons, parseParts]
      by_cases hgroup : ∃ b, Octet chars b ∨ Signed chars b
      · obtain ⟨b, hb⟩ := hgroup
        obtain ⟨hsize, hvalue⟩ := part_iff.mpr hb
        have htake : (mac.setIfInBounds i b).toList.take (i + 1) = mac.toList.take i ++ [b] := by
          have hlen : i < (mac.toList.set i b).length := by rwa [List.length_set]
          rw [Vector.toList_setIfInBounds, List.take_succ_eq_append_getElem hlen,
            List.take_set_of_le (Nat.le_refl i),
            List.getElem_set_self]
        have hdrop : (mac.setIfInBounds i b).toList.drop (i + 1 + groups.length) = mac.toList.drop
            (i + (groups.length + 1)) := by
          rw [Vector.toList_setIfInBounds, List.drop_set_of_lt (by omega)]
          congr 1
          omega
        simp only [hsize, ne_eq, not_true_eq_false, if_false, hvalue]
        rw [ih (by omega), htake, hdrop]
        constructor
        · rintro ⟨bytes, hbytes, hmac⟩
          exact ⟨b :: bytes, .cons hb hbytes, by rw [hmac]; simp⟩
        · rintro ⟨_, hall, hmac⟩
          obtain ⟨b', bytes, hb', hbytes, rfl⟩ := List.forall₂_cons_left_iff.mp hall
          have heq := (part_iff.mpr hb').2
          rw [hvalue] at heq
          cases heq
          exact ⟨bytes, hbytes, by rw [hmac]; simp⟩
      · have herr :
            ∀ b, ¬((String.ofList chars).utf8ByteSize = 2 ∧ fromStrRadix 16
            (String.ofList chars) = some b) :=
          fun b hb => hgroup ⟨b, part_iff.mp hb⟩
        constructor
        · intro hok
          split at hok
          next => cases hok
          next hsize =>
            split at hok
            next b hvalue => exact absurd ⟨not_not.mp hsize, hvalue⟩ (herr b)
            next => cases hok
        · rintro ⟨_, hall, _⟩
          obtain ⟨b, _, hb, _⟩ := List.forall₂_cons_left_iff.mp hall
          exact absurd ⟨b, hb⟩ hgroup

theorem separator_not_digit {c : Char} (h : IsSeparator c) : toDigit 16 c = none := by
  rcases h with rfl | rfl
  · decide
  · decide

theorem plus_not_separator : ¬IsSeparator '+' := by decide

theorem group_unseparated {chars : List Char} {b : UInt8} (h : Octet chars b ∨ Signed chars b) :
    ∀ c ∈ chars, ¬IsSeparator c := by
  intro c hmem hsep
  have hnone := separator_not_digit hsep
  rcases h with ⟨c₁, c₂, x, y, rfl, h₁, h₂, _⟩ | ⟨d, y, rfl, hd, _⟩
  · rcases List.mem_pair.mp hmem with rfl | rfl
    · rw [h₁] at hnone
      cases hnone
    · rw [h₂] at hnone
      cases hnone
  · rcases List.mem_pair.mp hmem with rfl | rfl
    · exact plus_not_separator hsep
    · rw [hd] at hnone
      cases hnone

variable {debug : String → String} {s s' : String} {mac mac' : Mac}

theorem parseMac_ok : parseMac debug s = .ok mac ↔ Readable s mac := by
  have hsep : IsSeparator = fun c => [':', '-'].contains c = true := by
    funext c
    simp [IsSeparator]
  have hgroup : ∀ chars b, Octet chars b ∨ Signed chars b → ∀ c ∈ chars,
      [':', '-'].contains c = false := by
    intro chars b h c hc
    have hc := group_unseparated h c hc
    rw [hsep] at hc
    simpa using hc
  unfold Readable
  rw [hsep, joined_iff_splitOnP hgroup]
  unfold parseMac
  dsimp only [split]
  rw [List.length_map]
  split
  next hlength =>
    constructor
    · nofun
    · intro h
      rw [h.length_eq, Vector.length_toList] at hlength
      exact absurd rfl hlength
  next hlength =>
    have hlength := not_not.mp hlength
    rw [parseParts_ok (by omega), hlength]
    constructor
    · rintro ⟨bytes, hbytes, hmac⟩
      have heq : mac.toList = bytes := by simpa using hmac
      rwa [heq]
    · intro h
      exact ⟨mac.toList, h, by simp⟩

theorem Readable.unique (h : Readable s mac) (h' : Readable s mac') : mac = mac' := by
  have heq := (@parseMac_ok id s mac).mpr h
  rw [(@parseMac_ok id s mac').mpr h'] at heq
  exact (Except.ok.inj heq).symm

theorem octet_unsigned {chars : List Char} {b : UInt8} (h : Octet chars b) : '+' ∉ chars := by
  obtain ⟨c, d, x, y, rfl, hc, hd, _⟩ := h
  intro hmem
  rcases List.mem_pair.mp hmem with heq | heq
  · exact (toDigit_ascii hc).2 heq.symm
  · exact (toDigit_ascii hd).2 heq.symm

theorem Documented.strict (h : Documented s mac) :
    ¬('+' ∈ s.toList ∨ ':' ∈ s.toList ∧ '-' ∈ s.toList) := by
  obtain ⟨sep, hsep, h⟩ := h
  have hunique : ∀ c, IsSeparator c → c ∈ s.toList → c = sep := by
    intro c hc hmem
    rcases h.mem hmem with heq | ⟨chars, b, hchars, hmem⟩
    · exact heq
    · exact absurd hc (group_unseparated (.inl hchars) c hmem)
  rintro (hplus | ⟨hcolon, hhyphen⟩)
  · rcases h.mem hplus with rfl | ⟨chars, b, hchars, hmem⟩
    · exact plus_not_separator hsep
    · exact octet_unsigned hchars hmem
  · have heq := (hunique ':' (.inl rfl) hcolon).trans (hunique '-' (.inr rfl) hhyphen).symm
    exact absurd heq (by decide)

theorem Readable.documented (h : Readable s mac)
    (hstrict : ¬('+' ∈ s.toList ∨ ':' ∈ s.toList ∧ '-' ∈ s.toList)) :
    Documented s mac := by
  have hpiece : ∀ chars b, chars ⊆ s.toList → Octet chars b ∨ Signed chars b → Octet chars b := by
    rintro chars b hsub (hoctet | ⟨d, y, rfl, _⟩)
    · exact hoctet
    · exact absurd (.inl (hsub List.mem_cons_self)) hstrict
  by_cases hcolon : ':' ∈ s.toList
  · refine ⟨':', .inl rfl, h.imp ?_ hpiece⟩
    rintro c hmem (rfl | rfl)
    · rfl
    · exact absurd (.inr ⟨hcolon, hmem⟩) hstrict
  · refine ⟨'-', .inr rfl, h.imp ?_ hpiece⟩
    rintro c hmem (rfl | rfl)
    · exact absurd hmem hcolon
    · rfl

theorem octet_alike {chars chars' : List Char} {b : UInt8} (h : Octet chars b)
    (h' : Octet chars' b) :
    List.Forall₂ Alike chars chars' := by
  obtain ⟨c, d, x, y, rfl, hc, hd, rfl⟩ := h
  obtain ⟨c', d', x', y', rfl, hc', hd', heq⟩ := h'
  have hvalue := hexPair_toNat hc hd
  rw [heq, hexPair_toNat hc' hd'] at hvalue
  have hy := toDigit_lt hd
  have hy' := toDigit_lt hd'
  obtain rfl : x = x' := by omega
  obtain rfl : y = y' := by omega
  refine .cons (.inl ?_) (.cons (.inl ?_) .nil)
  · rw [toLower_digit hc, toLower_digit hc']
  · rw [toLower_digit hd, toLower_digit hd']

theorem digit_transfer {c c' : Char} {x : Nat} (h : Alike c c')
    (hc : toDigit 16 c = some x) : toDigit 16 c' = some x := by
  rcases h with heq | ⟨hsep, _⟩
  · rw [← toDigit_toLower, ← heq, toDigit_toLower, hc]
  · rw [separator_not_digit hsep] at hc
    cases hc

theorem octet_transfer {chars chars' : List Char} {b : UInt8}
    (h : List.Forall₂ Alike chars chars') (hb : Octet chars b) : Octet chars' b := by
  obtain ⟨c, d, x, y, rfl, hc, hd, rfl⟩ := hb
  match chars', h with
  | [c', d'], .cons hcc' (.cons hdd' .nil) =>
      exact ⟨c', d', x, y, rfl, digit_transfer hcc' hc, digit_transfer hdd' hd, rfl⟩

theorem separator_transfer {c c' : Char} (h : Alike c c') (hc : IsSeparator c) :
    IsSeparator c' := by
  have hupper : ∀ n : Fin 26, ¬IsSeparator (Char.ofNat (65 + n)).toLower := by decide
  rcases h with heq | ⟨_, hc'⟩
  · have hlower : c.toLower = c := by
      rcases hc with rfl | rfl
      · decide
      · decide
    rw [hlower] at heq
    rcases toLower_cases c' with hself | ⟨n, rfl⟩
    · rwa [← hself, ← heq]
    · rw [heq] at hc
      exact absurd hc (hupper n)
  · exact hc'

theorem Documented.octets (h : Documented s mac) :
    Joined IsSeparator Octet s.toList mac.toList := by
  obtain ⟨sep, hsep, h⟩ := h
  apply h.imp
  · rintro _ _ rfl
    exact hsep
  · exact fun _ _ _ h => h

theorem Documented.readable (h : Documented s mac) : Readable s mac :=
  h.octets.imp (fun _ _ h => h) fun _ _ _ h => .inl h

theorem Documented.sameSpelling (h : Documented s mac) (h' : Documented s' mac) :
    SameSpelling s s' := by
  apply Joined.related (R := Alike) ?_ ?_ h.octets h'.octets
  · exact fun _ _ hc hc' => .inr ⟨hc, hc'⟩
  · exact fun _ _ _ => octet_alike

theorem Documented.respelled (h : Documented s mac) (hsame : SameSpelling s s') :
    Readable s' mac := by
  have hoctets : Joined IsSeparator Octet s'.toList mac.toList := by
    apply Joined.transfer (R := Alike) ?_ ?_ h.octets hsame
    · exact fun _ _ => separator_transfer
    · exact fun _ _ _ => octet_transfer
  exact hoctets.imp (fun _ _ h => h) fun _ _ _ h => .inl h

/-- `parseMac` reads exactly the documented form unless the text has a sign in
a group or both separators, and it never confuses two documented addresses. -/
theorem parseMac_documented_iff (debug : String → String) (s : String) :
    ((∀ mac, parseMac debug s = .ok mac ↔ Documented s mac) ↔ ¬Loose s) ∧
    (∀ mac, Documented s mac → parseMac debug s = .ok mac) ∧
    ∀ s' mac mac', ¬Loose s → ¬Loose s' → parseMac debug s = .ok mac →
      parseMac debug s' = .ok mac' →
      (mac = mac' ↔ SameSpelling s s') := by
  have hdocumented : ∀ {s mac}, ¬Loose s → parseMac debug s = .ok mac → Documented s mac := by
    intro s mac hloose hok
    have hread := parseMac_ok.mp hok
    exact hread.documented fun h => hloose ⟨⟨mac, hread⟩, h⟩
  refine ⟨⟨?_, ?_⟩, fun mac h => parseMac_ok.mpr h.readable, ?_⟩
  · rintro hmeets ⟨⟨mac, hread⟩, hstrict⟩
    exact ((hmeets mac).mp (parseMac_ok.mpr hread)).strict hstrict
  · exact fun hloose mac => ⟨hdocumented hloose, fun h => parseMac_ok.mpr h.readable⟩
  · intro s' mac mac' hloose hloose' hok hok'
    have hdoc := hdocumented hloose hok
    have hdoc' := hdocumented hloose' hok'
    constructor
    · rintro rfl
      exact hdoc.sameSpelling hdoc'
    · intro hsame
      exact (hdoc.respelled hsame).unique hdoc'.readable

/-- A sign in the place of a digit is read over, and so are mixed separators. -/
theorem parseMac_reads_signs : ¬∀ (debug : String → String) s mac, parseMac debug s = .ok mac ↔
      Documented s mac := by
  intro h
  have hok : parseMac id "+1:23-45:67:89:ab" = .ok #v[0x01, 0x23, 0x45, 0x67, 0x89, 0xab] := by
    decide
  exact ((h id _ _).mp hok).strict (.inl (by decide))

example : ["e4:3b:c9:97:84:77", "E4-3B-C9-97-84-77"].map (parseMac String.quote) =
    List.replicate 2 (.ok #v[0xe4, 0x3b, 0xc9, 0x97, 0x84, 0x77]) := by decide

end AtvRemote.MacAddresses
