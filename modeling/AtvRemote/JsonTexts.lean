import AtvRemote.Numerals
import AtvRemote.Pieces
import AtvRemote.Texts

namespace AtvRemote.JsonTexts

open Texts Numerals Pieces

/-- Values of JSON, without `null` and with natural numbers only. -/
inductive Json
  | bool (b : Bool)
  | number (n : Nat)
  | string (s : String)
  | array (elements : List Json)
  | object (members : List (String × Json))

theorem Json.induction {P : Json → Prop} (bool : ∀ b, P (.bool b)) (number : ∀ n, P (.number n))
    (string : ∀ s, P (.string s))
    (array : ∀ elements, (∀ j ∈ elements, P j) → P (.array elements))
    (object : ∀ members, (∀ m ∈ members, P m.2) → P (.object members)) (j : Json) : P j := by
  refine Json.rec (motive_1 := P) (motive_2 := fun elements => ∀ j ∈ elements, P j)
    (motive_3 := fun members => ∀ m ∈ members, P m.2)
      (motive_4 := fun m => P m.2) bool number string array object ?_ ?_ ?_ ?_ ?_ j
  · exact List.forall_mem_nil _
  · exact fun _ _ hhead htail => List.forall_mem_cons.mpr ⟨hhead, htail⟩
  · exact List.forall_mem_nil _
  · exact fun _ _ hhead htail => List.forall_mem_cons.mpr ⟨hhead, htail⟩
  · exact fun _ _ h => h

/-- A character inside quotes. -/
def escape (c : Char) : List Char :=
  match c.toNat with
  | 0x22 => ['\\', '"']
  | 0x5c => ['\\', '\\']
  | 0x08 => ['\\', 'b']
  | 0x09 => ['\\', 't']
  | 0x0a => ['\\', 'n']
  | 0x0c => ['\\', 'f']
  | 0x0d => ['\\', 'r']
  | n => if n < 0x20 then ['\\', 'u', '0', '0', Nat.digitChar (n / 16), Nat.digitChar (n % 16)]
      else [c]

def quote (s : String) : List Char := '"' :: s.toList.flatMap escape ++ ['"']

mutual

/-- The text without any space between its parts. -/
def write : Json → List Char
  | .bool true => ['t', 'r', 'u', 'e']
  | .bool false => ['f', 'a', 'l', 's', 'e']
  | .number n => Nat.toDigits 10 n
  | .string s => quote s
  | .array elements => '[' :: [','].intercalate (writeElements elements) ++ [']']
  | .object members => '{' :: [','].intercalate (writeMembers members) ++ ['}']

def writeElements : List Json → List (List Char)
  | [] => []
  | j :: elements => write j :: writeElements elements

def writeMember : String × Json → List Char
  | (key, j) => quote key ++ ':' :: write j

def writeMembers : List (String × Json) → List (List Char)
  | [] => []
  | m :: members => writeMember m :: writeMembers members

end

theorem writeMember_eq (m : String × Json) :
    writeMember m = '"' :: (m.1.toList.flatMap escape ++ '"' :: ':' :: write m.2) := by
  obtain ⟨key, j⟩ := m
  simp [writeMember, quote]

theorem writeElements_eq (elements : List Json) : writeElements elements = elements.map write := by
  induction elements with
  | nil => rfl
  | cons j elements ih => rw [writeElements, ih, List.map_cons]

theorem writeMembers_eq (members : List (String × Json)) :
    writeMembers members = members.map writeMember := by
  induction members with
  | nil => rfl
  | cons m members ih => rw [writeMembers, ih, List.map_cons]

/-- What a character after a backslash stands for. -/
def unescape (c : Char) : Option Char :=
  match c with
  | '"' => some '"'
  | '\\' => some '\\'
  | '/' => some '/'
  | 'b' => some (Char.ofNat 0x08)
  | 't' => some '\t'
  | 'n' => some '\n'
  | 'f' => some (Char.ofNat 0x0c)
  | 'r' => some '\r'
  | _ => none

def readDigits (b : Nat) (chars : List Char) : Option Nat :=
  chars.foldlM (fun n c => (toDigit b c).map (n * b + ·)) 0

/-- The rest of a text in quotes, up to the quote at its end. -/
def readChars : List Char → Option (List Char × List Char)
  | '"' :: rest => some ([], rest)
  | '\\' :: 'u' :: a :: b :: c :: d :: rest =>
      (readDigits 16 [a, b, c, d]).bind fun n => (readChars rest).map
        (Prod.map (Char.ofNat n :: ·) id)
  | '\\' :: c :: rest => (unescape c).bind fun c => (readChars rest).map (Prod.map (c :: ·) id)
  | c :: rest => if c.toNat < 0x20 then none else (readChars rest).map (Prod.map (c :: ·) id)
  | [] => none

def readString : List Char → Option (String × List Char)
  | '"' :: rest => (readChars rest).map fun (chars, rest) => (String.ofList chars, rest)
  | _ => none

def readNumber (chars : List Char) : Option (Json × List Char) :=
  let digits := chars.takeWhile (fun c => (toDigit 10 c).isSome)
  if digits.isEmpty then none
  else (readDigits 10 digits).map fun n => (.number n, chars.drop digits.length)

section Items

variable {α : Type}

/-- Items with commas between them, up to the bracket at their end. -/
def readItems (item : List Char → Option (α × List Char)) (close : Char) :
    Nat → List Char → Option (List α × List Char)
  | 0, _ => none
  | fuel + 1, chars => do
      let (x, rest) ← item chars
      match rest with
      | [] => none
      | c :: rest =>
          if c = close then some ([x], rest)
          else if c = ',' then do
            let (xs, rest) ← readItems item close fuel rest
            some (x :: xs, rest)
          else none

def readList (item : List Char → Option (α × List Char)) (close : Char) (fuel : Nat)
    (chars : List Char) :
    Option (List α × List Char) :=
  if chars.head? = some close then some ([], chars.tail) else readItems item close fuel chars

end Items

def readMember (value : List Char → Option (Json × List Char)) (chars : List Char) :
    Option ((String × Json) × List Char) := do
  let (key, rest) ← readString chars
  match rest with
  | ':' :: rest => do
      let (j, rest) ← value rest
      some ((key, j), rest)
  | _ => none

def readValue : Nat → List Char → Option (Json × List Char)
  | 0, _ => none
  | fuel + 1, chars =>
      match chars with
      | 't' :: 'r' :: 'u' :: 'e' :: rest => some (.bool true, rest)
      | 'f' :: 'a' :: 'l' :: 's' :: 'e' :: rest => some (.bool false, rest)
      | '"' :: _ => (readString chars).map fun (s, rest) => (.string s, rest)
      | '[' :: rest =>
          (readList (readValue fuel) ']' fuel rest).map fun (elements, rest) =>
            (.array elements, rest)
      | '{' :: rest =>
          (readList (readMember (readValue fuel)) '}' fuel rest).map fun (members, rest) =>
            (.object members, rest)
      | _ => readNumber chars

/-- Read a text without any space between its parts. -/
def read (chars : List Char) : Option Json := do
  let (j, rest) ← readValue chars.length chars
  if rest.isEmpty then some j else none

theorem toDigit_digitChar {b d : Nat} (hb : b ≤ 16) (hd : d < b) :
    toDigit b (Nat.digitChar d) = some d := by
  have hall : ∀ d : Fin 16, toDigit 16 (Nat.digitChar d) = some d.val := by decide
  have hvalue := (Option.filter_eq_some_iff.mp (hall ⟨d, by omega⟩)).1
  exact Option.filter_eq_some_iff.mpr ⟨hvalue, by simpa using hd⟩

/-- A number is read back from its digits, in every base that has digits for it. -/
theorem readDigits_toDigits {b : Nat} (hb : 1 < b) (hb' : b ≤ 16) (n : Nat) :
    readDigits b (Nat.toDigits b n) = some n := by
  induction n using Nat.strongRecOn with
  | ind n ih =>
      rw [Nat.toDigits_eq_if hb]
      split
      next hn => simp [readDigits, toDigit_digitChar hb' hn]
      next hn =>
        have hmod := Nat.mod_lt n (by omega : 0 < b)
        have hhigh := ih (n / b) (Nat.div_lt_self (by omega) hb)
        rw [readDigits] at hhigh
        simp [readDigits, List.foldlM_append, hhigh, toDigit_digitChar hb' hmod, Nat.div_add_mod']

theorem readNumber_toDigits (n : Nat) {rest : List Char}
    (hrest : ∀ c ∈ rest.head?, toDigit 10 c = none) :
    readNumber (Nat.toDigits 10 n ++ rest) = some (.number n, rest) := by
  have hdigits : ∀ c ∈ Nat.toDigits 10 n, (toDigit 10 c).isSome = true := by
    intro c hc
    obtain ⟨d, hd, rfl⟩ := digit_of_mem_toDigits (by decide) hc
    rw [toDigit_digitChar (by decide) hd]
    rfl
  have htake : (Nat.toDigits 10 n ++ rest).takeWhile (fun c => (toDigit 10 c).isSome) =
      Nat.toDigits 10 n := by
    rw [List.takeWhile_append_of_pos hdigits]
    cases rest with
    | nil => exact List.append_nil _
    | cons c rest =>
        rw [List.takeWhile_cons_of_neg (by simp [hrest c rfl]), List.append_nil]
  have hne : (Nat.toDigits 10 n).isEmpty = false := by simp
  unfold readNumber
  rw [htake]
  dsimp only
  rw [hne, readDigits_toDigits (by decide) (by decide), List.drop_left]
  rfl

/-- The cases of `escape`: a character with a short form, another control
character, and one that stands for itself. -/
inductive Escaped (c : Char) : List Char → Prop
  | short {e : Char} (h : unescape e = some c) (hne : e ≠ 'u') : Escaped c ['\\', e]
  | code (h : c.toNat < 0x20) :
      Escaped c ['\\', 'u', '0', '0', Nat.digitChar (c.toNat / 16), Nat.digitChar (c.toNat % 16)]
  | plain (h : 0x20 ≤ c.toNat) (hquote : c ≠ '"') (hbackslash : c ≠ '\\') : Escaped c [c]

theorem escape_escaped (c : Char) : Escaped c (escape c) := by
  have hc := Char.ofNat_toNat c
  unfold escape
  split
  next h => exact .short (by rw [← hc, h]; decide) (by decide)
  next h => exact .short (by rw [← hc, h]; decide) (by decide)
  next h => exact .short (by rw [← hc, h]; decide) (by decide)
  next h => exact .short (by rw [← hc, h]; decide) (by decide)
  next h => exact .short (by rw [← hc, h]; decide) (by decide)
  next h => exact .short (by rw [← hc, h]; decide) (by decide)
  next h => exact .short (by rw [← hc, h]; decide) (by decide)
  next hquote hbackslash _ _ _ _ _ =>
    split
    next h => exact .code h
    next h =>
      refine .plain (by omega) ?_ ?_
      · rintro rfl
        exact hquote rfl
      · rintro rfl
        exact hbackslash rfl

theorem readChars_escape (c : Char) (rest : List Char) :
    readChars (escape c ++ rest) = (readChars rest).map (Prod.map (c :: ·) id) := by
  have hescaped := escape_escaped c
  generalize escape c = chars at hescaped
  cases hescaped with
  | @short e h hne =>
      have hread := readChars.eq_3 e rest (fun _ _ _ _ _ heq => absurd heq hne)
      exact hread.trans (by rw [h, Option.bind_some])
  | code h =>
      have hdigits :
          readDigits 16 ['0', '0', Nat.digitChar (c.toNat / 16), Nat.digitChar (c.toNat % 16)] =
          some c.toNat := by
        have hzero : toDigit 16 '0' = some 0 := by decide
        have hhigh := @toDigit_digitChar 16 (c.toNat / 16) (by decide) (by omega)
        have hlow := @toDigit_digitChar 16 (c.toNat % 16) (by decide) (by omega)
        simp [readDigits, hzero, hhigh, hlow, Nat.div_add_mod']
      simp only [List.cons_append, List.nil_append, readChars, hdigits, Option.bind_some,
        Char.ofNat_toNat]
  | plain h hquote hbackslash =>
      have hread := readChars.eq_4 c rest hquote (fun _ _ _ _ _ heq => absurd heq hbackslash)
        (fun _ _ heq => absurd heq hbackslash)
      exact hread.trans (if_neg (by omega))

theorem readString_quote (s : String) (rest : List Char) :
    readString (quote s ++ rest) = some (s, rest) := by
  have hchars : ∀ chars : List Char, readChars (chars.flatMap escape ++ '"' :: rest) = some
      (chars, rest) := by
    intro chars
    induction chars with
    | nil => rfl
    | cons c chars ih => rw [List.flatMap_cons, List.append_assoc, readChars_escape, ih]; rfl
  have hquote : quote s ++ rest = '"' :: (s.toList.flatMap escape ++ '"' :: rest) := by
    rw [quote, List.append_assoc, List.cons_append, List.singleton_append]
  simp only [hquote, readString, hchars, Option.map_some, String.ofList_toList]

/-- Does not begin with a digit, so that a number before it ends there. -/
def Undigited (rest : List Char) : Prop := ∀ c ∈ rest.head?, toDigit 10 c = none

section Items

variable {α : Type} {item : List Char → Option (α × List Char)} {close : Char}
  {text : α → List Char} {fuel : Nat}

def ReadsBack (item : List Char → Option (α × List Char)) (text : α → List Char) (x : α) : Prop :=
  ∀ rest, Undigited rest → item (text x ++ rest) = some (x, rest)

theorem readItems_intercalate (hclose : close ≠ ',' ∧ toDigit 10 close = none)
    {xs : List α} (hne : xs ≠ [])
    (hitem : ∀ x ∈ xs, ReadsBack item text x) (hfuel : xs.length ≤ fuel) (rest : List Char) :
    readItems item close fuel ([','].intercalate (xs.map text) ++ close :: rest) = some
      (xs, rest) := by
  induction xs generalizing fuel with
  | nil => exact absurd rfl hne
  | cons x xs ih =>
      obtain ⟨hx, hxs⟩ := List.forall_mem_cons.mp hitem
      cases fuel with
      | zero => cases hfuel
      | succ fuel =>
          cases xs with
          | nil =>
              have hlast := hx (close :: rest) (by rintro _ ⟨⟩; exact hclose.2)
              simp only [List.map_cons, List.map_nil, List.intercalate_singleton, readItems, hlast,
                Option.bind_eq_bind, Option.bind_some,
                if_true]
          | cons y xs =>
              have hrest := ih (List.cons_ne_nil y xs) hxs (Nat.le_of_succ_le_succ hfuel)
              have hfirst := hx (',' :: ([','].intercalate ((y :: xs).map text) ++ close :: rest))
                (by rintro _ ⟨⟩; decide)
              have htext : [','].intercalate ((x :: y :: xs).map text) ++ close :: rest =
                  text x ++ ',' :: ([','].intercalate ((y :: xs).map text) ++ close :: rest) := by
                simp [List.intercalate_cons_cons]
              rw [htext, readItems, hfirst]
              simp only [Option.bind_eq_bind, Option.bind_some,
                if_neg hclose.1.symm, if_true, hrest]

theorem readList_intercalate (hclose : close ≠ ',' ∧ toDigit 10 close = none) {xs : List α}
    (hitem : ∀ x ∈ xs, ReadsBack item text x)
    (hhead : ∀ x ∈ xs, ∃ c chars, text x = c :: chars ∧ c ≠ close)
    (hfuel : xs.length ≤ fuel) (rest : List Char) :
    readList item close fuel ([','].intercalate (xs.map text) ++ close :: rest) = some
      (xs, rest) := by
  cases xs with
  | nil => exact if_pos rfl
  | cons x xs =>
      have hitems := readItems_intercalate hclose (List.cons_ne_nil x xs) hitem hfuel rest
      obtain ⟨c, chars, htext, hc⟩ := hhead x List.mem_cons_self
      have hne : ([','].intercalate ((x :: xs).map text) ++ close :: rest).head? ≠ some close := by
        cases xs with
        | nil => simp [htext, hc]
        | cons y xs => simp [List.intercalate_cons_cons, htext, hc]
      exact (if_neg hne).trans hitems

theorem length_le_intercalate {xs : List α} {x : α} (hx : x ∈ xs) :
    (text x).length ≤ ([','].intercalate (xs.map text)).length := by
  induction xs with
  | nil => cases hx
  | cons y xs ih =>
      cases xs with
      | nil => simp [List.mem_singleton.mp hx]
      | cons z xs =>
          rw [List.map_cons, List.map_cons, List.intercalate_cons_cons, List.length_append,
            List.length_append]
          rcases List.mem_cons.mp hx with rfl | hx
          · omega
          · have hle := ih hx
            rw [List.map_cons] at hle
            omega

theorem count_le_intercalate {xs : List α} (hne : ∀ x ∈ xs, text x ≠ []) :
    xs.length ≤ ([','].intercalate (xs.map text)).length := by
  induction xs with
  | nil => exact Nat.zero_le _
  | cons x xs ih =>
      obtain ⟨hx, hxs⟩ := List.forall_mem_cons.mp hne
      have hpos := List.length_pos_iff.mpr hx
      cases xs with
      | nil => simpa [Nat.succ_le_iff] using hpos
      | cons y xs =>
          have hle := ih hxs
          rw [List.map_cons, List.map_cons, List.intercalate_cons_cons, List.length_append,
            List.length_append]
          rw [List.map_cons] at hle
          simp only [List.length_cons] at hle ⊢
          omega

end Items

theorem write_head (j : Json) : ∃ c chars, write j = c :: chars ∧ c ≠ ']' := by
  cases j with
  | bool b => cases b <;> exact ⟨_, _, rfl, by decide⟩
  | number n =>
      obtain ⟨c, chars, hchars⟩ :=
        List.exists_cons_of_ne_nil (Nat.toDigits_ne_nil (b := 10) (n := n))
      refine ⟨c, chars, hchars, ?_⟩
      rintro rfl
      obtain ⟨d, hd, heq⟩ :=
        digit_of_mem_toDigits (b := 10) (n := n) (by decide)
          (by rw [hchars]; exact List.mem_cons_self)
      have hdigit := @toDigit_digitChar 10 d (by decide) hd
      rw [← heq] at hdigit
      cases hdigit
  | string s => exact ⟨_, _, rfl, by decide⟩
  | array elements => exact ⟨_, _, rfl, by decide⟩
  | object members => exact ⟨_, _, rfl, by decide⟩

theorem readValue_digit {fuel : Nat} {c : Char} (hc : (toDigit 10 c).isSome = true)
    (chars : List Char) :
    readValue (fuel + 1) (c :: chars) = readNumber (c :: chars) := by
  have hne {d : Char} (hd : (toDigit 10 d).isSome = false) : c ≠ d := by
    rintro rfl
    rw [hc] at hd
    cases hd
  rw [readValue]
  · exact fun _ heq => hne (by decide) (List.cons.inj heq).1
  · exact fun _ heq => hne (by decide) (List.cons.inj heq).1
  · exact fun _ heq => hne (by decide) (List.cons.inj heq).1
  · exact fun _ heq => hne (by decide) (List.cons.inj heq).1
  · exact fun _ heq => hne (by decide) (List.cons.inj heq).1

theorem readMember_write {value : List Char → Option (Json × List Char)} {m : String × Json}
    (h : ReadsBack value write m.2) :
    ReadsBack (readMember value) writeMember m := by
  intro rest hrest
  obtain ⟨key, j⟩ := m
  have htext : writeMember (key, j) ++ rest = quote key ++ ':' :: (write j ++ rest) := by
    rw [writeMember, List.append_assoc, List.cons_append]
  simp only [readMember, htext, readString_quote, h rest hrest, Option.bind_eq_bind,
    Option.bind_some]

/-- A value is read back from its text, whatever follows it. -/
theorem readValue_write (j : Json) {fuel : Nat} (hfuel : (write j).length ≤ fuel) :
    ReadsBack (readValue fuel) write j := by
  induction j using Json.induction generalizing fuel with
  | bool b =>
      intro rest _
      cases fuel with
      | zero => cases b <;> cases hfuel
      | succ fuel => cases b <;> rfl
  | number n =>
      intro rest hrest
      obtain ⟨c, chars, hchars⟩ :=
        List.exists_cons_of_ne_nil (Nat.toDigits_ne_nil (b := 10) (n := n))
      have hread := readNumber_toDigits n hrest
      rw [write, hchars] at hfuel
      rw [write]
      rw [hchars] at hread ⊢
      obtain ⟨d, hd, rfl⟩ :=
        digit_of_mem_toDigits (b := 10) (n := n) (by decide)
          (by rw [hchars]; exact List.mem_cons_self)
      cases fuel with
      | zero => cases hfuel
      | succ fuel =>
          rw [List.cons_append] at hread ⊢
          rw [readValue_digit (by rw [toDigit_digitChar (by decide) hd]; rfl), hread]
  | string s =>
      intro rest _
      cases fuel with
      | zero => cases hfuel
      | succ fuel =>
          have hread := readString_quote s rest
          have hvalue : readValue (fuel + 1) (write (.string s) ++ rest) =
            (readString (quote s ++ rest)).map fun (s, rest) => (.string s, rest) := rfl
          rw [hvalue, hread, Option.map_some]
  | array elements ih =>
      intro rest _
      have hbounds :=
        @count_le_intercalate _ write elements
          (fun j _ => by obtain ⟨c, chars, h, _⟩ := write_head j; simp [h])
      have hlength : (write (.array elements)).length =
          ([','].intercalate (elements.map write)).length + 2 := by
        simp [write, writeElements_eq]
      cases fuel with
      | zero => omega
      | succ fuel =>
          have hlist := @readList_intercalate _ (readValue fuel) ']' write fuel (by decide) elements
            (fun j hj => ih j hj (by have hle := @length_le_intercalate _ write _ _ hj; omega))
              (fun j _ => write_head j) (by omega) rest
          have htext : write (.array elements) ++ rest =
              '[' :: ([','].intercalate (elements.map write) ++ ']' :: rest) := by
            simp [write, writeElements_eq]
          rw [htext]
          simp only [readValue, hlist, Option.map_some]
  | object members ih =>
      intro rest _
      have hbounds :=
        @count_le_intercalate _ writeMember members (fun m _ => by simp [writeMember_eq])
      have hlength : (write (.object members)).length =
          ([','].intercalate (members.map writeMember)).length + 2 := by
        simp [write, writeMembers_eq]
      cases fuel with
      | zero => omega
      | succ fuel =>
          have hmember : ∀ m ∈ members, ReadsBack (readMember (readValue fuel)) writeMember m := by
            intro m hm
            have hle := @length_le_intercalate _ writeMember _ _ hm
            have hvalue : (write m.2).length ≤ (writeMember m).length := by
              simp [writeMember_eq]
              omega
            exact readMember_write (ih m hm (by omega))
          have hlist := @readList_intercalate _ (readMember (readValue fuel)) '}' writeMember fuel
            (by decide) members hmember
            (fun m _ => ⟨_, _, writeMember_eq m, by decide⟩) (by omega) rest
          have htext : write (.object members) ++ rest =
              '{' :: ([','].intercalate (members.map writeMember) ++ '}' :: rest) := by
            simp [write, writeMembers_eq]
          rw [htext]
          simp only [readValue, hlist, Option.map_some]

theorem read_write (j : Json) : read (write j) = some j := by
  have hread := readValue_write j (Nat.le_refl _) [] (by rintro _ ⟨⟩)
  rw [List.append_nil] at hread
  rw [read, hread]
  rfl

theorem quote_printed {s : String} {c : Char} (hc : c ∈ quote s) : 0x20 ≤ c.toNat := by
  have hdigit : ∀ d : Fin 16, 0x20 ≤ (Nat.digitChar d).toNat := by decide
  have hchar : ∀ c' : Char, c ∈ escape c' → 0x20 ≤ c.toNat := by
    intro c' hc
    have hescaped := escape_escaped c'
    generalize escape c' = chars at hescaped hc
    cases hescaped with
    | @short e h _ =>
        have he : 0x20 ≤ e.toNat := by
          unfold unescape at h
          split at h
          all_goals first | decide | cases h
        rcases List.mem_pair.mp hc with rfl | rfl
        · decide
        · exact he
    | code h =>
        have hhigh := hdigit ⟨c'.toNat / 16, by omega⟩
        have hlow := hdigit ⟨c'.toNat % 16, by omega⟩
        simp only [List.mem_cons, List.not_mem_nil, or_false] at hc
        rcases hc with rfl | rfl | rfl | rfl | rfl | rfl
        · decide
        · decide
        · decide
        · decide
        · exact hhigh
        · exact hlow
    | plain h => rwa [List.mem_singleton.mp hc]
  rw [quote, List.mem_append, List.mem_cons] at hc
  rcases hc with (rfl | hc) | hc
  · decide
  · obtain ⟨c', _, hc⟩ := List.mem_flatMap.mp hc
    exact hchar c' hc
  · rw [List.mem_singleton.mp hc]
    decide

theorem intercalate_printed {parts : List (List Char)}
    (h : ∀ part ∈ parts, ∀ c ∈ part, 0x20 ≤ c.toNat) {c : Char}
    (hc : c ∈ [','].intercalate parts) : 0x20 ≤ c.toNat := by
  rcases mem_intercalate hc with rfl | ⟨part, hpart, hc⟩
  · decide
  · exact h part hpart c hc

/-- The text has no control characters and so is in one line. -/
theorem write_printed (j : Json) : ∀ c ∈ write j, 0x20 ≤ c.toNat := by
  induction j using Json.induction with
  | bool b =>
      have hall : (write (.bool b)).all (fun c => decide (0x20 ≤ c.toNat)) = true := by
        cases b <;> rfl
      exact fun c hc => of_decide_eq_true (List.all_eq_true.mp hall c hc)
  | number n =>
      intro c hc
      have hdigit : ∀ d : Fin 10, 0x20 ≤ (Nat.digitChar d).toNat := by decide
      obtain ⟨d, hd, rfl⟩ := @digit_of_mem_toDigits 10 (by decide) n c (by simpa [write] using hc)
      exact hdigit ⟨d, hd⟩
  | string s => exact fun c hc => quote_printed hc
  | array elements ih =>
      intro c hc
      rw [write, writeElements_eq, List.mem_append, List.mem_cons] at hc
      rcases hc with (rfl | hc) | hc
      · decide
      · exact intercalate_printed (List.forall_mem_map.mpr ih) hc
      · rw [List.mem_singleton.mp hc]
        decide
  | object members ih =>
      intro c hc
      rw [write, writeMembers_eq, List.mem_append, List.mem_cons] at hc
      have hmember : ∀ m ∈ members, ∀ c ∈ writeMember m, 0x20 ≤ c.toNat := by
        rintro ⟨key, j⟩ hm c hc
        rw [writeMember, List.mem_append, List.mem_cons] at hc
        rcases hc with hc | rfl | hc
        · exact quote_printed hc
        · decide
        · exact ih _ hm c hc
      rcases hc with (rfl | hc) | hc
      · decide
      · exact intercalate_printed (List.forall_mem_map.mpr hmember) hc
      · rw [List.mem_singleton.mp hc]
        decide

end AtvRemote.JsonTexts
