import AtvRemote.AddressTexts
import AtvRemote.Texts

namespace AtvRemote.AddressParsing

open SystemCalls Numerals Pieces Texts AddressTexts

/-- Reads from the start of a text. A reader that fails has read nothing. -/
abbrev Reader (α : Type) := List Char → Option (α × List Char)

def readGivenChar (c : Char) : Reader Unit
  | c' :: rest => if c' = c then some ((), rest) else none
  | [] => none

def readSeparator {α : Type} (sep : Char) (index : Nat) (inner : Reader α) : Reader α :=
  fun chars =>
  if index > 0 then (readGivenChar sep chars).bind fun read => inner read.2 else inner chars

/-- The loop of `readNumber`, with the value and the number of the digits so
far. -/
def readDigits (radix maxDigits : Nat) : Nat → Nat → Reader (Nat × Nat)
  | result, count, [] => some ((result, count), [])
  | result, count, c :: rest =>
      match toDigit radix c with
      | some d =>
          if count + 1 > maxDigits then none else readDigits radix maxDigits (result * radix + d)
            (count + 1) rest
      | none => some ((result, count), c :: rest)

/-- `bound` is the first number that the type of the result does not have. -/
def readNumber (radix maxDigits bound : Nat) (allowZeroPrefix : Bool) : Reader Nat :=
  fun chars => do
  let ((result, count), rest) ← readDigits radix maxDigits 0 0 chars
  if count = 0 then none
  else if !allowZeroPrefix && chars.head? == some '0' && decide (count > 1) then none
  else if result < bound then some (result, rest)
  else none

def readOctet : Reader UInt8 :=
  fun chars => (readNumber 10 3 256 false chars).map (Prod.map UInt8.ofNat id)

def readOctets : Nat → Nat → Reader (List UInt8)
  | 0, _, chars => some ([], chars)
  | left + 1, i, chars => do
      let (octet, rest) ← readSeparator '.' i readOctet chars
      let (octets, rest) ← readOctets left (i + 1) rest
      some (octet :: octets, rest)

def readIpv4Addr : Reader (List UInt8) := readOctets 4 0

def readGroup : Reader UInt16 :=
  fun chars => (readNumber 16 4 65536 true chars).map (Prod.map UInt16.ofNat id)

def fromBeBytes (high low : UInt8) : UInt16 := UInt16.ofNat (high.toNat * 256 + low.toNat)

/-- The groups that an embedded IPv4 address takes. -/
def octetGroups : List UInt8 → List UInt16
  | high :: low :: octets => fromBeBytes high low :: octetGroups octets
  | _ => []

/-- The groups from the `i`th on, of which there may be as many as are left,
and whether the last two of them were read as an IPv4 address. -/
def readGroups : Nat → Nat → List Char → (List UInt16 × Bool) × List Char
  | 0, _, chars => (([], false), chars)
  | left + 1, i, chars =>
      match if left > 0 then readSeparator ':' i readIpv4Addr chars else none with
      | some (octets, rest) => ((octetGroups octets, true), rest)
      | none =>
          match readSeparator ':' i readGroup chars with
          | some (group, rest) =>
              let read := readGroups left (i + 1) rest
              ((group :: read.1.1, read.1.2), read.2)
          | none => (([], false), chars)

/-- An address without `::` has eight groups. The `::` stands for at least one. -/
def readIpv6Addr : Reader (List UInt16) := fun chars =>
  let ((head, headIpv4), rest) := readGroups 8 0 chars
  if head.length = 8 then some (head, rest)
  else if headIpv4 then none
  else do
    let (_, rest) ← readGivenChar ':' rest
    let (_, rest) ← readGivenChar ':' rest
    let ((tail, _), rest) := readGroups (8 - (head.length + 1)) 0 rest
    some (head ++ List.replicate (8 - head.length - tail.length) 0 ++ tail, rest)

/-- The array of zeros over which the parts of the address are written. -/
def filled {α : Type} [Inhabited α] (n : Nat) (parts : List α) : Vector α n :=
  Vector.ofFn fun i => parts.getD i default

def readIpAddr : Reader IpAddr := fun chars =>
  ((readIpv4Addr chars).map (Prod.map (fun octets => .v4 (filled 4 octets)) id)).or
    ((readIpv6Addr chars).map (Prod.map (fun groups => .v6 (filled 8 groups)) id))

/-- `IpAddr::from_str`: the whole text is an address. -/
def fromStr (s : String) : Option IpAddr :=
  match readIpAddr s.toList with
  | some (addr, []) => some addr
  | _ => none

example : (fromStr "192.0.2.10").map IpAddr.text = some "192.0.2.10" := by decide +kernel

example : fromStr "192.0.2.010" = none := by decide +kernel

example : fromStr "::ffff:192.0.2.10" = fromStr "0:0:0:0:0:FFFF:c000:20a" := by decide +kernel

section Numbers

/-- What may follow a number. -/
def Stops (rest : List Char) : Prop := ∀ c ∈ rest.head?, c = ':' ∨ c = '.'

theorem stops_nil : Stops [] := by simp [Stops]

theorem stops_cons {c : Char} {rest : List Char} (hc : c = ':' ∨ c = '.') : Stops (c :: rest) := by
  simpa [Stops] using hc

variable {radix maxDigits : Nat} (hradix : radix = 10 ∨ radix = 16)

theorem toDigit_separator {c : Char} (hc : c = ':' ∨ c = '.') : toDigit radix c = none := by
  rcases hc with rfl | rfl <;> rfl

include hradix in
theorem toDigit_digitChar {d : Nat} (hd : d < radix) :
    toDigit radix (Nat.digitChar d) = some d := by
  rcases hradix with rfl | rfl
  · have hall : ∀ d : Fin 10, toDigit 10 (Nat.digitChar d) = some d.val := by decide
    exact hall ⟨d, hd⟩
  · have hall : ∀ d : Fin 16, toDigit 16 (Nat.digitChar d) = some d.val := by decide
    exact hall ⟨d, hd⟩

def value (radix : Nat) (digits : List Nat) (n : Nat) : Nat :=
  digits.foldl (fun n d => n * radix + d) n

include hradix in
theorem toDigits_digits (n : Nat) :
    ∃ digits, List.Forall₂ (fun c d => toDigit radix c = some d) (Nat.toDigits radix n) digits ∧
      value radix digits 0 = n := by
  have hb : 1 < radix := by omega
  induction n using Nat.strongRecOn with
  | ind n ih =>
      rw [Nat.toDigits_eq_if hb]
      split
      next hn => exact ⟨[n], .cons (toDigit_digitChar hradix hn) .nil, by simp [value]⟩
      next hn =>
        obtain ⟨digits, hdigits, hvalue⟩ := ih (n / radix) (Nat.div_lt_self (by omega) hb)
        have hlast : n % radix < radix := Nat.mod_lt n (by omega)
        refine ⟨digits ++ [n % radix], List.rel_append hdigits
          (.cons (toDigit_digitChar hradix hlast) .nil), ?_⟩
        have hsnoc : value radix (digits ++ [n % radix]) 0 = value radix digits 0 * radix +
            n % radix := by simp [value]
        rw [hsnoc, hvalue]
        exact Nat.div_add_mod' n radix

theorem readDigits_append {chars rest : List Char} {digits : List Nat} {result count : Nat}
    (h : List.Forall₂ (fun c d => toDigit radix c = some d) chars digits)
    (hcount : count + chars.length ≤ maxDigits)
    (hrest : ∀ c ∈ rest.head?, toDigit radix c = none) :
    readDigits radix maxDigits result count (chars ++ rest) =
      some ((value radix digits result, count + chars.length), rest) := by
  induction h generalizing result count with
  | nil =>
      cases rest with
      | nil => rfl
      | cons c rest => simp [readDigits, hrest c rfl, value]
  | @cons c d chars digits hd _ ih =>
      rw [List.length_cons] at hcount
      have hroom : ¬count + 1 > maxDigits := by omega
      rw [List.cons_append, readDigits, hd]
      dsimp only
      rw [if_neg hroom, ih (by omega), List.length_cons, Nat.add_right_comm, Nat.add_assoc]
      rfl

include hradix in
/-- Only zero itself is written with a leading zero. -/
theorem head_toDigits {n : Nat} (hn : 0 < n) : (Nat.toDigits radix n).head? ≠ some '0' := by
  have hb : 1 < radix := by omega
  induction n using Nat.strongRecOn with
  | ind n ih =>
      rw [Nat.toDigits_eq_if hb]
      split
      next hlt =>
        intro h
        have hzero : Nat.digitChar n = Nat.digitChar 0 := Option.some.inj h
        have h16 : n < 16 := by omega
        exact Nat.ne_of_gt hn (digitChar_injective h16 (by decide) hzero)
      next hge =>
        rw [List.head?_append_of_ne_nil _ Nat.toDigits_ne_nil]
        exact ih (n / radix) (Nat.div_lt_self hn hb) (Nat.div_pos (by omega) (by omega))

include hradix in
theorem readNumber_toDigits {n bound : Nat} {allowZeroPrefix : Bool} {rest : List Char}
    (hlength : (Nat.toDigits radix n).length ≤ maxDigits) (hbound : n < bound)
    (hrest : Stops rest) :
    readNumber radix maxDigits bound allowZeroPrefix (Nat.toDigits radix n ++ rest) =
      some (n, rest) := by
  have hb : 1 < radix := by omega
  obtain ⟨digits, hdigits, hvalue⟩ := toDigits_digits hradix n
  have hpos : (Nat.toDigits radix n).length ≠ 0 := Nat.ne_of_gt Nat.length_toDigits_pos
  have hprefix : (Nat.toDigits radix n).head? = some '0' → (Nat.toDigits radix n).length ≤ 1 := by
    intro hzero
    rcases Nat.eq_zero_or_pos n with rfl | hn
    · rw [Nat.toDigits_eq_if hb, if_pos (by omega), List.length_singleton]
    · exact absurd hzero (head_toDigits hradix hn)
  rw [readNumber, readDigits_append hdigits (by omega) fun c hc => toDigit_separator
    (hrest c hc), hvalue]
  simpa [hpos, hbound] using fun _ => hprefix

theorem readDigits_suffix {result count : Nat} {chars : List Char} {read : (Nat × Nat) × List Char}
    (h : readDigits radix maxDigits result count chars = some read) : read.2 <:+ chars := by
  induction chars generalizing result count with
  | nil =>
      obtain rfl := Option.some.inj h
      exact List.suffix_refl _
  | cons c chars ih =>
      rw [readDigits] at h
      split at h
      · split at h
        · cases h
        · exact (ih h).trans (List.suffix_cons c chars)
      · obtain rfl := Option.some.inj h
        exact List.suffix_refl _

theorem readNumber_suffix {bound : Nat} {allowZeroPrefix : Bool} {chars : List Char}
    {read : Nat × List Char}
    (h : readNumber radix maxDigits bound allowZeroPrefix chars = some read) :
    read.2 <:+ chars := by
  obtain ⟨⟨⟨result, count⟩, rest⟩, hdigits, h⟩ := Option.bind_eq_some_iff.mp h
  have hrest := readDigits_suffix hdigits
  dsimp only at h
  split at h
  · cases h
  · split at h
    · cases h
    · split at h
      · obtain rfl := Option.some.inj h
        exact hrest
      · cases h

theorem readNumber_none {bound : Nat} {allowZeroPrefix : Bool} {chars : List Char}
    (h : ∀ c ∈ chars.head?, toDigit radix c = none) :
    readNumber radix maxDigits bound allowZeroPrefix chars = none := by
  have hnone : readDigits radix maxDigits 0 0 chars = some ((0, 0), chars) :=
    @readDigits_append _ _ [] _ [] _ _ .nil (Nat.zero_le _) h
  simp [readNumber, hnone]

end Numbers

section Parts

variable {α : Type} {sep : Char} {i : Nat} {inner : Reader α} {chars rest : List Char}

theorem readSeparator_first : readSeparator sep 0 inner chars = inner chars := rfl

theorem readSeparator_later (hi : 0 < i) :
    readSeparator sep i inner (sep :: chars) = inner chars := by
  simp [readSeparator, hi, readGivenChar]

theorem readSeparator_suffix (hi : 0 < i) {read : α × List Char}
    (h : readSeparator sep i inner chars = some read) :
    ∃ rest, chars = sep :: rest ∧ inner rest = some read := by
  rw [readSeparator, if_pos hi] at h
  obtain ⟨⟨_, rest⟩, hgiven, hinner⟩ := Option.bind_eq_some_iff.mp h
  cases chars with
  | nil => cases hgiven
  | cons c chars =>
      rw [readGivenChar] at hgiven
      split at hgiven
      next hc =>
        cases hgiven
        exact ⟨_, by rw [hc], hinner⟩
      next => cases hgiven

theorem intercalate_cons (x : Char) (piece : List Char) (pieces : List (List Char)) :
    [x].intercalate (piece :: pieces) = piece ++ pieces.flatMap (x :: ·) := by
  induction pieces generalizing piece with
  | nil => simp
  | cons next pieces ih =>
      rw [List.intercalate_cons_cons, ih, List.flatMap_cons, List.append_assoc,
        List.singleton_append, List.cons_append]

theorem readOctet_digits (b : UInt8) (h : Stops rest) :
    readOctet (octetDigits b ++ rest) = some (b, rest) := by
  have hb := b.toNat_lt
  have hlength : (Nat.toDigits 10 b.toNat).length ≤ 3 :=
    (Nat.length_toDigits_le_iff (by decide) (by decide)).mpr (Nat.lt_trans hb (by decide))
  rw [readOctet, octetDigits, readNumber_toDigits (.inl rfl) hlength hb h, Option.map_some,
    Prod.map, UInt8.ofNat_toNat, id]

theorem readGroup_digits (g : UInt16) (h : Stops rest) :
    readGroup (segmentDigits g ++ rest) = some (g, rest) := by
  have hg := g.toNat_lt
  have hlength : (Nat.toDigits 16 g.toNat).length ≤ 4 :=
    (Nat.length_toDigits_le_iff (by decide) (by decide)).mpr hg
  rw [readGroup, segmentDigits, readNumber_toDigits (.inr rfl) hlength hg h, Option.map_some,
    Prod.map, UInt16.ofNat_toNat, id]

theorem stops_flatMap {β : Type} {f : β → List Char} {c : Char} (hc : c = ':' ∨ c = '.')
    (xs : List β) (h : Stops rest) :
    Stops (xs.flatMap (fun x => c :: f x) ++ rest) := by
  cases xs with
  | nil => exact h
  | cons x xs => exact stops_cons hc

theorem readOctets_later (octets : List UInt8) (hi : 0 < i) (h : Stops rest) :
    readOctets octets.length i (octets.flatMap (fun b => '.' :: octetDigits b) ++ rest) = some
      (octets, rest) := by
  induction octets generalizing i with
  | nil => rfl
  | cons b octets ih =>
      have hnext := stops_flatMap (f := octetDigits) (.inr rfl) octets h
      rw [List.flatMap_cons, List.append_assoc, List.cons_append, List.length_cons, readOctets,
        readSeparator_later hi, readOctet_digits b hnext]
      simp [ih (Nat.succ_pos i)]

theorem readIpv4Addr_dotted {octets : List UInt8} (hlength : octets.length = 4) (h : Stops rest) :
    readIpv4Addr ((dotted octets).toList ++ rest) = some (octets, rest) := by
  cases octets with
  | nil => cases hlength
  | cons b octets =>
      have hnext := stops_flatMap (f := octetDigits) (.inr rfl) octets h
      rw [toList_dotted, List.map_cons, intercalate_cons, List.flatMap_map, List.append_assoc,
        readIpv4Addr, ← hlength, List.length_cons,
        readOctets, readSeparator_first, readOctet_digits b hnext]
      simp [readOctets_later octets (Nat.succ_pos 0) h]

/-- An IPv4 address has a dot. -/
theorem readIpv4Addr_undotted (h : '.' ∉ chars) : readIpv4Addr chars = none := by
  cases hread : readIpv4Addr chars with
  | none => rfl
  | some read =>
      obtain ⟨⟨b, rest⟩, hfirst, hread⟩ := Option.bind_eq_some_iff.mp hread
      obtain ⟨⟨octets, rest'⟩, hrest, _⟩ := Option.bind_eq_some_iff.mp hread
      obtain ⟨⟨b', rest''⟩, hsecond, _⟩ := Option.bind_eq_some_iff.mp hrest
      obtain ⟨tail, htail, _⟩ := readSeparator_suffix (Nat.succ_pos 0) hsecond
      obtain ⟨number, hnumber, heq⟩ := Option.map_eq_some_iff.mp hfirst
      have hrest : number.2 = '.' :: tail := (congrArg Prod.snd heq).trans htail
      have hsuffix := readNumber_suffix hnumber
      rw [hrest] at hsuffix
      exact absurd (hsuffix.subset List.mem_cons_self) h

/-- What ends a run of groups. -/
def Ends (rest : List Char) : Prop := rest = [] ∨ ∃ more, rest = ':' :: ':' :: more

theorem Ends.stops (h : Ends rest) : Stops rest := by
  rcases h with rfl | ⟨more, rfl⟩
  · exact stops_nil
  · exact stops_cons (.inl rfl)

theorem readGroup_stops (h : Stops chars) : readGroup chars = none := by
  rw [readGroup, readNumber_none fun c hc => toDigit_separator (h c hc), Option.map_none]

theorem readIpv4Addr_none (h : ∀ c ∈ chars.head?, toDigit 10 c = none) :
    readIpv4Addr chars = none := by
  have hoctet : readOctet chars = none := by rw [readOctet, readNumber_none h, Option.map_none]
  simp [readIpv4Addr, readOctets, readSeparator_first, hoctet]

theorem Ends.separator (h : Ends rest) (i : Nat) : readSeparator ':' i readGroup rest = none := by
  cases i with
  | zero => exact readGroup_stops h.stops
  | succ i =>
      rcases h with rfl | ⟨more, rfl⟩
      · rfl
      · rw [readSeparator_later (Nat.succ_pos i)]
        exact readGroup_stops (stops_cons (.inl rfl))

theorem separator_undotted (h : '.' ∉ chars) (i : Nat) :
    readSeparator ':' i readIpv4Addr chars = none := by
  cases i with
  | zero => exact readIpv4Addr_undotted h
  | succ i =>
      cases hread : readSeparator ':' (i + 1) readIpv4Addr chars with
      | none => rfl
      | some read =>
          obtain ⟨rest, rfl, hinner⟩ := readSeparator_suffix (Nat.succ_pos i) hread
          rw [readIpv4Addr_undotted fun hmem => h (List.mem_cons_of_mem _ hmem)] at hinner
          cases hinner

theorem readGroups_none {left : Nat} (hipv4 : readSeparator ':' i readIpv4Addr chars = none)
    (hgroup : readSeparator ':' i readGroup chars = none) :
    readGroups left i chars = (([], false), chars) := by
  cases left with
  | zero => rfl
  | succ left => simp [readGroups, hipv4, hgroup]

theorem readGroups_group {left : Nat} {g : UInt16}
    (hipv4 : readSeparator ':' i readIpv4Addr chars = none)
    (hgroup : readSeparator ':' i readGroup chars = some (g, rest)) :
    readGroups (left + 1) i chars =
      ((g :: (readGroups left (i + 1) rest).1.1, (readGroups left (i + 1) rest).1.2),
      (readGroups left (i + 1) rest).2) := by
  simp [readGroups, hipv4, hgroup]

theorem readGroups_ipv4 {left : Nat} {octets : List UInt8} (hleft : 0 < left)
    (h : readSeparator ':' i readIpv4Addr chars = some (octets, rest)) :
    readGroups (left + 1) i chars = ((octetGroups octets, true), rest) := by
  simp [readGroups, hleft, h]

def later (groups : List UInt16) : List Char := groups.flatMap fun g => ':' :: segmentDigits g

theorem toList_segmentText_cons (g : UInt16) (groups : List UInt16) :
    (segmentText (g :: groups)).toList = segmentDigits g ++ later groups := by
  rw [toList_segmentText, List.map_cons, intercalate_cons, List.flatMap_map, later]

theorem readGroups_later {groups : List UInt16} {left : Nat} (hleft : groups.length ≤ left)
    (hi : 0 < i) (hends : Ends rest)
    (hdot : '.' ∉ later groups ++ rest) :
    readGroups left i (later groups ++ rest) = ((groups, false), rest) := by
  induction groups generalizing left i with
  | nil => exact readGroups_none (separator_undotted hdot i) (hends.separator i)
  | cons g groups ih =>
      cases left with
      | zero => exact absurd hleft (Nat.not_succ_le_zero _)
      | succ left =>
          have htext : later (g :: groups) ++ rest =
              ':' :: (segmentDigits g ++ (later groups ++ rest)) := by simp [later]
          rw [htext] at hdot ⊢
          have hgroup :
              readSeparator ':' i readGroup (':' :: (segmentDigits g ++ (later groups ++ rest))) =
              some (g, later groups ++ rest) := by
            rw [readSeparator_later hi]
            exact readGroup_digits g (stops_flatMap (.inl rfl) groups hends.stops)
          have hrest := ih (Nat.le_of_succ_le_succ hleft) (Nat.succ_pos i) (by simp_all)
          rw [readGroups_group (separator_undotted hdot i) hgroup, hrest]

theorem readGroups_segmentText {groups : List UInt16} {left : Nat} (hleft : groups.length ≤ left)
    (hends : Ends rest) (hdot : '.' ∉ rest) :
    readGroups left 0 ((segmentText groups).toList ++ rest) = ((groups, false), rest) := by
  have hall : '.' ∉ (segmentText groups).toList ++ rest :=
    fun h => (List.mem_append.mp h).elim (dot_not_mem_segmentText groups) hdot
  cases groups with
  | nil => exact readGroups_none (separator_undotted hall 0) (hends.separator 0)
  | cons g groups =>
      cases left with
      | zero => exact absurd hleft (Nat.not_succ_le_zero _)
      | succ left =>
          rw [toList_segmentText_cons, List.append_assoc] at hall ⊢
          have hgroup : readSeparator ':' 0 readGroup (segmentDigits g ++ (later groups ++ rest)) =
              some (g, later groups ++ rest) :=
            readGroup_digits g (stops_flatMap (.inl rfl) groups hends.stops)
          have hrest := readGroups_later (Nat.le_of_succ_le_succ hleft) (Nat.succ_pos 0) hends
            fun h => hall (List.mem_append_right _ h)
          rw [readGroups_group (separator_undotted hall 0) hgroup, hrest]

end Parts

section Addresses

variable {segments : Vector UInt16 8}

theorem filled_toList {α : Type} [Inhabited α] {n : Nat} (v : Vector α n) :
    filled n v.toList = v := by
  ext i hi
  simp [filled]

theorem readIpv6Addr_plain :
    readIpv6Addr (segmentText segments.toList).toList = some (segments.toList, []) := by
  have hlength : segments.toList.length = 8 := Vector.length_toList
  have hgroups := readGroups_segmentText (Nat.le_of_eq hlength) (.inl rfl) List.not_mem_nil
  rw [List.append_nil] at hgroups
  simp [readIpv6Addr, hgroups]

theorem readIpv6Addr_compressed {a b : List UInt16} {n : Nat} (hn : 1 < n)
    (hsplit : segments.toList = a ++ List.replicate n 0 ++ b) :
    readIpv6Addr (segmentText a ++ "::" ++ segmentText b).toList = some (segments.toList, []) := by
  have hlength : a.length + n + b.length = 8 := by
    have h := congrArg List.length hsplit
    rwa [Vector.length_toList, List.length_append, List.length_append,
      List.length_replicate, eq_comm] at h
  have htext : (segmentText a ++ "::" ++ segmentText b).toList = (segmentText a).toList ++ ':' ::
      ':' :: (segmentText b).toList := by simp
  have hdot : '.' ∉ ':' :: ':' :: (segmentText b).toList := by simp [dot_not_mem_segmentText]
  have hhead : readGroups 8 0 ((segmentText a).toList ++ ':' :: ':' :: (segmentText b).toList) =
      ((a, false), ':' :: ':' :: (segmentText b).toList) :=
        readGroups_segmentText (by omega) (.inr ⟨_, rfl⟩) hdot
  have htail : readGroups (7 - a.length) 0 (segmentText b).toList = ((b, false), []) := by
    have h := @readGroups_segmentText [] b (7 - a.length) (by omega) (.inl rfl) List.not_mem_nil
    rwa [List.append_nil] at h
  have hshort : a.length ≠ 8 := by omega
  have hzeros : 8 - a.length - b.length = n := by omega
  rw [htext, readIpv6Addr, hhead]
  simp [hshort, readGivenChar, htail, hzeros, hsplit]

theorem fromBeBytes_halves (s : UInt16) : fromBeBytes (s >>> 8).toUInt8 s.toUInt8 = s := by
  have hs := s.toNat_lt
  apply UInt16.toNat_inj.mp
  simp only [fromBeBytes, UInt16.toNat_ofNat', UInt16.toNat_toUInt8, UInt16.toNat_shiftRight,
    UInt16.toNat_ofNat, Nat.shiftRight_eq_div_pow,
    Nat.reducePow, Nat.reduceMod]
  omega

theorem octetGroups_halves (groups : List UInt16) :
    octetGroups (groups.flatMap fun s : UInt16 => [(s >>> 8).toUInt8, s.toUInt8]) = groups := by
  induction groups with
  | nil => rfl
  | cons s groups ih => simp [octetGroups, fromBeBytes_halves, ih]

/-- The dotted part is read where the seventh group was expected. -/
theorem readIpv6Addr_mapped (hmapped : segments.toList.take 6 = [0, 0, 0, 0, 0, 0xffff]) :
    readIpv6Addr ("::ffff:" ++ dotted (mappedOctets segments.toList)).toList = some
      (segments.toList, []) := by
  have htext : ("::ffff:" ++ dotted (mappedOctets segments.toList)).toList =
      ':' :: ':' ::
        (segmentDigits 0xffff ++ ':' :: (dotted (mappedOctets segments.toList)).toList) := by
    rw [String.toList_append]
    rfl
  have hhead (chars : List Char) : readGroups 8 0 (':' :: chars) = (([], false), ':' :: chars) := by
    have hstops : Stops (':' :: chars) := stops_cons (.inl rfl)
    exact readGroups_none (readIpv4Addr_none fun c hc => toDigit_separator (hstops c hc))
      (readGroup_stops hstops)
  have hlast : readGroups 6 1 (':' :: (dotted (mappedOctets segments.toList)).toList) =
      ((segments.toList.drop 6, true), []) := by
    have hipv4 := readIpv4Addr_dotted (mappedOctets_length segments) stops_nil
    rw [List.append_nil] at hipv4
    have hread : readSeparator ':' 1 readIpv4Addr
        (':' :: (dotted (mappedOctets segments.toList)).toList) =
        some (mappedOctets segments.toList, []) :=
          (readSeparator_later (Nat.succ_pos 0)).trans hipv4
    rw [readGroups_ipv4 (Nat.succ_pos 4) hread, mappedOctets, octetGroups_halves]
  have htail :
      readGroups 7 0
      (segmentDigits 0xffff ++ ':' :: (dotted (mappedOctets segments.toList)).toList) =
      ((0xffff :: segments.toList.drop 6, true), []) := by
    have hgroup :=
      readGroup_digits 0xffff
        (@stops_cons ':' (dotted (mappedOctets segments.toList)).toList (.inl rfl))
    have hipv4 :
        readIpv4Addr
        (segmentDigits 0xffff ++ ':' :: (dotted (mappedOctets segments.toList)).toList) = none := by
      apply readIpv4Addr_none
      rintro c ⟨⟩
      rfl
    rw [@readGroups_group 0 _ _ 6 0xffff hipv4 hgroup, hlast]
  have hsegments : [0, 0, 0, 0, 0, 0xffff] ++ segments.toList.drop 6 = segments.toList := by
    rw [← hmapped, List.take_append_drop]
  rw [htext, readIpv6Addr, hhead]
  simpa [readGivenChar, htail] using hsegments

/-- The zeros are left out only where there are two groups of them or more. -/
theorem readIpv6Addr_text (segments : Vector UInt16 8) :
    readIpv6Addr (IpAddr.v6 segments).text.toList = some (segments.toList, []) := by
  rw [IpAddr.text]
  dsimp only
  split
  next hmapped => exact readIpv6Addr_mapped hmapped
  next =>
    have hnone : ZeroRun segments.toList (0, 0) := fun j _ hj => absurd hj (Nat.not_lt_zero j)
    have hrun := @longestZeros_zeroRun segments.toList [] segments.toList (0, 0) (0, 0) rfl hnone
      (.inl rfl) hnone
    change ZeroRun _ (longestZeros 0 (0, 0) (0, 0) segments.toList) at hrun
    generalize longestZeros 0 (0, 0) (0, 0) segments.toList = run at hrun
    split
    next hlen => exact readIpv6Addr_compressed hlen (zeroRun_split hrun (Nat.lt_of_succ_lt hlen))
    next => exact readIpv6Addr_plain

theorem readIpv4Addr_text (segments : Vector UInt16 8) :
    readIpv4Addr (IpAddr.v6 segments).text.toList = none := by
  cases text_shown segments with
  | mapped _ htext =>
      apply readIpv4Addr_none
      rw [htext, String.toList_append]
      rintro c ⟨⟩
      rfl
  | compressed a n b _ htext =>
      rw [htext]
      exact readIpv4Addr_undotted (dot_not_mem_compressed a b)
  | plain htext =>
      rw [htext]
      exact readIpv4Addr_undotted (dot_not_mem_segmentText _)

/-- An address is read back from its text. -/
theorem fromStr_text (addr : IpAddr) : fromStr addr.text = some addr := by
  cases addr with
  | v4 octets =>
      have hread := readIpv4Addr_dotted (octets.length_toList) stops_nil
      rw [List.append_nil] at hread
      simp [fromStr, readIpAddr, IpAddr.text, hread, filled_toList]
  | v6 segments => simp [fromStr, readIpAddr, readIpv4Addr_text, readIpv6Addr_text, filled_toList]

end Addresses

end AtvRemote.AddressParsing
