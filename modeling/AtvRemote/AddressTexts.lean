import AtvRemote.Numerals
import AtvRemote.Pieces
import AtvRemote.SystemCalls

namespace AtvRemote.AddressTexts

open SystemCalls Numerals Pieces

theorem separator_not_digit {c : Char} (hc : c = ':' ∨ c = '.') {d : Nat} (hd : d < 16) :
    c ≠ Nat.digitChar d := by
  have hall : ∀ d : Fin 16, ':' ≠ Nat.digitChar d ∧ '.' ≠ Nat.digitChar d := by decide
  rcases hc with rfl | rfl
  · exact (hall ⟨d, hd⟩).1
  · exact (hall ⟨d, hd⟩).2

theorem separator_not_mem {c : Char} (hc : c = ':' ∨ c = '.') {b : Nat} (hb : 1 < b)
    (hb' : b ≤ 16) (n : Nat) :
    c ∉ Nat.toDigits b n := by
  intro h
  obtain ⟨d, hd, heq⟩ := digit_of_mem_toDigits hb h
  exact separator_not_digit hc (Nat.lt_of_lt_of_le hd hb') heq

def octetDigits (b : UInt8) : List Char := Nat.toDigits 10 b.toNat

def segmentDigits (s : UInt16) : List Char := Nat.toDigits 16 s.toNat

theorem octetDigits_injective : Function.Injective octetDigits := fun _ _ h =>
  UInt8.toNat_inj.mp (toDigits_injective (by decide) (by decide) h)

theorem segmentDigits_injective : Function.Injective segmentDigits := fun _ _ h =>
  UInt16.toNat_inj.mp (toDigits_injective (by decide) (by decide) h)

theorem octetDigits_unseparated {c : Char} (hc : c = ':' ∨ c = '.') (octets : List UInt8) :
    ∀ digits ∈ octets.map octetDigits, c ∉ digits := by
  intro digits hmem
  obtain ⟨b, _, rfl⟩ := List.mem_map.mp hmem
  exact separator_not_mem hc (by decide) (by decide) _

theorem segmentDigits_unseparated {c : Char} (hc : c = ':' ∨ c = '.') (segments : List UInt16) :
    ∀ digits ∈ segments.map segmentDigits, c ∉ digits := by
  intro digits hmem
  obtain ⟨s, _, rfl⟩ := List.mem_map.mp hmem
  exact separator_not_mem hc (by decide) (by decide) _

theorem toList_dotted (octets : List UInt8) :
    (dotted octets).toList = ['.'].intercalate (octets.map octetDigits) := by
  rw [dotted, String.toList_intercalate, List.map_map]
  congr 1
  apply List.map_congr_left
  intro b _
  exact Nat.toList_repr

theorem toList_segmentText (segments : List UInt16) :
    (segmentText segments).toList = [':'].intercalate (segments.map segmentDigits) := by
  rw [segmentText, String.toList_intercalate, List.map_map]
  congr 1
  apply List.map_congr_left
  intro s _
  exact String.toList_ofList

theorem segmentDigits_ne_nil (s : UInt16) : segmentDigits s ≠ [] := Nat.toDigits_ne_nil

/-- The texts between the colons of a run of segments. -/
def fields : List UInt16 → List (List Char)
  | [] => [[]]
  | s :: segments => (s :: segments).map segmentDigits

theorem fields_injective : Function.Injective fields := by
  intro a b h
  cases a with
  | nil =>
      cases b with
      | nil => rfl
      | cons s b => exact absurd (List.cons.inj h).1.symm (segmentDigits_ne_nil s)
  | cons s a =>
      cases b with
      | nil => exact absurd (List.cons.inj h).1 (segmentDigits_ne_nil s)
      | cons s' b => exact List.map_injective_iff.mpr segmentDigits_injective h

theorem splitOn_segmentText (segments : List UInt16) :
    (segmentText segments).toList.splitOn ':' = fields segments := by
  rw [toList_segmentText]
  cases segments with
  | nil => rfl
  | cons s segments =>
      apply List.splitOn_intercalate
      · exact segmentDigits_unseparated (.inl rfl) _
      · exact List.cons_ne_nil _ _

theorem splitOn_append {xs ys : List Char} :
    (xs ++ ':' :: ys).splitOn ':' = xs.splitOn ':' ++ ys.splitOn ':' :=
  List.splitOnP_append_cons xs ys (by decide)

theorem splitOn_compressed (a b : List UInt16) :
    (segmentText a ++ "::" ++ segmentText b).toList.splitOn ':' = fields a ++ [] :: fields b := by
  have hchars : (segmentText a ++ "::" ++ segmentText b).toList = (segmentText a).toList ++ ':' ::
      ([] ++ ':' :: (segmentText b).toList) := by
    simp
  rw [hchars, splitOn_append, splitOn_append, splitOn_segmentText, splitOn_segmentText]
  rfl

/-- The place of the compressed segments is the first that has no digits. -/
theorem compressed_unique {a b a' b' : List UInt16}
    (h : fields a ++ [] :: fields b = fields a' ++ [] :: fields b') :
    a = a' ∧ b = b' := by
  have hdigits : ∀ s : List UInt16, [] ∉ s.map segmentDigits := by
    intro s hmem
    obtain ⟨_, _, heq⟩ := List.mem_map.mp hmem
    exact segmentDigits_ne_nil _ heq
  cases a with
  | nil =>
      cases a' with
      | nil =>
          obtain ⟨_, h⟩ := List.cons.inj h
          exact ⟨rfl, fields_injective (List.cons.inj h).2⟩
      | cons s a' => exact absurd (List.cons.inj h).1.symm (segmentDigits_ne_nil s)
  | cons s a =>
      cases a' with
      | nil => exact absurd (List.cons.inj h).1 (segmentDigits_ne_nil s)
      | cons s' a' =>
          obtain ⟨ha, hb⟩ := first_separator_unique (hdigits _) (hdigits _) h
          exact ⟨List.map_injective_iff.mpr segmentDigits_injective ha, fields_injective hb⟩

/-- The run begins at the first number and is as long as the second. -/
def ZeroRun (segments : List UInt16) (run : Nat × Nat) : Prop :=
  ∀ j, run.1 ≤ j → j < run.1 + run.2 → segments[j]? = some 0

theorem ZeroRun.extend {segments : List UInt16} {run : Nat × Nat} {n : Nat}
    (h : ZeroRun segments run)
    (hend : run.2 = 0 ∨ run.1 + run.2 = n) (hzero : segments[n]? = some 0) :
    ZeroRun segments (if run.2 = 0 then n else run.1, run.2 + 1) ∧ (if run.2 = 0 then n
      else run.1) + (run.2 + 1) = n + 1 := by
  split
  next hempty =>
    constructor
    · intro j hj hj'
      dsimp only at hj hj'
      obtain rfl : j = n := by omega
      exact hzero
    · omega
  next hempty =>
    have hend : run.1 + run.2 = n := hend.resolve_left hempty
    constructor
    · intro j hj hj'
      dsimp only at hj hj'
      by_cases hlast : j = n
      · rw [hlast]
        exact hzero
      · exact h j hj (by omega)
    · omega

theorem longestZeros_zeroRun {segments done rest : List UInt16} {current longest : Nat × Nat}
    (hsegments : segments = done ++ rest)
    (hcurrent : ZeroRun segments current)
    (hend : current.2 = 0 ∨ current.1 + current.2 = done.length)
    (hlongest : ZeroRun segments longest) :
    ZeroRun segments (longestZeros done.length current longest rest) := by
  induction rest generalizing done current longest with
  | nil => exact hlongest
  | cons s rest ih =>
      have hdone : segments = (done ++ [s]) ++ rest := by
        rw [hsegments, List.append_assoc, List.singleton_append]
      have hlength : (done ++ [s]).length = done.length + 1 := List.length_append
      rw [longestZeros, ← hlength]
      split
      next hs =>
        obtain ⟨hcurrent', hend'⟩ := hcurrent.extend hend (by simp [hsegments, hs])
        dsimp only
        generalize (if current.2 = 0 then done.length else current.1) = start at hcurrent' hend'
        apply ih hdone hcurrent' (.inr (hend'.trans hlength.symm))
        split
        · exact hcurrent'
        · exact hlongest
      next =>
        apply ih hdone ?_ (.inl rfl) hlongest
        intro j hj hj'
        exact absurd hj' (Nat.not_lt.mpr hj)

theorem zeroRun_split {segments : List UInt16} {run : Nat × Nat} (h : ZeroRun segments run)
    (hlen : 0 < run.2) :
    segments = segments.take run.1 ++ List.replicate run.2 0 ++ segments.drop (run.1 + run.2) := by
  have hbound : run.1 + run.2 ≤ segments.length := by
    have hlast := h (run.1 + run.2 - 1) (by omega) (by omega)
    obtain ⟨hlt, _⟩ := List.getElem?_eq_some_iff.mp hlast
    omega
  have hzeros : (segments.drop run.1).take run.2 = List.replicate run.2 0 := by
    apply List.eq_replicate_iff.mpr
    constructor
    · rw [List.length_take, List.length_drop]
      omega
    · intro s hs
      obtain ⟨j, hj, rfl⟩ := List.mem_iff_getElem.mp hs
      rw [List.length_take, List.length_drop] at hj
      have hzero := h (run.1 + j) (by omega) (by omega)
      rw [List.getElem_take, List.getElem_drop]
      exact (List.getElem?_eq_some_iff.mp hzero).2
  calc segments = segments.take run.1 ++ segments.drop run.1 := (List.take_append_drop _ _).symm
    _ = segments.take run.1 ++
      ((segments.drop run.1).take run.2 ++ (segments.drop run.1).drop run.2) := by
      rw [List.take_append_drop run.2 (segments.drop run.1)]
    _ = _ := by rw [hzeros, List.drop_drop, List.append_assoc]

/-- The octets in the last two segments of an IPv4-mapped address. -/
def mappedOctets (segments : List UInt16) : List UInt8 :=
  (segments.drop 6).flatMap fun s : UInt16 => [(s >>> 8).toUInt8, s.toUInt8]

inductive Shown (segments : List UInt16) (text : String) : Prop
  | mapped (hmapped : segments.take 6 = [0, 0, 0, 0, 0, 0xffff])
      (htext : text = "::ffff:" ++ dotted (mappedOctets segments))
  | compressed (a : List UInt16) (n : Nat) (b : List UInt16)
      (hsplit : segments = a ++ List.replicate n 0 ++ b)
      (htext : text = segmentText a ++ "::" ++ segmentText b)
  | plain (htext : text = segmentText segments)

theorem text_shown (segments : Vector UInt16 8) :
    Shown segments.toList (IpAddr.v6 segments).text := by
  rw [IpAddr.text]
  dsimp only
  split
  next hmapped => exact .mapped hmapped rfl
  next =>
    have hnone : ZeroRun segments.toList (0, 0) := fun j _ hj => absurd hj (Nat.not_lt_zero j)
    have hrun := @longestZeros_zeroRun segments.toList [] segments.toList (0, 0) (0, 0) rfl hnone
      (.inl rfl) hnone
    change ZeroRun _ (longestZeros 0 (0, 0) (0, 0) segments.toList) at hrun
    generalize longestZeros 0 (0, 0) (0, 0) segments.toList = run at hrun
    split
    next hlen => exact .compressed _ _ _ (zeroRun_split hrun (Nat.lt_of_succ_lt hlen)) rfl
    next => exact .plain rfl

theorem colon_not_mem_dotted (octets : List UInt8) : ':' ∉ (dotted octets).toList := by
  rw [toList_dotted]
  exact not_mem_intercalate (by decide) (octetDigits_unseparated (.inl rfl) octets)

theorem dot_not_mem_segmentText (segments : List UInt16) : '.' ∉ (segmentText segments).toList := by
  rw [toList_segmentText]
  exact not_mem_intercalate (by decide) (segmentDigits_unseparated (.inr rfl) segments)

theorem dot_mem_dotted {octets : List UInt8} (h : 2 ≤ octets.length) :
    '.' ∈ (dotted octets).toList := by
  rw [toList_dotted]
  match octets, h with
  | a :: b :: octets, _ => simp [List.intercalate_cons_cons]

theorem dotted_injective {octets octets' : List UInt8} (hne : octets ≠ []) (hne' : octets' ≠ [])
    (h : dotted octets = dotted octets') : octets = octets' := by
  have hsplit : ∀ {octets}, octets ≠ [] → (dotted octets).toList.splitOn '.' =
      octets.map octetDigits := by
    intro octets hne
    rw [toList_dotted]
    apply List.splitOn_intercalate
    · exact octetDigits_unseparated (.inr rfl) octets
    · simpa using hne
  apply List.map_injective_iff.mpr octetDigits_injective
  rw [← hsplit hne, ← hsplit hne', h]

theorem halves_injective {s s' : UInt16} (hhigh : (s >>> 8).toUInt8 = (s' >>> 8).toUInt8)
    (hlow : s.toUInt8 = s'.toUInt8) : s = s' := by
  have hhigh := congrArg UInt8.toNat hhigh
  have hlow := congrArg UInt8.toNat hlow
  have hs := s.toNat_lt
  have hs' := s'.toNat_lt
  simp only [UInt16.toNat_toUInt8, UInt16.toNat_shiftRight, UInt16.toNat_ofNat,
    Nat.shiftRight_eq_div_pow, Nat.reducePow,
    Nat.reduceMod] at hhigh hlow
  apply UInt16.toNat_inj.mp
  omega

theorem halves_flatMap_injective {segments segments' : List UInt16}
    (h : segments.flatMap (fun s : UInt16 => [(s >>> 8).toUInt8, s.toUInt8]) =
      segments'.flatMap (fun s : UInt16 => [(s >>> 8).toUInt8, s.toUInt8])) : segments =
        segments' := by
  induction segments generalizing segments' with
  | nil =>
      cases segments' with
      | nil => rfl
      | cons s segments' => cases h
  | cons s segments ih =>
      cases segments' with
      | nil => cases h
      | cons s' segments' =>
          obtain ⟨hhigh, h⟩ := List.cons.inj h
          obtain ⟨hlow, h⟩ := List.cons.inj h
          rw [halves_injective hhigh hlow, ih h]

theorem fields_of_length {segments : Vector UInt16 8} : [] ∉ fields segments.toList := by
  have hlength : segments.toList.length = 8 := Vector.length_toList
  cases hsegments : segments.toList with
  | nil =>
      rw [hsegments] at hlength
      cases hlength
  | cons s rest =>
      intro hmem
      obtain ⟨s', _, heq⟩ := List.mem_map.mp hmem
      exact segmentDigits_ne_nil s' heq

theorem mappedOctets_length (segments : Vector UInt16 8) :
    (mappedOctets segments.toList).length = 4 := by
  have hlength : (segments.toList.drop 6).length = 2 := by
    rw [List.length_drop, Vector.length_toList]
  rw [mappedOctets]
  match segments.toList.drop 6, hlength with
  | [s, s'], _ => rfl

theorem mappedOctets_ne_nil (segments : Vector UInt16 8) : mappedOctets segments.toList ≠ [] := by
  intro h
  have hlength := mappedOctets_length segments
  rw [h] at hlength
  cases hlength

variable {segments segments' : Vector UInt16 8}

theorem dot_mem_mapped : '.' ∈ ("::ffff:" ++ dotted (mappedOctets segments.toList)).toList := by
  rw [String.toList_append]
  apply List.mem_append_right
  apply dot_mem_dotted
  rw [mappedOctets_length]
  decide

theorem dot_not_mem_compressed (a b : List UInt16) :
    '.' ∉ (segmentText a ++ "::" ++ segmentText b).toList := by
  rw [String.toList_append, String.toList_append]
  intro h
  rcases List.mem_append.mp h with h | h
  · rcases List.mem_append.mp h with h | h
    · exact dot_not_mem_segmentText a h
    · exact absurd h (by decide)
  · exact dot_not_mem_segmentText b h

theorem mapped_injective (h : segments.toList.take 6 = segments'.toList.take 6)
    (htext : "::ffff:" ++ dotted (mappedOctets segments.toList) = "::ffff:" ++ dotted
      (mappedOctets segments'.toList)) :
    segments = segments' := by
  have hchars := congrArg String.toList htext
  rw [String.toList_append, String.toList_append] at hchars
  have hdotted := String.toList_inj.mp (List.append_cancel_left hchars)
  have hoctets :=
    dotted_injective (mappedOctets_ne_nil segments) (mappedOctets_ne_nil segments') hdotted
  apply Vector.toList_inj.mp
  rw [← List.take_append_drop 6 segments.toList, h, halves_flatMap_injective hoctets,
    List.take_append_drop]

theorem compressed_injective {a b a' b' : List UInt16} {n n' : Nat}
    (hsplit : segments.toList = a ++ List.replicate n 0 ++ b)
    (hsplit' : segments'.toList = a' ++ List.replicate n' 0 ++ b')
    (htext : segmentText a ++ "::" ++ segmentText b = segmentText a' ++ "::" ++ segmentText b') :
    segments = segments' := by
  have hfields := congrArg (fun text => text.toList.splitOn ':') htext
  simp only [splitOn_compressed] at hfields
  obtain ⟨rfl, rfl⟩ := compressed_unique hfields
  have hlength := congrArg List.length hsplit
  have hlength' := congrArg List.length hsplit'
  rw [Vector.length_toList, List.length_append, List.length_append, List.length_replicate]
    at hlength hlength'
  obtain rfl : n = n' := by omega
  exact Vector.toList_inj.mp (hsplit.trans hsplit'.symm)

theorem compressed_ne_plain {a b : List UInt16} :
    segmentText a ++ "::" ++ segmentText b ≠ segmentText segments.toList := by
  intro htext
  have hfields := congrArg (fun text => text.toList.splitOn ':') htext
  simp only [splitOn_compressed, splitOn_segmentText] at hfields
  apply @fields_of_length segments
  rw [← hfields]
  exact List.mem_append_right _ List.mem_cons_self

theorem plain_injective (htext : segmentText segments.toList = segmentText segments'.toList) :
    segments = segments' := by
  have hfields := congrArg (fun text => text.toList.splitOn ':') htext
  simp only [splitOn_segmentText] at hfields
  exact Vector.toList_inj.mp (fields_injective hfields)

theorem v6_injective (h : (IpAddr.v6 segments).text = (IpAddr.v6 segments').text) :
    segments = segments' := by
  -- only the mapped form has dots, and only the compressed one has nothing between two colons
  cases text_shown segments with
  | mapped hmapped htext =>
      have hdot := @dot_mem_mapped segments
      rw [← htext, h] at hdot
      cases text_shown segments' with
      | mapped hmapped' htext' =>
          exact mapped_injective (hmapped.trans hmapped'.symm) (by rw [← htext, ← htext', h])
      | compressed a' n' b' _ htext' =>
          rw [htext'] at hdot
          exact absurd hdot (dot_not_mem_compressed a' b')
      | plain htext' =>
          rw [htext'] at hdot
          exact absurd hdot (dot_not_mem_segmentText _)
  | compressed a n b hsplit htext =>
      rw [htext] at h
      cases text_shown segments' with
      | mapped _ htext' =>
          have hdot := @dot_mem_mapped segments'
          rw [← htext', ← h] at hdot
          exact absurd hdot (dot_not_mem_compressed a b)
      | compressed a' n' b' hsplit' htext' =>
          exact compressed_injective hsplit hsplit' (h.trans htext')
      | plain htext' => exact absurd (h.trans htext') compressed_ne_plain
  | plain htext =>
      rw [htext] at h
      cases text_shown segments' with
      | mapped _ htext' =>
          have hdot := @dot_mem_mapped segments'
          rw [← htext', ← h] at hdot
          exact absurd hdot (dot_not_mem_segmentText _)
      | compressed _ _ _ _ htext' => exact absurd (h.trans htext').symm compressed_ne_plain
      | plain htext' => exact plain_injective (h.trans htext')

theorem colon_mem_v6 (segments : Vector UInt16 8) : ':' ∈ (IpAddr.v6 segments).text.toList := by
  cases text_shown segments with
  | mapped _ htext =>
      rw [htext, String.toList_append]
      exact List.mem_append_left _ (by decide)
  | compressed a n b _ htext =>
      rw [htext, String.toList_append, String.toList_append]
      exact List.mem_append_left _ (List.mem_append_right _ (by decide))
  | plain htext =>
      rw [htext, toList_segmentText]
      have hlength : segments.toList.length = 8 := Vector.length_toList
      match segments.toList, hlength with
      | s :: s' :: rest, _ => simp [List.intercalate_cons_cons]

theorem v4_ne_v6 {octets : Vector UInt8 4} :
    (IpAddr.v4 octets).text ≠ (IpAddr.v6 segments).text := by
  intro h
  have hcolon := colon_mem_v6 segments
  rw [← h] at hcolon
  exact colon_not_mem_dotted _ hcolon

/-- No two addresses are shown alike. -/
theorem text_injective : Function.Injective IpAddr.text := by
  intro addr addr' h
  cases addr with
  | v4 octets =>
      cases addr' with
      | v4 octets' =>
          have hne : ∀ octets : Vector UInt8 4, octets.toList ≠ [] := by
            intro octets hnil
            have hlength : octets.toList.length = 4 := Vector.length_toList
            rw [hnil] at hlength
            cases hlength
          rw [Vector.toList_inj.mp (dotted_injective (hne octets) (hne octets') h)]
      | v6 segments => exact absurd h v4_ne_v6
  | v6 segments =>
      cases addr' with
      | v4 octets => exact absurd h.symm v4_ne_v6
      | v6 segments' => rw [v6_injective h]

end AtvRemote.AddressTexts
