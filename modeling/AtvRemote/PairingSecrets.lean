import AtvRemote.BigEndian
import AtvRemote.HexDigits
import AtvRemote.Pairing

namespace AtvRemote.PairingSecrets

open Errors Messages Texts Pairing BigEndian HexDigits

theorem splitBytes_ascii {chars : List Char} (h : ∀ c ∈ chars, c.utf8Size = 1) {n : Nat}
    (hn : n ≤ chars.length) :
    splitBytes n chars = some (chars.take n, chars.drop n) := by
  induction chars generalizing n with
  | nil =>
      obtain rfl : n = 0 := Nat.le_zero.mp hn
      rfl
  | cons c chars ih =>
      obtain ⟨hc, hchars⟩ := List.forall_mem_cons.mp h
      cases n with
      | zero => rfl
      | succ n =>
          have hn : n ≤ chars.length := Nat.le_of_succ_le_succ hn
          rw [splitBytes, hc, if_pos (Nat.le_add_left 1 n), Nat.add_sub_cancel, ih hchars hn]
          rfl

theorem slice_ascii {s : String} (h : ∀ c ∈ s.toList, c.utf8Size = 1) {i j : Nat} (hij : i ≤ j)
    (hj : j ≤ s.toList.length) :
    slice s i j = some (String.ofList ((s.toList.take j).drop i)) := by
  have htake : ∀ c ∈ s.toList.take j, c.utf8Size = 1 := fun c hc => h c (List.mem_of_mem_take hc)
  have hi : i ≤ (s.toList.take j).length := by
    rw [List.length_take]
    omega
  unfold slice
  rw [splitBytes_ascii h hj]
  simp only [Option.bind_eq_bind, Option.bind_some]
  rw [splitBytes_ascii htake hi]
  rfl

theorem hexByte_pair {s : String} (h : ∀ c ∈ s.toList, c.utf8Size = 1) {i : Nat}
    (hi : i + 2 ≤ s.toList.length) {c d : Char}
    {a b : Nat} (hpart : (s.toList.take (i + 2)).drop i = [c, d]) (hc : toDigit 16 c = some a)
    (hd : toDigit 16 d = some b) :
    hexByte s i (i + 2) = .ok (hexPair a b) := by
  unfold hexByte
  rw [slice_ascii h (Nat.le_add_right i 2) hi, hpart]
  dsimp only
  rw [fromStrRadix_pair hc hd]

/-- The checksum and the nonce of a code of exactly six hexadecimal digits. -/
def codeBytes (code : String) : Option (UInt8 × Bytes) :=
  match code.toList.mapM (toDigit 16) with
  | some [a, b, c, d, e, f] => some (hexPair a b, [hexPair c d, hexPair e f])
  | _ => none

/-- A certificate with these key numbers, padded with any number of zeros. -/
def HasKey (lib : Library) (der : Bytes) (n e : Nat) : Prop :=
  ∃ modulus exponent, lib.fromDer der = .ok (.rsa modulus exponent) ∧ bigEndian modulus = n ∧
    bigEndian exponent = e

theorem rsaNumbers_eq {lib : Library} {der : Bytes} {n e : Nat} (h : HasKey lib der n e) :
    rsaNumbers lib der = .ok (shortest n, shortest e) := by
  obtain ⟨modulus, exponent, hder, rfl, rfl⟩ := h
  rw [rsaNumbers, hder]
  dsimp only [stripLeadingZeros]
  rw [dropWhile_zero, dropWhile_zero]

def digestOf (lib : Library) (nc ec ns es : Nat) (nonce : Bytes) : Vector UInt8 32 :=
  lib.sha256 (shortest nc ++ shortest ec ++ shortest ns ++ shortest es ++ nonce)

def malformedCode (lib : Library) (code : String) : AtvError :=
  .new .pairingFailed s!"pairing code must be exactly 6 hex digits, got {lib.debug code}"

def checksumMismatch : AtvError :=
  .new .pairingFailed "pairing code checksum mismatch — was the code mistyped?"

variable {lib : Library} {clientDer serverDer : Bytes} {nc ec ns es : Nat} {code : String}

theorem codeBytes_of_guard
    (h : (code.utf8ByteSize ≠ 6 || !code.toList.all isAsciiHexdigit) = false) :
    ∃ checksum nonce, codeBytes code = some (checksum, nonce) ∧ hexByte code 0 2 = .ok checksum ∧
      ∃ first second, nonce = [first, second] ∧ hexByte code 2 4 = .ok first ∧ hexByte code 4 6 =
        .ok second := by
  rw [Bool.or_eq_false_iff] at h
  obtain ⟨hsize, hall⟩ := h
  have hsize : code.utf8ByteSize = 6 := by simpa using hsize
  have hall : ∀ c ∈ code.toList, isAsciiHexdigit c = true := by simpa using hall
  obtain ⟨digits, hdigits, hforall⟩ := mapM_toDigit hall
  obtain ⟨hascii, hlength⟩ := ascii_of_digits hforall
  have hascii : ∀ c ∈ code.toList, c.utf8Size = 1 := fun c hc => (hascii c hc).1
  rw [utf8ByteSize_ascii hascii] at hsize
  have hparts := @hexByte_pair code hascii
  unfold codeBytes
  rw [hdigits]
  generalize code.toList = chars at hforall hsize hparts
  match chars, digits, hforall, hsize with
  | _, _, .cons h₀ (.cons h₁ (.cons h₂ (.cons h₃ (.cons h₄ (.cons h₅ .nil))))), _ =>
      refine ⟨_, _, rfl, ?_, _, _, rfl, ?_, ?_⟩
      · exact hparts (i := 0) (Nat.le_add_left 2 4) rfl h₀ h₁
      · exact hparts (i := 2) (Nat.le_add_left 4 2) rfl h₂ h₃
      · exact hparts (i := 4) (Nat.le_refl 6) rfl h₄ h₅

theorem guard_of_codeBytes {p : UInt8 × Bytes} (h : codeBytes code = some p) :
    (code.utf8ByteSize ≠ 6 || !code.toList.all isAsciiHexdigit) = false := by
  unfold codeBytes at h
  split at h
  next a b c d e f hdigits =>
    obtain ⟨hascii, hlength⟩ := ascii_of_digits (forall₂_of_mapM hdigits)
    have hsize : code.utf8ByteSize = 6 := by
      rw [utf8ByteSize_ascii fun c hc => (hascii c hc).1, hlength]
      rfl
    have hall : code.toList.all isAsciiHexdigit = true :=
      List.all_eq_true.mpr fun c hc => (hascii c hc).2
    rw [hsize, hall]
    rfl
  next => cases h

/-- What becomes of a code, for two keys. -/
theorem computePairingSecret_eq (hclient : HasKey lib clientDer nc ec)
    (hserver : HasKey lib serverDer ns es) :
    computePairingSecret lib clientDer serverDer code = match codeBytes code with
      | none => .error (.error (malformedCode lib code))
      | some (checksum, nonce) =>
          if (digestOf lib nc ec ns es nonce)[0] ≠ checksum then .error (.error checksumMismatch)
          else .ok (digestOf lib nc ec ns es nonce).toList := by
  unfold computePairingSecret
  cases hguard : (code.utf8ByteSize ≠ 6 || !code.toList.all isAsciiHexdigit) with
  | true =>
      rw [if_pos rfl]
      cases hcode : codeBytes code with
      | none => rfl
      | some p =>
          rw [guard_of_codeBytes hcode] at hguard
          cases hguard
  | false =>
      rw [if_neg Bool.false_ne_true]
      obtain ⟨checksum, nonce, hcode, hchecksum, first, second, rfl, hfirst, hsecond⟩ :=
        codeBytes_of_guard hguard
      rw [hcode, hchecksum, hfirst, hsecond, rsaNumbers_eq hclient, rsaNumbers_eq hserver]
      rfl

/-- The same code up to the case of its letters. -/
def SameLetters (code code' : String) : Prop :=
  code.toList.map Char.toLower = code'.toList.map Char.toLower

theorem mapM_toLower (chars : List Char) :
    (chars.map Char.toLower).mapM (toDigit 16) = chars.mapM (toDigit 16) := by
  induction chars with
  | nil => rfl
  | cons c chars ih => rw [List.map_cons, List.mapM_cons, List.mapM_cons, toDigit_toLower, ih]

theorem codeBytes_sameLetters {code' : String} (h : SameLetters code code') :
    codeBytes code = codeBytes code' := by
  unfold codeBytes
  rw [← mapM_toLower code.toList, ← mapM_toLower code'.toList, h]

/-- Python's formatting `X` of a number. -/
def upperHex (n : Nat) : List Char :=
  if n = 0 then ['0'] else (Nat.digits 16 n).reverse.map fun d =>
    "0123456789ABCDEF".toList.getD d '0'

/-- Python's `bytes.fromhex`, for a text without spaces. -/
def fromhex : List Char → Option Bytes
  | [] => some []
  | [_] => none
  | c :: d :: chars => do
      let a ← toDigit 16 c
      let b ← toDigit 16 d
      let bytes ← fromhex chars
      some (hexPair a b :: bytes)

theorem fromhex_digits {chars : List Char} {bytes : Bytes} (h : fromhex chars = some bytes) :
    ∃ digits, chars.mapM (toDigit 16) = some digits ∧ bigEndian bytes =
      Nat.ofDigits 16 digits.reverse ∧
      digits.length = 2 * bytes.length := by
  induction chars using fromhex.induct generalizing bytes with
  | case1 =>
      cases h
      exact ⟨[], rfl, rfl, rfl⟩
  | case2 c => cases h
  | case3 c d chars ih =>
      rw [fromhex] at h
      obtain ⟨a, ha, h⟩ := Option.bind_eq_some_iff.mp h
      obtain ⟨b, hb, h⟩ := Option.bind_eq_some_iff.mp h
      obtain ⟨rest, hrest, h⟩ := Option.bind_eq_some_iff.mp h
      cases h
      obtain ⟨digits, hdigits, hvalue, hlength⟩ := ih hrest
      refine ⟨a :: b :: digits, ?_, ?_, ?_⟩
      · rw [List.mapM_cons, List.mapM_cons, ha, hb, hdigits]
        rfl
      · have hpow : 256 ^ rest.length = 16 ^ digits.length := by rw [hlength, Nat.pow_mul]
        rw [bigEndian_cons, hexPair_toNat ha hb, hvalue, hpow, List.reverse_cons, List.reverse_cons,
          List.append_assoc, Nat.ofDigits_append]
        simp only [List.length_reverse, List.singleton_append, Nat.ofDigits_cons, Nat.ofDigits_nil]
        ring
      · rw [List.length_cons, List.length_cons, List.length_cons, hlength]
        omega

/-- Digits that do not begin with a zero byte are read as a shortest encoding. -/
theorem fromhex_shortest {chars : List Char} {bytes : Bytes} {a b : Nat} {digits : List Nat}
    (h : fromhex chars = some bytes)
    (hdigits : chars.mapM (toDigit 16) = some (a :: b :: digits)) (hne : a ≠ 0 ∨ b ≠ 0) :
    bytes = shortest (Nat.ofDigits 16 (a :: b :: digits).reverse) := by
  have hvalue : bigEndian bytes = Nat.ofDigits 16 (a :: b :: digits).reverse := by
    obtain ⟨digits', hdigits', hvalue, _⟩ := fromhex_digits h
    rw [hdigits] at hdigits'
    rwa [Option.some.inj hdigits']
  have hhead : bytes.head? ≠ some 0 := by
    match chars, forall₂_of_mapM hdigits with
    | _, .cons hc (.cons hd _) =>
        rw [fromhex, hc, hd] at h
        obtain ⟨_, ⟨⟩, h⟩ := Option.bind_eq_some_iff.mp h
        obtain ⟨_, ⟨⟩, h⟩ := Option.bind_eq_some_iff.mp h
        obtain ⟨rest, _, h⟩ := Option.bind_eq_some_iff.mp h
        cases h
        intro hzero
        have hpair := hexPair_toNat hc hd
        rw [Option.some.inj hzero] at hpair
        have hzero : (0 : UInt8).toNat = 0 := rfl
        omega
  rw [← hvalue, shortest_bigEndian hhead]

theorem mapM_upperHex {n : Nat} (hn : n ≠ 0) :
    (upperHex n).mapM (toDigit 16) = some (Nat.digits 16 n).reverse := by
  have hdigit : ∀ d : Fin 16, toDigit 16 ("0123456789ABCDEF".toList.getD d '0') = some d.val := by
    decide
  have hlt : ∀ d ∈ (Nat.digits 16 n).reverse, d < 16 :=
    fun d hd => Nat.digits_lt_base (by decide) (List.mem_reverse.mp hd)
  rw [upperHex, if_neg hn]
  generalize (Nat.digits 16 n).reverse = digits at hlt
  induction digits with
  | nil => rfl
  | cons d digits ih =>
      obtain ⟨hd, hdigits⟩ := List.forall_mem_cons.mp hlt
      rw [List.map_cons, List.mapM_cons, hdigit ⟨d, hd⟩, ih hdigits]
      rfl

theorem leading_digit {n : Nat} (hn : n ≠ 0) :
    ∃ a digits, (Nat.digits 16 n).reverse = a :: digits ∧ a ≠ 0 := by
  have hne : (Nat.digits 16 n).reverse ≠ [] :=
    fun h => Nat.digits_ne_nil_iff_ne_zero.mpr hn (List.reverse_eq_nil_iff.mp h)
  obtain ⟨a, digits, heq⟩ := List.exists_cons_of_ne_nil hne
  refine ⟨a, digits, heq, ?_⟩
  have hlast := Nat.getLast_digit_ne_zero 16 hn
  rw [← List.head_reverse hne] at hlast
  simpa [heq] using hlast

theorem ofDigits_reverse (n : Nat) : Nat.ofDigits 16 (Nat.digits 16 n).reverse.reverse = n := by
  rw [List.reverse_reverse, Nat.ofDigits_digits]

theorem fromhex_upperHex {n : Nat} {bytes : Bytes} (hn : n ≠ 0)
    (h : fromhex (upperHex n) = some bytes) : bytes = shortest n := by
  obtain ⟨a, digits, heq, ha⟩ := leading_digit hn
  have hdigits := mapM_upperHex hn
  obtain ⟨digits', hdigits', _, hlength⟩ := fromhex_digits h
  rw [hdigits] at hdigits'
  cases hdigits'
  rw [heq] at hdigits hlength
  cases digits with
  | nil =>
      rw [List.length_singleton] at hlength
      omega
  | cons b digits =>
      rw [fromhex_shortest h hdigits (.inl ha), ← heq, ofDigits_reverse]

theorem fromhex_zero_upperHex {n : Nat} {bytes : Bytes} (hn : n ≠ 0)
    (h : fromhex ('0' :: upperHex n) = some bytes) :
    bytes = shortest n := by
  obtain ⟨b, digits, heq, hb⟩ := leading_digit hn
  have hdigits : ('0' :: upperHex n).mapM (toDigit 16) = some (0 :: b :: digits) := by
    rw [List.mapM_cons, mapM_upperHex hn, heq]
    rfl
  rw [fromhex_shortest h hdigits (.inr hb), ← heq, List.reverse_cons, Nat.ofDigits_append_zero,
    ofDigits_reverse]

/-- The digest of the reference, where Python computes it: the moduli and the
nonce are formatted as they are, the exponents behind a zero. -/
def reference (lib : Library) (nc ec ns es : Nat) (nonceHex : List Char) :
    Option (Vector UInt8 32) := do
  let clientMod ← fromhex (upperHex nc)
  let clientExp ← fromhex ('0' :: upperHex ec)
  let serverMod ← fromhex (upperHex ns)
  let serverExp ← fromhex ('0' :: upperHex es)
  let nonce ← fromhex nonceHex
  some (lib.sha256 (clientMod ++ clientExp ++ serverMod ++ serverExp ++ nonce))

theorem reference_eq (hnc : nc ≠ 0) (hec : ec ≠ 0) (hns : ns ≠ 0) (hes : es ≠ 0)
    {nonceHex : List Char}
    {digest : Vector UInt8 32} (h : reference lib nc ec ns es nonceHex = some digest) :
    ∃ nonce, fromhex nonceHex = some nonce ∧ digest = digestOf lib nc ec ns es nonce := by
  unfold reference at h
  obtain ⟨clientMod, hclientMod, h⟩ := Option.bind_eq_some_iff.mp h
  obtain ⟨clientExp, hclientExp, h⟩ := Option.bind_eq_some_iff.mp h
  obtain ⟨serverMod, hserverMod, h⟩ := Option.bind_eq_some_iff.mp h
  obtain ⟨serverExp, hserverExp, h⟩ := Option.bind_eq_some_iff.mp h
  obtain ⟨nonce, hnonce, h⟩ := Option.bind_eq_some_iff.mp h
  refine ⟨nonce, hnonce, ?_⟩
  rw [← Option.some.inj h, fromhex_upperHex hnc hclientMod, fromhex_zero_upperHex hec hclientExp,
    fromhex_upperHex hns hserverMod,
    fromhex_zero_upperHex hes hserverExp]
  rfl

theorem codeBytes_iff {x y : Char} {nonceHex : List Char} {nonce : Bytes}
    (hcode : code.toList = x :: y :: nonceHex)
    (hlen : nonceHex.length = 4) (hnonce : fromhex nonceHex = some nonce) (p : UInt8 × Bytes) :
    codeBytes code = some p ↔ fromhex [x, y] = some [p.1] ∧ p.2 = nonce := by
  obtain ⟨checksum, nonce'⟩ := p
  match nonceHex, hlen with
  | [c, d, e, f], _ =>
      rw [fromhex] at hnonce
      obtain ⟨c', hc, hnonce⟩ := Option.bind_eq_some_iff.mp hnonce
      obtain ⟨d', hd, hnonce⟩ := Option.bind_eq_some_iff.mp hnonce
      obtain ⟨rest, hrest, ⟨⟩⟩ := Option.bind_eq_some_iff.mp hnonce
      rw [fromhex] at hrest
      obtain ⟨e', he, hrest⟩ := Option.bind_eq_some_iff.mp hrest
      obtain ⟨f', hf, hrest⟩ := Option.bind_eq_some_iff.mp hrest
      obtain ⟨rest, hrest, ⟨⟩⟩ := Option.bind_eq_some_iff.mp hrest
      cases hrest
      have hdigits : [c, d, e, f].mapM (toDigit 16) = some [c', d', e', f'] := by
        simp [List.mapM_cons, hc, hd, he, hf]
      unfold codeBytes
      rw [hcode, List.mapM_cons, List.mapM_cons, hdigits, fromhex, fromhex]
      cases toDigit 16 x with
      | none => simp
      | some a =>
          cases toDigit 16 y with
          | none => simp
          | some b => simp [eq_comm]

/-- What `computePairingSecret` accepts, and the secret it returns. -/
def SecretOf (lib : Library) (nc ec ns es : Nat) (code : String) (secret : Bytes) : Prop :=
  ∃ checksum nonce, codeBytes code = some (checksum, nonce) ∧
    (digestOf lib nc ec ns es nonce)[0] = checksum ∧
    secret = (digestOf lib nc ec ns es nonce).toList

theorem computePairingSecret_ok (hclient : HasKey lib clientDer nc ec)
    (hserver : HasKey lib serverDer ns es) (secret : Bytes) :
    computePairingSecret lib clientDer serverDer code = .ok secret ↔
      SecretOf lib nc ec ns es code secret := by
  rw [computePairingSecret_eq hclient hserver]
  unfold SecretOf
  cases codeBytes code with
  | none => simp
  | some p =>
      obtain ⟨checksum, nonce⟩ := p
      by_cases hchecksum : (digestOf lib nc ec ns es nonce)[0] = checksum
      · simp [hchecksum, eq_comm]
      · have hne : checksum ≠ (digestOf lib nc ec ns es nonce)[0] := Ne.symm hchecksum
        simp [hchecksum, hne]

/-- The pairing secret is that of the reference, for all keys, however their
certificates pad them, and all codes. -/
theorem pairing_secret_is_reference (lib : Library) (clientDer serverDer : Bytes)
    (nc ec ns es : Nat) (code : String)
    (hclient : HasKey lib clientDer nc ec) (hserver : HasKey lib serverDer ns es) :
    (∀ n, bigEndian (shortest n) = n ∧ ∀ bytes, bigEndian bytes = n →
      bytes.length ≤ (shortest n).length → bytes = shortest n) ∧
    (∀ secret, computePairingSecret lib clientDer serverDer code = .ok secret ↔
      SecretOf lib nc ec ns es code secret) ∧
    ((¬∃ secret, SecretOf lib nc ec ns es code secret) →
      ∃ e, computePairingSecret lib clientDer serverDer code = .error (.error e) ∧ e.kind =
        .pairingFailed) ∧
    (∀ clientDer' serverDer' code', HasKey lib clientDer' nc ec → HasKey lib serverDer' ns es →
      SameLetters code code' →
      ∀ secret, computePairingSecret lib clientDer' serverDer' code' = .ok secret ↔
        computePairingSecret lib clientDer serverDer code = .ok secret) ∧
    (nc ≠ 0 → ec ≠ 0 → ns ≠ 0 → es ≠ 0 → ∀ x y nonceHex digest, code.toList = x :: y :: nonceHex →
      nonceHex.length = 4 →
      reference lib nc ec ns es nonceHex = some digest →
        ∀ secret, computePairingSecret lib clientDer serverDer code = .ok secret ↔
          fromhex [x, y] = some [digest[0]] ∧ secret = digest.toList) := by
  refine ⟨fun n => ⟨bigEndian_shortest n, ?_⟩, computePairingSecret_ok hclient hserver, ?_, ?_, ?_⟩
  · rintro bytes rfl hlength
    exact eq_shortest_of_length hlength
  · intro hnone
    rw [computePairingSecret_eq hclient hserver]
    cases hcode : codeBytes code with
    | none => exact ⟨_, rfl, rfl⟩
    | some p =>
        obtain ⟨checksum, nonce⟩ := p
        have hchecksum : (digestOf lib nc ec ns es nonce)[0] ≠ checksum :=
          fun h => hnone ⟨_, _, _, hcode, h, rfl⟩
        dsimp only
        rw [if_pos hchecksum]
        exact ⟨_, rfl, rfl⟩
  · intro clientDer' serverDer' code' hclient' hserver' hletters secret
    rw [computePairingSecret_ok hclient' hserver', computePairingSecret_ok hclient hserver]
    unfold SecretOf
    rw [codeBytes_sameLetters hletters]
  · intro hnc hec hns hes x y nonceHex digest hcode hlen href secret
    obtain ⟨nonce, hnonce, rfl⟩ := reference_eq hnc hec hns hes href
    rw [computePairingSecret_ok hclient hserver]
    unfold SecretOf
    simp only [codeBytes_iff hcode hlen hnonce]
    constructor
    · rintro ⟨checksum, _, ⟨hpair, rfl⟩, rfl, rfl⟩
      exact ⟨hpair, rfl⟩
    · rintro ⟨hpair, rfl⟩
      exact ⟨_, _, ⟨hpair, rfl⟩, rfl, rfl⟩

/-- Keys with the exponent 65537 and a modulus behind a zero byte. -/
def paddedKeys : Library where
  sha256 _ := Vector.replicate 32 0
  fromDer der := .ok (.rsa (0 :: der) [0x01, 0x00, 0x01])
  toLowercase := id
  debug := id

theorem pairing_secret_is_reference_padded :
    computePairingSecret paddedKeys [200] [150, 3] "00Ab1C" = .ok (List.replicate 32 0) := by
  have hclient : HasKey paddedKeys [200] 200 65537 := ⟨[0, 200], _, rfl, by decide, by decide⟩
  have hserver : HasKey paddedKeys [150, 3] 38403 65537 :=
    ⟨[0, 150, 3], _, rfl, by decide, by decide⟩
  have hcode : codeBytes "00Ab1C" = some (0x00, [0xab, 0x1c]) := by decide
  have href :=
    pairing_secret_is_reference paddedKeys [200]
      [150, 3] 200 65537 38403 65537 "00Ab1C" hclient hserver
  exact (href.2.1 _).mpr ⟨_, _, hcode, rfl, by decide⟩

end AtvRemote.PairingSecrets
