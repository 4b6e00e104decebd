import AtvRemote.PairingRuns
import AtvRemote.PairingSecrets
import AtvRemote.Readiness

namespace AtvRemote.PairingAgreement

open Programs Contracts CommandRules Errors Messages SystemCalls Credentials Texts HexDigits Pairing
  PairingRuns PairingSecrets Readiness

/-- A client and a television with the keys of both, the nonce that the
television has chosen and the line that the user types. -/
structure Encounter where
  lib : Library
  clientDer : Bytes
  serverDer : Bytes
  nc : Nat
  ec : Nat
  ns : Nat
  es : Nat
  nonce : Bytes
  line : String
  client : HasKey lib clientDer nc ec
  server : HasKey lib serverDer ns es
  lowers : ∀ s : String, s.toList.all isAsciiHexdigit = true → SameLetters (lib.toLowercase s) s

/-- The files of the client, and the television: what it has sent and whether
it has accepted the secret. -/
structure Scene where
  files : String → Bool
  inbox : List OuterMessage := []
  paired : Bool := false

namespace Encounter

variable (x : Encounter)

def digest : Vector UInt8 32 := digestOf x.lib x.nc x.ec x.ns x.es x.nonce

/-- The code on the screen of the television: the first byte of the digest and
the nonce. -/
def Shows (code : String) : Prop :=
  ∃ checksum, x.digest.toList.head? = some checksum ∧ codeBytes code = some (checksum, x.nonce)

/-- The user types the code on the screen, in any case and between blanks. -/
def Told : Prop := ∃ code typed before after, x.Shows code ∧ SameLetters typed code ∧
  x.line.toList = before ++ typed.toList ++ after ∧ ∀ c ∈ before ++ after, isWhitespace c = true

def Sends (s : Scene) (answer : Phase) (s' : Scene) : Prop :=
  ∃ m, phase m = answer ∧ s' = { s with inbox := s.inbox ++ [m] }

/-- The television answers each message of the client with the next one of the
protocol. -/
def Responds (s : Scene) (m : OuterMessage) (s' : Scene) : Prop :=
  if m.pairingRequest.isSome then Sends s .requestAck s'
  else if m.options.isSome then Sends s .options s'
  else if m.configuration.isSome then Sends s .configurationAck s'
  else match m.secret with
    | some secret =>
        if secret.secret = x.digest.toList then Sends { s with paired := true } .secretAck s'
          else Sends s .refused s'
    | none => s' = s

/-- The answers of a host that can make an identity. -/
def Makes : (o : HostOp) → o.Answer → Prop
  | .createDirAll _, y | .createKeyFile _, y => y = .ok ()
  | .rsaPrivateKey _, y | .toPkcs8Der _, y | .keyPairFromPkcs8 _, y => ∃ der, y = .ok der
  | .selfSigned _ _, y | .toPem _ _, y => ∃ text, y = .ok text
  | _, _ => True

def Step (s : Scene) : PairingEvent → Scene → Prop
  | ⟨.wire _ .recv, y⟩, s' => ∀ m inbox, s.inbox = m :: inbox → y = .ok m ∧ s' = { s with inbox }
  | ⟨.wire _ (.send m), y⟩, s' => y = .ok () ∧ x.Responds s m s'
  | ⟨.host (.connectTimeout _ _), y⟩, s' => (∃ sock, y = .ok sock) ∧ s' = { s with inbox := [] }
  | ⟨.host (.isFile path), y⟩, s' => y = s.files path ∧ s' = s
  | ⟨.host (.writeFile path _), y⟩, s' | ⟨.host (.writeKeyFile path _), y⟩, s' =>
      y = .ok () ∧ s' = { s with files := Function.update s.files path true }
  | ⟨.host (.peerCertificates _), y⟩, s' => (∃ certs, y = some (x.serverDer :: certs)) ∧ s' = s
  | ⟨.host .readLine, y⟩, s' => y = .ok x.line ∧ s' = s
  | ⟨.host o, y⟩, s' => (Ready x.clientDer o y ∧ Makes o y) ∧ s' = s

end Encounter

open Encounter

variable {x : Encounter} {s s' : Scene} {conn : Conn} {host : IpAddr} {port : UInt16} {fuel : Nat}

theorem step_steady : Steady x.clientDer x.Step := by
  intro s o y s' ho hstep
  cases o with
  | varOs | readFile | pemCerts | pemPrivateKey | safeDefaultProtocolVersions | clientAuthCert
  | setReadTimeout | setWriteTimeout
  | setNodelay | clientConnection => exact ⟨hstep.1.1, hstep.2⟩
  | _ => exact ho.elim

theorem found_of_files {path : String} (h : s.files path = true) : Found x.Step s path := by
  rintro y s' ⟨rfl, rfl⟩
  exact ⟨h, rfl⟩

theorem meets_makes {β : Type} {o : HostOp} {g : o.Answer → Command PairingWire β}
    {R : Except Stop β → Scene → Prop}
    (hstep : ∀ y s', x.Step s ⟨.host o, y⟩ s' → Makes o y ∧ s' = s)
    (h : ∀ y, Makes o y → Meets x.Step (g y) s R) :
    Meets x.Step (ask o >>= g) s R := by
  refine meets_request_bind.mpr ?_
  intro y s' hs'
  obtain ⟨hmakes, rfl⟩ := hstep y s' hs'
  exact h y hmakes

theorem generateIdentity_done :
    Meets x.Step (generateIdentity : Command PairingWire (String × String)) s (Done s) := by
  refine meets_makes (fun _ _ h => ⟨h.1.2, h.2⟩) ?_
  rintro _ ⟨key, rfl⟩
  refine meets_makes (fun _ _ h => ⟨h.1.2, h.2⟩) ?_
  rintro _ ⟨keyDer, rfl⟩
  refine meets_makes (fun _ _ h => ⟨h.1.2, h.2⟩) ?_
  rintro _ ⟨keyPair, rfl⟩
  refine meets_makes (fun _ _ h => ⟨h.1.2, h.2⟩) ?_
  rintro _ ⟨certPem, rfl⟩
  refine meets_makes (fun _ _ h => ⟨h.1.2, h.2⟩) ?_
  rintro _ ⟨keyPem, rfl⟩
  exact meets_pure.mpr ⟨rfl, _, rfl⟩

theorem bothFiles_looked {β : Type} {cert key : String} {g : Bool → Command PairingWire β}
    {R : Except Stop β → Scene → Prop}
    (h : Meets x.Step (g (s.files cert && s.files key)) s R) :
    Meets x.Step (bothFiles cert key >>= g) s R := by
  change Meets x.Step (ask (.isFile cert) >>= fun found : Bool => (if found then ask (.isFile key)
    else pure false) >>= g) s R
  refine meets_request_bind.mpr ?_
  rintro found s₁ ⟨hcert, rfl⟩
  cases found with
  | false =>
      rw [← hcert] at h
      exact h
  | true =>
      rw [← hcert] at h
      refine meets_request_bind.mpr ?_
      rintro _ s₂ ⟨rfl, rfl⟩
      exact h

/-- Whatever was there, an identity is there now. -/
theorem ensureIdentity_stored (dir : String) :
    Meets x.Step (ensureIdentity dir : Command PairingWire Unit) s (fun r s' =>
    r = .ok () ∧ s'.files (join dir "cert.pem") = true ∧ s'.files (join dir "key.pem") = true ∧
      s'.paired = s.paired) := by
  refine bothFiles_looked ?_
  cases hfound : s.files (join dir "cert.pem") && s.files (join dir "key.pem") with
  | true =>
      obtain ⟨hcert, hkey⟩ := Bool.and_eq_true_iff.mp hfound
      exact meets_pure.mpr ⟨rfl, hcert, hkey, rfl⟩
  | false =>
      refine meets_makes (fun _ _ h => ⟨h.1.2, h.2⟩) ?_
      rintro _ rfl
      refine meets_ok_bind.mpr ?_
      refine Done.bind generateIdentity_done ?_
      rintro ⟨certPem, keyPem⟩
      refine meets_request_bind.mpr ?_
      rintro _ s₁ ⟨rfl, rfl⟩
      refine meets_makes (fun _ _ h => ⟨h.1.2, h.2⟩) ?_
      rintro _ rfl
      refine meets_request_bind.mpr ?_
      rintro _ s₂ ⟨rfl, rfl⟩
      refine meets_pure.mpr ⟨rfl, ?_, ?_, rfl⟩
      · simp [Function.update_apply]
      · simp

theorem openPairing_opens : Meets x.Step (openPairing host port) s (fun r s' =>
    s'.paired = s.paired ∧ s'.inbox = [] ∧ ∃ tls conn, r = .ok (tls, conn) ∧ tls.clientCertDer =
      x.clientDer) := by
  refine Done.bind (credentialDirFromEnv_done step_steady) ?_
  intro dir
  refine (ensureIdentity_stored dir).bind ?_ ?_
  · rintro _ s₁ ⟨_, hcert, hkey, hpaired⟩
    refine (fromCredentialDir_done step_steady (found_of_files hcert)
      (found_of_files hkey)).bind ?_ ?_
    · rintro tls _ ⟨rfl, _, ⟨⟩, htls⟩
      refine (connect_done step_steady tls host port _ fun _ _ hstep => hstep).bind ?_ ?_
      · rintro conn _ ⟨rfl, _⟩
        exact meets_pure.mpr ⟨hpaired, rfl, tls, conn, rfl, htls⟩
      · rintro e _ ⟨_, conn, ⟨⟩⟩
    · rintro e _ ⟨_, tls, ⟨⟩, _⟩
  · rintro e s₁ ⟨⟨⟩, _⟩

/-- A round in which the television goes on with the protocol. -/
theorem pairLoop_round {m reply : OuterMessage} {inbox : List OuterMessage}
    (hinbox : s.inbox = m :: inbox)
    (hanswer : answer m = some reply) {R : Except Stop PairingFlow → Scene → Prop}
    (h : ∀ s', x.Responds { s with inbox } reply s' → Meets x.Step (pairLoop conn fuel .new) s' R) :
    Meets x.Step (pairLoop conn (fuel + 1) .new) s R := by
  have hphase : rejection m = none ∧ phase m ≠ .configurationAck := by
    unfold answer at hanswer
    unfold rejection
    cases hm : phase m <;> rw [hm] at hanswer <;> simp_all
  refine meets_request_bind.mpr ?_
  intro y s₁ hstep
  obtain ⟨rfl, rfl⟩ := hstep m inbox hinbox
  refine meets_ok_bind.mpr ?_
  rw [handle_eq, hphase.1, hanswer, decide_eq_false hphase.2]
  refine meets_request_bind.mpr ?_
  rintro y s₂ ⟨rfl, hresponds⟩
  exact meets_ok_bind.mpr (h s₂ hresponds)

/-- The exchange up to the code on the screen. -/
theorem pairLoop_shown (hinbox : ∃ m, phase m = .requestAck ∧ s.inbox = [m]) (hfuel : 4 ≤ fuel) :
    Meets x.Step (pairLoop conn fuel .new) s (fun r s' => s'.paired = s.paired ∧ s'.inbox = [] ∧
      ∃ flow, r = .ok flow) := by
  obtain ⟨fuel, rfl⟩ : ∃ k, fuel = k + 4 := Nat.exists_eq_add_of_le' hfuel
  obtain ⟨m, hm, hinbox⟩ := hinbox
  refine pairLoop_round hinbox (by rw [answer, hm]) ?_
  rintro _ ⟨m, hm, rfl⟩
  refine pairLoop_round rfl (by rw [answer, hm]) ?_
  rintro _ ⟨m, hm, rfl⟩
  have hrejection : rejection m = none := by rw [rejection, hm]
  refine meets_request_bind.mpr ?_
  intro y s₁ hstep
  obtain ⟨rfl, rfl⟩ := hstep m [] rfl
  refine meets_ok_bind.mpr ?_
  rw [handle_eq, hrejection, answer_configurationAck hm, decide_eq_true hm]
  exact meets_pure.mpr ⟨rfl, rfl, _, rfl⟩

/-- The two sides agree on the outcome, which is that they are paired if the
user has typed what the screen shows. -/
def Agreed (x : Encounter) (host : IpAddr) (r : Except Stop PairOutput) (s' : Scene) : Prop :=
  (match r with
    | .ok out => out.host = host.text ∧ out.paired = true ∧ s'.paired = true
    | .error (.error e) => e.kind = .pairingFailed ∧ s'.paired = false
    | .error _ => False) ∧ (x.Told → ∃ out, r = .ok out)

theorem agreed_error {e : AtvError} (he : e.kind = .pairingFailed) (hpaired : s'.paired = false)
    (htold : ¬x.Told) :
    Agreed x host (.error (.error e)) s' := ⟨⟨he, hpaired⟩, fun h => absurd h htold⟩

theorem sendSecret_agreed {flow : PairingFlow} {secret : Bytes} (hpaired : s.paired = false)
    (hinbox : s.inbox = [])
    (htold : x.Told → secret = x.digest.toList) :
    Meets x.Step (sendSecret host conn flow secret) s (Agreed x host) := by
  refine meets_request_bind.mpr ?_
  rintro y s₁ ⟨rfl, hresponds⟩
  refine meets_ok_bind.mpr ?_
  refine meets_request_bind.mpr ?_
  intro y s₂ hstep
  change (if secret = x.digest.toList then Sends { s with paired := true } .secretAck s₁
    else Sends s .refused s₁) at hresponds
  split at hresponds
  next heq =>
    obtain ⟨m, hm, rfl⟩ := hresponds
    obtain ⟨rfl, rfl⟩ := hstep m [] (by rw [hinbox]; rfl)
    refine meets_ok_bind.mpr ?_
    have hrejection : rejection m = none := by rw [rejection, hm]
    rw [handle_eq, hrejection]
    refine meets_request_bind.mpr ?_
    rintro timestamp s₃ ⟨_, rfl⟩
    exact meets_pure.mpr ⟨⟨rfl, rfl, rfl⟩, fun _ => ⟨_, rfl⟩⟩
  next hne =>
    obtain ⟨m, hm, rfl⟩ := hresponds
    obtain ⟨rfl, rfl⟩ := hstep m [] (by rw [hinbox]; rfl)
    refine meets_ok_bind.mpr ?_
    have hrejection : rejection m = some (statusReported m.status) := by rw [rejection, hm]
    rw [handle_eq, hrejection]
    exact meets_raise_bind.mpr (agreed_error rfl hpaired fun h => hne (htold h))

theorem not_whitespace {c : Char} (h : isAsciiHexdigit c = true) : isWhitespace c = false := by
  have hall : ∀ n : Fin 128, isAsciiHexdigit (Char.ofNat n) = true → isWhitespace (Char.ofNat n) =
      false := by decide
  obtain ⟨d, hd⟩ := Option.isSome_iff_exists.mp h
  have hle : c.toNat ≤ 127 :=
    UInt32.le_iff_toNat_le.mp (Char.utf8Size_eq_one_iff.mp (toDigit_ascii hd).1)
  have hc := hall ⟨c.toNat, by omega⟩
  rw [Char.ofNat_toNat] at hc
  exact hc h

theorem trim_blanks {line : String} {before chars after : List Char}
    (hline : line.toList = before ++ chars ++ after)
    (hblank : ∀ c ∈ before ++ after, isWhitespace c = true)
    (hchars : ∀ c ∈ chars, isWhitespace c = false) :
    trim line = String.ofList chars := by
  obtain ⟨hbefore, hafter⟩ := List.forall_mem_append.mp hblank
  have hfront : (before ++ (chars ++ after)).dropWhile isWhitespace =
      (chars ++ after).dropWhile isWhitespace := by
    rw [List.dropWhile_append, List.dropWhile_eq_nil_iff.mpr hbefore]
    rfl
  rw [trim, hline, List.append_assoc, hfront]
  cases chars with
  | nil =>
      rw [List.nil_append, List.dropWhile_eq_nil_iff.mpr hafter]
      rfl
  | cons c chars =>
      have hc : isWhitespace c = false := hchars c List.mem_cons_self
      rw [List.cons_append, List.dropWhile_cons_of_neg (by simp [hc]), ← List.cons_append]
      congr 1
      have hback : ∀ l, (∀ c ∈ l, isWhitespace c = true) →
          ((c :: chars) ++ l).rdropWhile isWhitespace = (c :: chars).rdropWhile isWhitespace := by
        intro l hl
        induction l using List.reverseRecOn with
        | nil => rw [List.append_nil]
        | append_singleton l d ih =>
            obtain ⟨hl, hd⟩ := List.forall_mem_append.mp hl
            rw [← List.append_assoc, List.rdropWhile_concat_pos _ _ _
              (hd d (List.mem_singleton.mpr rfl)), ih hl]
      rw [hback after hafter]
      apply List.rdropWhile_eq_self_iff.mpr
      intro hne hlast
      rw [hchars _ (List.getLast_mem hne)] at hlast
      cases hlast

/-- What is typed is read as the code on the screen. -/
theorem codeBytes_told (h : x.Told) : x.Shows (x.lib.toLowercase (trim x.line)) := by
  obtain ⟨code, typed, before, after, ⟨checksum, hchecksum, hcode⟩, hletters, hline, hblank⟩ := h
  have htyped : codeBytes typed = some (checksum, x.nonce) :=
    (codeBytes_sameLetters hletters).trans hcode
  refine ⟨checksum, hchecksum, ?_⟩
  have hall : typed.toList.all isAsciiHexdigit = true := by
    have hguard := guard_of_codeBytes htyped
    simpa using (Bool.or_eq_false_iff.mp hguard).2
  have hchars : ∀ c ∈ typed.toList, isWhitespace c = false :=
    fun c hc => not_whitespace (List.all_eq_true.mp hall c hc)
  rw [trim_blanks hline hblank hchars, String.ofList_toList, codeBytes_sameLetters
    (x.lowers typed hall), htyped]

/-- What is typed is refused, or it gives a secret. -/
theorem readSecret_agreed {tls : TlsClient} (htls : tls.clientCertDer = x.clientDer) :
    Meets x.Step (readSecret x.lib tls conn) s
    (fun r s' => s' = s ∧ match r with
      | .ok secret => x.Told → secret = x.digest.toList
      | .error (.error e) => e.kind = .pairingFailed ∧ ¬x.Told
      | .error _ => False) := by
  refine meets_request_bind.mpr ?_
  rintro _ s₁ ⟨_, rfl⟩
  refine meets_request_bind.mpr ?_
  rintro _ s₁ ⟨rfl, rfl⟩
  refine meets_ok_bind.mpr ?_
  refine meets_request_bind.mpr ?_
  rintro _ s₁ ⟨⟨certs, rfl⟩, rfl⟩
  refine (meets_some_bind (e := .new .protocolError "server sent no certificate")).mpr ?_
  rw [htls, computePairingSecret_eq x.client x.server]
  cases hcode : codeBytes (x.lib.toLowercase (trim x.line)) with
  | none =>
      refine meets_fail.mpr ⟨rfl, rfl, fun htold => ?_⟩
      obtain ⟨checksum, _, hread⟩ := codeBytes_told htold
      rw [hread] at hcode
      cases hcode
  | some p =>
      obtain ⟨checksum, nonce⟩ := p
      have hread (htold : x.Told) : nonce = x.nonce ∧ x.digest.toList.head? = some checksum := by
        obtain ⟨checksum', hchecksum, hread⟩ := codeBytes_told htold
        rw [hread] at hcode
        obtain ⟨rfl, hnonce⟩ := Prod.mk.inj (Option.some.inj hcode)
        exact ⟨hnonce.symm, hchecksum⟩
      by_cases hchecksum : (digestOf x.lib x.nc x.ec x.ns x.es nonce)[0] = checksum
      · simp only [hchecksum, ne_eq, not_true_eq_false, if_false]
        refine meets_pure.mpr ⟨rfl, fun htold => ?_⟩
        rw [(hread htold).1]
        rfl
      · simp only [ne_eq, hchecksum, not_false_eq_true, if_true]
        refine meets_fail.mpr ⟨rfl, rfl, fun htold => hchecksum ?_⟩
        obtain ⟨rfl, hhead⟩ := hread htold
        have hfirst : x.digest.toList.head? = some x.digest[0] := by simp [List.head?_eq_getElem?]
        exact Option.some.inj (hfirst.symm.trans hhead)

theorem pair_agreed (hfuel : 4 ≤ fuel) (hpaired : s.paired = false) :
    Meets x.Step (pair x.lib fuel host port) s (Agreed x host) := by
  refine openPairing_opens.bind ?_ ?_
  · rintro _ s₁ ⟨hpaired₁, hinbox₁, tls, conn, ⟨rfl⟩, htls⟩
    refine meets_request_bind.mpr ?_
    rintro y s₂ ⟨rfl, m, hm, rfl⟩
    refine meets_ok_bind.mpr ?_
    refine (pairLoop_shown ⟨m, hm, by rw [hinbox₁]; rfl⟩ hfuel).bind ?_ ?_
    · rintro flow s₃ ⟨hpaired₃, hinbox₃, _⟩
      have hunpaired : s₃.paired = false := hpaired₃.trans (hpaired₁.trans hpaired)
      refine (readSecret_agreed htls).bind ?_ ?_
      · rintro secret _ ⟨rfl, htold⟩
        exact sendSecret_agreed hunpaired hinbox₃ htold
      · rintro (e | text | _) _ ⟨rfl, hfailed⟩
        · exact agreed_error hfailed.1 hunpaired hfailed.2
        · exact hfailed.elim
        · exact hfailed.elim
    · rintro e s₃ ⟨_, _, flow, ⟨⟩⟩
  · rintro e s₁ ⟨_, _, tls, conn, ⟨⟩, _⟩

end AtvRemote.PairingAgreement
