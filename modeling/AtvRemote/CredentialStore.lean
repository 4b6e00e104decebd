import AtvRemote.CredentialRules
import AtvRemote.Guards
import Mathlib.Data.Nat.Init

namespace AtvRemote.CredentialStore

open Programs Contracts Guards CommandRules Errors Messages SystemCalls Credentials

variable {W : Signature}

abbrev Files := String → Option String

/-- The texts in which the libraries hand out identities. `Certifies` relates a
key pair to the certificates that may be built for it. A certificate contains
its public key, and ends where the text of no other one goes on. -/
structure PemLibrary where
  keyPair : Bytes → Bytes
  keyPem : Bytes → String
  Certifies : Bytes → String → Prop
  whole : ∀ der der' cert cert', Certifies (keyPair der) cert → Certifies (keyPair der') cert' →
    cert'.toList <+: cert.toList → cert' = cert ∧ der' = der

def PemLibrary.Matching (pem : PemLibrary) (cert key : String) : Prop :=
  ∃ der, pem.Certifies (pem.keyPair der) cert ∧ key = pem.keyPem der

theorem PemLibrary.Matching.unique {pem : PemLibrary} {cert cert' key key' : String}
    (h : pem.Matching cert key)
    (h' : pem.Matching cert' key') (hcert : cert'.toList <+: cert.toList) :
    cert' = cert ∧ key' = key := by
  obtain ⟨der, hder, rfl⟩ := h
  obtain ⟨der', hder', rfl⟩ := h'
  obtain ⟨rfl, rfl⟩ := pem.whole der der' cert cert' hder hder' hcert
  exact ⟨rfl, rfl⟩

/-- The files after a write that may have failed: not touched at all, or cut
off after some beginning of the contents. -/
def Cut (path contents : String) (f f' : Files) : Prop :=
  ∃ written : String, written.toList <+: contents.toList ∧
    f' = Function.update f path (some written)

/-- How the files move with an event of the client. A generated key is new. -/
def DiskStep (pem : PemLibrary) : Files → Event (System W) → Files → Prop
  | f, ⟨.host (.isFile path), found⟩, f' => found = (f path).isSome ∧ f' = f
  | f, ⟨.host (.writeFile path contents), .ok _⟩, f' => f' = Function.update f path (some contents)
  | f, ⟨.host (.writeFile path contents), .error _⟩, f' => f' = f ∨ Cut path contents f f'
  | f, ⟨.host (.createKeyFile path), .ok _⟩, f' => f' = Function.update f path (some "")
  | f, ⟨.host (.writeKeyFile path contents), .ok _⟩, f' =>
      f' = Function.update f path (some contents)
  | f, ⟨.host (.writeKeyFile path contents), .error _⟩, f' => Cut path contents f f'
  | f, ⟨.host (.keyPairFromPkcs8 der), .ok keyPair⟩, f' => keyPair = pem.keyPair der ∧ f' = f
  | f, ⟨.host (.selfSigned _ keyPair), .ok cert⟩, f' => pem.Certifies keyPair cert ∧ f' = f
  | f, ⟨.host (.toPem _ der), .ok key⟩, f' =>
      key = pem.keyPem der ∧ (∀ path, f path ≠ some key) ∧ f' = f
  | f, _, f' => f' = f

def certPath (dir : String) : String := join dir "cert.pem"

def keyPath (dir : String) : String := join dir "key.pem"

theorem certPath_ne_keyPath (dir : String) : certPath dir ≠ keyPath dir := by
  intro h
  unfold certPath keyPath join at h
  split at h <;> simp at h

/-- Both files are there, complete, and of one identity. -/
def Sound (pem : PemLibrary) (dir : String) (f : Files) : Prop :=
  ∃ cert key, f (certPath dir) = some cert ∧ f (keyPath dir) = some key ∧ pem.Matching cert key

def Present (dir : String) (f : Files) : Prop :=
  (f (certPath dir)).isSome ∧ (f (keyPath dir)).isSome

variable {pem : PemLibrary} {dir : String} {f : Files}

theorem bothFiles_meets :
    Meets (DiskStep pem) (bothFiles (certPath dir) (keyPath dir) : Command W Bool) f
    (fun r f' => r = .ok ((f (certPath dir)).isSome && (f (keyPath dir)).isSome) ∧ f' = f) := by
  refine meets_request_bind.mpr ?_
  rintro found f' ⟨rfl, rfl⟩
  cases hcert : (f' (certPath dir)).isSome with
  | false =>
      rw [if_neg Bool.false_ne_true]
      exact meets_pure.mpr ⟨rfl, rfl⟩
  | true =>
      rw [if_pos rfl]
      refine meets_call.mpr ?_
      rintro found' f'' ⟨rfl, rfl⟩
      exact meets_ret.mpr ⟨rfl, rfl⟩

theorem generateIdentity_meets :
    Meets (DiskStep pem) (generateIdentity : Command W (String × String)) f
    (fun r f' => f' = f ∧ ∀ cert key, r = .ok (cert, key) → pem.Matching cert key ∧
      ∀ path, f path ≠ some key) := by
  refine meets_request_bind.mpr fun x₁ f₁ h₁ => meets_orRaise_bind.mpr ⟨?_, ?_⟩
  · rintro rsaKey rfl
    obtain rfl : f₁ = f := h₁
    refine meets_request_bind.mpr fun x₂ f₂ h₂ => meets_orRaise_bind.mpr ⟨?_, ?_⟩
    · rintro der rfl
      obtain rfl : f₂ = f₁ := h₂
      refine meets_request_bind.mpr fun x₃ f₃ h₃ => meets_orRaise_bind.mpr ⟨?_, ?_⟩
      · rintro keyPair rfl
        obtain ⟨rfl, rfl⟩ := h₃
        refine meets_request_bind.mpr fun x₄ f₄ h₄ => meets_orRaise_bind.mpr ⟨?_, ?_⟩
        · rintro cert rfl
          obtain ⟨hcert, rfl⟩ := h₄
          refine meets_request_bind.mpr fun x₅ f₅ h₅ => meets_orRaise_bind.mpr ⟨?_, ?_⟩
          · rintro key rfl
            obtain ⟨hkey, hnew, rfl⟩ := h₅
            refine meets_pure.mpr ⟨rfl, ?_⟩
            rintro _ _ ⟨rfl⟩
            exact ⟨⟨der, hcert, hkey⟩, hnew⟩
          · rintro e rfl
            exact ⟨h₅, nofun⟩
        · rintro e rfl
          exact ⟨h₄, nofun⟩
      · rintro e rfl
        exact ⟨h₃, nofun⟩
    · rintro e rfl
      exact ⟨h₂, nofun⟩
  · rintro e rfl
    exact ⟨h₁, nofun⟩

/-- A write of the key file, in its two parts. -/
theorem writeKeyFile_meets {path key : String} :
    Meets (DiskStep pem) (writeKeyFile path key : Command W Unit) f
    (fun r f' => r = .ok () → f' = Function.update f path (some key)) := by
  refine meets_request_bind.mpr fun x₁ f₁ h₁ => meets_orRaise_bind.mpr ⟨?_, fun _ _ => nofun⟩
  rintro _ rfl
  refine meets_request_bind.mpr fun x₂ f₂ h₂ => meets_orRaise.mpr ⟨?_, fun _ _ => nofun⟩
  rintro _ rfl _
  obtain rfl : f₁ = Function.update f path (some "") := h₁
  obtain rfl : f₂ = Function.update _ path (some key) := h₂
  exact Function.update_idem _ _ _

theorem sound_update {cert key : String} (h : pem.Matching cert key) :
    Sound pem dir (Function.update (Function.update f (certPath dir) (some cert)) (keyPath dir)
      (some key)) := by
  refine ⟨cert, key, ?_, Function.update_self _ _ _, h⟩
  rw [Function.update_of_ne (certPath_ne_keyPath dir), Function.update_self]

/-- A run that returns either has found both files and leaves them as they
are, or has written a new identity. -/
theorem ensureIdentity_ok : Meets (DiskStep pem) (ensureIdentity dir : Command W Unit) f
    (fun r f' => r = .ok () → (Present dir f ∧ f' = f) ∨ Sound pem dir f') := by
  refine bothFiles_meets.bind ?_ (by rintro e f₁ ⟨⟨⟩, _⟩)
  rintro _ f₁ ⟨⟨rfl⟩, rfl⟩
  dsimp only
  split
  next hfound =>
    have hpresent : Present dir f₁ := by simpa [Present] using hfound
    exact meets_pure.mpr fun _ => .inl ⟨hpresent, rfl⟩
  next hmissing =>
    refine meets_request_bind.mpr fun x f₂ _ => meets_orRaise_bind.mpr
      ⟨fun _ _ => ?_, fun _ _ => nofun⟩
    refine generateIdentity_meets.bind ?_ (fun _ _ _ => nofun)
    rintro ⟨cert, key⟩ f₃ ⟨_, hgenerated⟩
    obtain ⟨hmatching, _⟩ := hgenerated cert key rfl
    refine meets_request_bind.mpr fun y f₄ h₄ => meets_orRaise_bind.mpr ⟨?_, fun _ _ => nofun⟩
    rintro _ rfl
    obtain rfl : f₄ = Function.update f₃ (certPath dir) (some cert) := h₄
    refine writeKeyFile_meets.mono fun r f' h hr => .inr ?_
    rw [h hr]
    exact sound_update hmatching

/-- What one failed write may leave without harm: it has touched nothing, or
the other file is not there, or it was complete all the same. -/
def Harmless (dir : String) : Files → Event (System W) → Files → Prop
  | f, ⟨.host (.writeFile _ _), .error _⟩, f' => f' = f ∨ f (keyPath dir) = none
  | f, ⟨.host (.createKeyFile path), .error _⟩, _ => f path = none
  | _, ⟨.host (.writeKeyFile path contents), .error _⟩, f' => f' path = some contents
  | _, _, _ => True

/-- The later runs of `ensureIdentity` that return leave a sound pair of files. -/
def Recovers (W : Signature) (pem : PemLibrary) (dir : String) (f : Files) : Prop :=
  ∀ (t : Trace (System W)) f', Run (ensureIdentity dir) t (.ok ()) → Path (DiskStep pem) f t f' →
    Sound pem dir f'

theorem recovers_iff : Recovers W pem dir f ↔ (Present dir f → Sound pem dir f) := by
  constructor
  · rintro h hpresent
    have hcert : Run (ensureIdentity dir : Command W Unit)
        [⟨.host (.isFile (certPath dir)), true⟩, ⟨.host (.isFile (keyPath dir)), true⟩] (.ok ()) :=
      .call (.call (.ret ()))
    exact h _ f hcert (.cons ⟨hpresent.1.symm, rfl⟩ (.cons ⟨hpresent.2.symm, rfl⟩ (.nil f)))
  · intro h t f' hrun hpath
    rcases ensureIdentity_ok t _ hrun f' hpath rfl with ⟨hpresent, rfl⟩ | hsound
    · exact h hpresent
    · exact hsound

def Spare : Event (System W) → Prop
  | ⟨.host (.writeFile _ _), _⟩ | ⟨.host (.createKeyFile _), _⟩ | ⟨.host (.writeKeyFile _ _), _⟩ =>
      False
  | _ => True

theorem harmless_of_spare {f' : Files} {e : Event (System W)} (h : Spare e) :
    Harmless dir f e f' := by
  obtain ⟨o, x⟩ := e
  cases o with
  | wire => trivial
  | host o =>
      cases o with
      | writeFile | createKeyFile | writeKeyFile => exact h.elim
      | _ => trivial

theorem bothFiles_spare (cert key : String) :
    Throughout Spare (bothFiles cert key : Command W Bool) :=
  throughout_request_bind.mpr fun found => ⟨trivial, by cases found <;> simp [ask, request, Spare]⟩

theorem generateIdentity_spare :
    Throughout Spare (generateIdentity : Command W (String × String)) := by
  simp [generateIdentity, ask, request, Spare]

/-- A beginning of a new certificate does not go with a key of its own. -/
theorem not_sound {cert key written other : String} (hmatching : pem.Matching cert key)
    (hwritten : written.toList <+: cert.toList) (hcert : f (certPath dir) = some written)
    (hkey : f (keyPath dir) = some other) (hother : other ≠ key) : ¬Sound pem dir f := by
  rintro ⟨cert', key', hcert', hkey', hmatching'⟩
  rw [hcert] at hcert'
  rw [hkey] at hkey'
  cases hcert'
  cases hkey'
  exact hother (hmatching.unique hmatching' hwritten).2

abbrev Watch (W : Signature) (pem : PemLibrary) (dir : String) :
    Files × Prop → Event (System W) → Files × Prop → Prop :=
  Watched (DiskStep pem) (Harmless dir)

/-- A new certificate, or a beginning of it, does harm next to an old key only. -/
theorem certificate_left {cert key written : String} {f' : Files}
    (hmatching : pem.Matching cert key)
    (hnew : ∀ path, f path ≠ some key) (hwritten : written.toList <+: cert.toList)
    (hf' : f' = Function.update f (certPath dir) (some written)) :
    f (keyPath dir) = none ↔ (Present dir f' → Sound pem dir f') := by
  have hcert : f' (certPath dir) = some written := by rw [hf', Function.update_self]
  have hkey : f' (keyPath dir) = f (keyPath dir) := by
    rw [hf', Function.update_of_ne (certPath_ne_keyPath dir).symm]
  constructor
  · intro hnone hpresent
    simp [Present, hkey, hnone] at hpresent
  · intro h
    by_contra hsome
    obtain ⟨other, hother⟩ := Option.ne_none_iff_exists'.mp hsome
    have hpresent : Present dir f' := by simp [Present, hcert, hkey, hother]
    have hne : other ≠ key := fun heq => hnew (keyPath dir) (by rw [hother, heq])
    exact not_sound hmatching hwritten hcert (hkey.trans hother) hne (h hpresent)

theorem writeKeyFile_watched {cert key : String} (hmatching : pem.Matching cert key)
    (hnew : ∀ path, f path ≠ some key) :
    Meets (Watch W pem dir) (writeKeyFile (keyPath dir) key)
      (Function.update f (certPath dir) (some cert), True)
      (fun r s => s.2 ↔ (∃ stop, r = .error stop) → Present dir s.1 → Sound pem dir s.1) := by
  refine watched_call fun x₁ f₁ h₁ => meets_orRaise_bind.mpr ⟨?_, ?_⟩
  · rintro _ rfl
    refine watched_call fun x₂ f₂ h₂ => meets_orRaise.mpr ⟨?_, ?_⟩
    · rintro _ rfl
      simp [Harmless]
    · rintro e rfl
      obtain rfl : f₁ = Function.update _ (keyPath dir) (some "") := h₁
      obtain ⟨written, hwritten, hf₂⟩ : Cut (keyPath dir) key _ f₂ := h₂
      rw [Function.update_idem] at hf₂
      have hkey : f₂ (keyPath dir) = some written := by rw [hf₂, Function.update_self]
      have hcert : f₂ (certPath dir) = some cert := by
        rw [hf₂, Function.update_of_ne (certPath_ne_keyPath dir), Function.update_self]
      have hpresent : Present dir f₂ := by simp [Present, hcert, hkey]
      change f₂ (keyPath dir) = some key ↔ _
      rw [hkey]
      constructor
      · rintro ⟨rfl⟩ _ _
        rw [hf₂]
        exact sound_update hmatching
      · intro h
        by_contra hne
        exact not_sound hmatching (List.prefix_refl _) hcert hkey (fun heq => hne (by rw [heq]))
          (h ⟨_, rfl⟩ hpresent)
  · rintro e rfl
    obtain rfl : f₁ = Function.update f (certPath dir) (some cert) := h₁
    have hkey : Function.update f (certPath dir) (some cert) (keyPath dir) = f (keyPath dir) :=
      Function.update_of_ne (certPath_ne_keyPath dir).symm _ _
    change Function.update f (certPath dir) (some cert) (keyPath dir) = none ↔ _
    rw [hkey, certificate_left hmatching hnew (List.prefix_refl _) rfl]
    exact ⟨fun h _ => h, fun h => h ⟨_, rfl⟩⟩

theorem ensureIdentity_watched : Meets (Watch W pem dir) (ensureIdentity dir) (f, True)
    (fun r s => s.2 ↔ (∃ stop, r = .error stop) → Present dir s.1 → Sound pem dir s.1) := by
  refine (Meets.watched bothFiles_meets (bothFiles_spare _ _) fun _ _ _ =>
    harmless_of_spare).bind ?_ ?_
  · rintro _ ⟨f₁, c₁⟩ ⟨⟨⟨rfl⟩, rfl⟩, hc₁⟩
    obtain rfl : c₁ = True := hc₁
    dsimp only
    split
    next hfound => exact meets_pure.mpr (by simp)
    next hmissing =>
      have hmissing : ¬Present dir f₁ := by simpa [Present] using hmissing
      have hquiet (stop : Stop) :
          True ↔ (∃ stop', (.error stop : Except Stop Unit) = .error stop') →
          Present dir f₁ → Sound pem dir f₁ := ⟨fun _ _ h => absurd h hmissing, fun _ => trivial⟩
      refine watched_call fun x f₂ h₂ => meets_orRaise_bind.mpr ⟨?_, ?_⟩
      · rintro _ rfl
        obtain rfl : f₂ = f₁ := h₂
        refine (Meets.watched generateIdentity_meets generateIdentity_spare fun _ _ _ =>
          harmless_of_spare).bind ?_ ?_
        · rintro ⟨cert, key⟩ ⟨f₃, c₃⟩ ⟨⟨rfl, hgenerated⟩, hc₃⟩
          obtain rfl : c₃ = True := hc₃
          obtain ⟨hmatching, hnew⟩ := hgenerated cert key rfl
          refine watched_call fun y f₄ h₄ => meets_orRaise_bind.mpr ⟨?_, ?_⟩
          · rintro _ rfl
            obtain rfl : f₄ = Function.update f₃ (certPath dir) (some cert) := h₄
            exact writeKeyFile_watched hmatching hnew
          · rintro e rfl
            change (f₄ = f₃ ∨ f₃ (keyPath dir) = none) ↔ _
            rcases h₄ with rfl | ⟨written, hwritten, hf₄⟩
            · exact ⟨fun _ => (hquiet _).mp trivial, fun _ => .inl rfl⟩
            · have hleft := certificate_left hmatching hnew hwritten hf₄
              constructor
              · rintro (rfl | hnone)
                · exact (hquiet _).mp trivial
                · exact fun _ => hleft.mp hnone
              · exact fun h => .inr (hleft.mpr (h ⟨_, rfl⟩))
        · rintro e ⟨f₃, c₃⟩ ⟨⟨rfl, _⟩, hc₃⟩
          obtain rfl : c₃ = True := hc₃
          exact hquiet e
      · rintro e rfl
        obtain rfl : f₂ = f₁ := h₂
        exact hquiet _
  · rintro e s ⟨⟨⟨⟩, _⟩, _⟩

/-- A failed run leaves a directory from which later runs recover exactly when
the write it failed in was harmless. -/
theorem failed_write_recovers_iff {t : Trace (System W)} {stop : Stop} {f' : Files}
    (hrun : Run (ensureIdentity dir) t (.error stop)) (hpath : Path (DiskStep pem) f t f') :
    Recovers W pem dir f' ↔ Path (Guarded (DiskStep pem) (Harmless dir)) f t f' := by
  rw [recovers_iff, guarded_iff (Q := fun r f' => (∃ stop, r = .error stop) → Present dir f' →
    Sound pem dir f')
    ensureIdentity_watched hrun hpath]
  exact ⟨fun h _ => h, fun h => h ⟨stop, rfl⟩⟩

def twoIdentities : PemLibrary where
  keyPair der := der
  keyPem der := if der = [1] then "private key 1" else "private key 2"
  Certifies keyPair cert :=
    (keyPair = [1] ∧ cert = "certificate 1") ∨ (keyPair = [2] ∧ cert = "certificate 2")
  whole := by
    rintro der der' cert cert' (⟨rfl, rfl⟩ | ⟨rfl, rfl⟩) (⟨rfl, rfl⟩ | ⟨rfl, rfl⟩) h
    · exact ⟨rfl, rfl⟩
    · exact absurd h (by decide)
    · exact absurd h (by decide)
    · exact ⟨rfl, rfl⟩

def diskFull : IoError := ⟨.other, "No space left on device (os error 28)"⟩

/-- The disk is full when the second identity is to be written. -/
def failing : Trace (System ByteWire) :=
  [⟨.host (.isFile (certPath "/atv")), false⟩, ⟨.host (.createDirAll "/atv"), .ok ()⟩,
    ⟨.host (.rsaPrivateKey 2048), .ok [2]⟩, ⟨.host (.toPkcs8Der [2]), .ok [2]⟩,
    ⟨.host (.keyPairFromPkcs8 [2]), .ok [2]⟩, ⟨.host (.selfSigned "atv" [2]), .ok "certificate 2"⟩,
    ⟨.host (.toPem "PRIVATE KEY" [2]), .ok "private key 2"⟩,
    ⟨.host (.writeFile (certPath "/atv") "certificate 2"), .error diskFull⟩]

def notWritten : AtvError :=
  let path := certPath "/atv"
  .new .configIo s!"cannot write {path}: {diskFull}"

theorem failing_run : Run (ensureIdentity "/atv") failing (.error (.error notWritten)) :=
  .call (.call (.call (.call (.call (.call (.call (.call (.fail _))))))))

theorem failing_path {f : Files} (hcert : f (certPath "/atv") = none)
    (hnew : ∀ path, f path ≠ some "private key 2") :
    Path (DiskStep twoIdentities) f failing (Function.update f (certPath "/atv") (some "")) := by
  refine .cons ⟨by rw [hcert]; rfl, rfl⟩
    (.cons rfl (.cons rfl (.cons rfl (.cons ⟨rfl, rfl⟩ (.cons ⟨.inr ⟨rfl, rfl⟩, rfl⟩
    (.cons ⟨rfl, hnew, rfl⟩ (.cons (.inr ⟨"", ?_, rfl⟩) (.nil _))))))))
  exact List.nil_prefix

/-- With neither file there before, only a beginning of the certificate is left. -/
theorem failed_write_recovers_iff_empty :
    Recovers ByteWire twoIdentities "/atv"
      (Function.update (fun _ => none) (certPath "/atv") (some "")) ↔
      Path (Guarded (DiskStep twoIdentities) (Harmless "/atv")) (fun _ => none) failing
        (Function.update (fun _ => none) (certPath "/atv") (some "")) :=
  failed_write_recovers_iff failing_run (failing_path rfl (fun _ => nofun))

def onlyKey : Files := Function.update (fun _ => none) (keyPath "/atv") (some "private key 1")

theorem failed_write_poisons :
    ¬∀ (pem : PemLibrary) (dir : String) (f f' : Files) (t : Trace (System ByteWire)) (stop : Stop),
    Sound pem dir f ∨ f (certPath dir) = none ∨ f (keyPath dir) = none →
      Run (ensureIdentity dir) t (.error stop) → Path (DiskStep pem) f t f' →
        Recovers ByteWire pem dir f' := by
  intro h
  have hcert : onlyKey (certPath "/atv") = none := Function.update_of_ne (certPath_ne_keyPath _) _ _
  have hnew : ∀ path, onlyKey path ≠ some "private key 2" := by
    intro path
    unfold onlyKey Function.update
    split <;> simp
  have hleft := h twoIdentities "/atv" onlyKey _ failing _ (.inr (.inl hcert)) failing_run
    (failing_path hcert hnew)
  obtain ⟨cert, key, hcert', _, der, hder, _⟩ := recovers_iff.mp hleft (by
    simp [Present, onlyKey, Function.update_of_ne (certPath_ne_keyPath "/atv").symm])
  rw [Function.update_self] at hcert'
  cases hcert'
  rcases hder with ⟨_, hder⟩ | ⟨_, hder⟩ <;> exact absurd hder (by decide)

end AtvRemote.CredentialStore
