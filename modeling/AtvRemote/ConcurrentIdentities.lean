import AtvRemote.CredentialStore
import AtvRemote.Translations

namespace AtvRemote.ConcurrentIdentities

open Programs Contracts Translations CommandRules Errors Messages SystemCalls
  Credentials CredentialStore

variable {W : Signature} {ι : Type}

/-- The second of the three steps of a run, up to the write of the certificate. -/
def writeCertificate (dir : String) : Command W (String × String) := do
  orRaise (← ask (.createDirAll dir)) (fun e => .new .configIo s!"cannot create {dir}: {e}")
  let (certPem, keyPem) ← generateIdentity
  orRaise (← ask (.writeFile (certPath dir) certPem))
    (fun e => .new .configIo s!"cannot write {certPath dir}: {e}")
  pure (certPem, keyPem)

inductive Phase
  | starting
  | missing
  | certified (cert key : String)
  | returned

/-- What is still to be done of `ensureIdentity`. -/
def Phase.rest (W : Signature) (dir : String) : Phase → Command W Unit
  | .starting => ensureIdentity dir
  | .missing => do
      let (_, keyPem) ← writeCertificate dir
      writeKeyFile (keyPath dir) keyPem
  | .certified _ key => writeKeyFile (keyPath dir) key
  | .returned => pure ()

theorem bind_bind {α β γ : Type} (p : Command W α) (g : α → Command W β) (h : β → Command W γ) :
    (p >>= g) >>= h = p >>= fun a => g a >>= h := bind_assoc p g h

theorem ensureIdentity_eq (dir : String) : (ensureIdentity dir : Command W Unit) = (do
    let found ← bothFiles (certPath dir) (keyPath dir)
    if found then pure () else Phase.missing.rest W dir) := by
  unfold ensureIdentity Phase.rest writeCertificate
  simp only [bind_bind]
  rfl

/-- The directory and the runs that share it. What a run has generated, and
which run wrote each file last, is recorded. -/
structure Store (ι : Type) where
  files : Files
  phase : ι → Phase
  made : ι → Option (String × String)
  certBy : Option ι
  keyBy : Option ι

def Store.start : Store ι := ⟨fun _ => none, fun _ => .starting, fun _ => none, none, none⟩

variable [DecidableEq ι]

@[simps] def Store.move (s : Store ι) (i : ι) (phase : Phase) (files : Files) : Store ι :=
  { s with files, phase := Function.update s.phase i phase }

@[simps] def Store.certify (s : Store ι) (i : ι) (cert key : String) (files : Files) : Store ι :=
  { s with
    files
    phase := Function.update s.phase i (.certified cert key)
    made := Function.update s.made i (some (cert, key))
    certBy := some i }

@[simps] def Store.finish (s : Store ι) (i : ι) (files : Files) : Store ι :=
  { s with files, phase := Function.update s.phase i .returned, keyBy := some i }

/-- One run takes its next step: the check, the write of the certificate or the
write of the key. No two generations give the same key. -/
inductive Step (W : Signature) (pem : PemLibrary) (dir : String) :
    Store ι → ι × Trace (System W) → Store ι → Prop
  | found {s : Store ι} {i : ι} {t : Trace (System W)} {files : Files}
      (hphase : s.phase i = .starting)
      (hrun : Run (bothFiles (certPath dir) (keyPath dir)) t (.ok true))
        (hpath : Path (DiskStep pem) s.files t files) :
      Step W pem dir s (i, t) (s.move i .returned files)
  | missing {s : Store ι} {i : ι} {t : Trace (System W)} {files : Files}
      (hphase : s.phase i = .starting)
      (hrun : Run (bothFiles (certPath dir) (keyPath dir)) t (.ok false))
        (hpath : Path (DiskStep pem) s.files t files) :
      Step W pem dir s (i, t) (s.move i .missing files)
  | certificate {s : Store ι} {i : ι} {t : Trace (System W)} {files : Files} {cert key : String}
      (hphase : s.phase i = .missing) (hrun : Run (writeCertificate dir) t (.ok (cert, key)))
      (hpath : Path (DiskStep pem) s.files t files) (hnew : ∀ j c, s.made j ≠ some (c, key)) :
      Step W pem dir s (i, t) (s.certify i cert key files)
  | key {s : Store ι} {i : ι} {t : Trace (System W)} {files : Files} {cert key : String}
      (hphase : s.phase i = .certified cert key)
        (hrun : Run (writeKeyFile (keyPath dir) key) t (.ok ()))
      (hpath : Path (DiskStep pem) s.files t files) :
      Step W pem dir s (i, t) (s.finish i files)

variable {pem : PemLibrary} {dir : String} {s s' : Store ι}

/-- The events of one run, in order. -/
def own (i : ι) (labels : List (ι × Trace (System W))) : Trace (System W) :=
  (labels.filter fun l => l.1 = i).flatMap Prod.snd

/-- A step takes its run further and leaves the others where they are. -/
theorem Step.rest {j : ι} {t : Trace (System W)} (h : Step W pem dir s (j, t) s') (i : ι)
    {v : Trace (System W)}
    {r : Except Stop Unit} (hrun : Run ((s'.phase i).rest W dir) v r) :
    Run ((s.phase i).rest W dir) (if j = i then t ++ v else v) r := by
  by_cases hij : j = i
  · subst hij
    rw [if_pos rfl]
    cases h with
    | found hphase hcheck _ =>
        simp only [Store.move_phase, Function.update_self] at hrun
        rw [hphase]
        change Run (ensureIdentity dir) _ r
        rw [ensureIdentity_eq]
        exact run_bind.mpr (.inl ⟨true, t, v, rfl, hcheck, hrun⟩)
    | missing hphase hcheck _ =>
        simp only [Store.move_phase, Function.update_self] at hrun
        rw [hphase]
        change Run (ensureIdentity dir) _ r
        rw [ensureIdentity_eq]
        exact run_bind.mpr (.inl ⟨false, t, v, rfl, hcheck, hrun⟩)
    | @certificate _ _ _ cert key hphase hwrite _ _ =>
        simp only [Store.certify_phase, Function.update_self] at hrun
        rw [hphase]
        exact run_bind.mpr (.inl ⟨(cert, key), t, v, rfl, hwrite, hrun⟩)
    | key hphase hwrite _ =>
        simp only [Store.finish_phase, Function.update_self] at hrun
        obtain ⟨rfl, rfl⟩ := run_pure.mp hrun
        rw [hphase, List.append_nil]
        exact hwrite
  · rw [if_neg hij]
    cases h <;> simpa [Function.update_of_ne (Ne.symm hij)] using hrun

/-- What a run has done so far and what is still to be done of it make a run of
the code. -/
theorem path_rest {labels : List (ι × Trace (System W))} (h : Path (Step W pem dir) s labels s')
    (i : ι)
    {v : Trace (System W)} {r : Except Stop Unit} (hrun : Run ((s'.phase i).rest W dir) v r) :
    Run ((s.phase i).rest W dir) (own i labels ++ v) r := by
  induction h with
  | nil => exact hrun
  | @cons s s₁ s' label labels hstep _ ih =>
      obtain ⟨j, t⟩ := label
      have hrest := hstep.rest i (ih hrun)
      by_cases hij : j = i
      · rw [if_pos hij] at hrest
        simpa [own, hij] using hrest
      · rw [if_neg hij] at hrest
        simpa [own, hij] using hrest

theorem runs_ensureIdentity {labels : List (ι × Trace (System W))}
    (h : Path (Step W pem dir) Store.start labels s)
    {i : ι} (hdone : s.phase i = .returned) :
    Run (ensureIdentity dir : Command W Unit) (own i labels) (.ok ()) := by
  have hrun : Run ((s.phase i).rest W dir) [] (.ok ()) := by
    rw [hdone]
    exact .ret ()
  have hrest := path_rest h i hrun
  rwa [List.append_nil] at hrest

/-- What `phase` tells of a run and of the directory. -/
def Done (s : Store ι) (i : ι) : Phase → Prop
  | .starting | .missing => s.made i = none
  | .certified cert key => s.made i = some (cert, key) ∧ s.certBy.isSome
  | .returned => s.certBy.isSome ∧ s.keyBy.isSome

structure Inv (pem : PemLibrary) (dir : String) (s : Store ι) : Prop where
  certFile : s.files (certPath dir) = s.certBy.bind fun i => (s.made i).map Prod.fst
  keyFile : s.files (keyPath dir) = s.keyBy.bind fun i => (s.made i).map Prod.snd
  certMade : ∀ i, s.certBy = some i → (s.made i).isSome
  keyMade : ∀ i, s.keyBy = some i → (s.made i).isSome
  matching : ∀ i cert key, s.made i = some (cert, key) → pem.Matching cert key
  distinct : ∀ i j cert cert' key, s.made i = some (cert, key) → s.made j = some
    (cert', key) → i = j
  done : ∀ i, Done s i (s.phase i)

omit [DecidableEq ι] in
theorem inv_start : Inv pem dir (Store.start : Store ι) :=
  ⟨rfl, rfl, nofun, nofun, nofun, nofun, fun _ => rfl⟩

theorem writeCertificate_meets {f : Files} :
    Meets (DiskStep pem) (writeCertificate dir : Command W (String × String)) f
    (fun r f' => ∀ cert key, r = .ok (cert, key) →
      pem.Matching cert key ∧ f' = Function.update f (certPath dir) (some cert)) := by
  refine meets_request_bind.mpr fun x f₁ h₁ => meets_orRaise_bind.mpr ⟨?_, fun _ _ _ _ => nofun⟩
  rintro _ rfl
  obtain rfl : f₁ = f := h₁
  refine generateIdentity_meets.bind ?_ (fun _ _ _ _ _ => nofun)
  rintro ⟨cert, key⟩ f₂ ⟨rfl, hgenerated⟩
  refine meets_request_bind.mpr fun y f₃ h₃ => meets_orRaise_bind.mpr ⟨?_, fun _ _ _ _ => nofun⟩
  rintro _ rfl
  refine meets_pure.mpr ?_
  rintro _ _ ⟨rfl⟩
  exact ⟨(hgenerated cert key rfl).1, h₃⟩

theorem done_move {i : ι} {phase : Phase} {files : Files} (h : ∀ j, Done s j (s.phase j))
    (hi : Done s i phase)
    (j : ι) : Done (s.move i phase files) j ((s.move i phase files).phase j) := by
  by_cases hj : j = i
  · subst hj
    simp only [Store.move_phase, Function.update_self]
    exact hi
  · simp only [Store.move_phase, Function.update_of_ne hj]
    exact h j

theorem done_certify {i : ι} {cert key : String} {files : Files} (h : ∀ j, Done s j (s.phase j))
    (j : ι) :
    Done (s.certify i cert key files) j ((s.certify i cert key files).phase j) := by
  by_cases hji : j = i
  · subst hji
    simp [Done]
  · have hj := h j
    simp only [Store.certify_phase, Function.update_of_ne hji]
    cases hp : s.phase j with
    | starting | missing =>
        rw [hp] at hj
        exact (Function.update_of_ne hji _ _).trans hj
    | certified c k =>
        rw [hp] at hj
        exact ⟨(Function.update_of_ne hji _ _).trans hj.1, rfl⟩
    | returned =>
        rw [hp] at hj
        exact ⟨rfl, hj.2⟩

/-- An identity is the new one or an earlier one. -/
theorem certify_made_cases {i j : ι} {cert key c k : String} {files : Files}
    (h : (s.certify i cert key files).made j = some (c, k)) :
    (j = i ∧ c = cert ∧ k = key) ∨ s.made j = some (c, k) := by
  by_cases hji : j = i
  · subst hji
    simp only [Store.certify_made, Function.update_self, Option.some.injEq, Prod.mk.injEq] at h
    exact .inl ⟨rfl, h.1.symm, h.2.symm⟩
  · simp only [Store.certify_made, Function.update_of_ne hji] at h
    exact .inr h

theorem Inv.certificate {i : ι} {cert key : String} {files : Files} (h : Inv pem dir s)
    (hphase : s.phase i = .missing)
    (hmatching : pem.Matching cert key) (hnew : ∀ j c, s.made j ≠ some (c, key))
    (hfiles : files = Function.update s.files (certPath dir) (some cert)) :
    Inv pem dir (s.certify i cert key files) := by
  have hmade : s.made i = none := by
    have hi := h.done i
    rw [hphase] at hi
    exact hi
  have hold {j : ι} (hj : (s.made j).isSome) : j ≠ i := by
    rintro rfl
    rw [hmade] at hj
    cases hj
  refine ⟨?_, ?_, ?_, ?_, ?_, ?_, done_certify h.done⟩
  · rw [hfiles]
    simp
  · rw [hfiles]
    simp only [Store.certify_files, Store.certify_keyBy, Store.certify_made,
      Function.update_of_ne (certPath_ne_keyPath dir).symm, h.keyFile]
    cases hby : s.keyBy with
    | none => rfl
    | some j => simp [Function.update_of_ne (hold (h.keyMade j hby))]
  · rintro j ⟨rfl⟩
    simp
  · intro j hj
    have hsome := h.keyMade j hj
    simpa [Function.update_of_ne (hold hsome)] using hsome
  · intro j c k hj
    rcases certify_made_cases hj with ⟨_, rfl, rfl⟩ | hj
    · exact hmatching
    · exact h.matching j c k hj
  · intro j l c c' k hj hl
    rcases certify_made_cases hj with ⟨rfl, _, rfl⟩ | hjOld
    · rcases certify_made_cases hl with ⟨rfl, _, _⟩ | hlOld
      · rfl
      · exact absurd hlOld (hnew l c')
    · rcases certify_made_cases hl with ⟨_, _, rfl⟩ | hlOld
      · exact absurd hjOld (hnew j c)
      · exact h.distinct j l c c' k hjOld hlOld

theorem Inv.key {i : ι} {cert key : String} {files : Files} (h : Inv pem dir s)
    (hphase : s.phase i = .certified cert key)
    (hfiles : files = Function.update s.files (keyPath dir) (some key)) :
    Inv pem dir (s.finish i files) := by
  have hi := h.done i
  rw [hphase] at hi
  obtain ⟨hmade, hcert⟩ := hi
  refine ⟨?_, ?_, h.certMade, ?_, h.matching, h.distinct, ?_⟩
  · rw [hfiles]
    simpa [Function.update_of_ne (certPath_ne_keyPath dir)] using h.certFile
  · rw [hfiles]
    simp [hmade]
  · rintro j ⟨rfl⟩
    rw [Store.finish_made, hmade]
    rfl
  · intro j
    by_cases hji : j = i
    · subst hji
      simp [Done, hcert]
    · have hj := h.done j
      simp only [Store.finish_phase, Function.update_of_ne hji]
      cases hp : s.phase j with
      | starting | missing | certified c k =>
          rw [hp] at hj
          exact hj
      | returned =>
          rw [hp] at hj
          exact ⟨hj.1, rfl⟩

theorem Inv.step {l : ι × Trace (System W)} (h : Inv pem dir s) (hstep : Step W pem dir s l s') :
    Inv pem dir s' := by
  cases hstep with
  | @found i t files hphase hrun hpath =>
      obtain ⟨hfound, rfl⟩ := bothFiles_meets t _ hrun _ hpath
      have hpresent := Bool.and_eq_true_iff.mp (Except.ok.inj hfound).symm
      rw [h.certFile, h.keyFile] at hpresent
      refine ⟨h.certFile, h.keyFile, h.certMade, h.keyMade, h.matching, h.distinct,
        done_move h.done ?_⟩
      exact ⟨Option.isSome_of_isSome_bind hpresent.1, Option.isSome_of_isSome_bind hpresent.2⟩
  | @missing i t files hphase hrun hpath =>
      obtain ⟨_, rfl⟩ := bothFiles_meets t _ hrun _ hpath
      have hi := h.done i
      rw [hphase] at hi
      exact ⟨h.certFile, h.keyFile, h.certMade, h.keyMade, h.matching, h.distinct,
        done_move h.done hi⟩
  | certificate hphase hrun hpath hnew =>
      obtain ⟨hmatching, hfiles⟩ := writeCertificate_meets _ _ hrun _ hpath _ _ rfl
      exact h.certificate hphase hmatching hnew hfiles
  | key hphase hrun hpath => exact h.key hphase (writeKeyFile_meets _ _ hrun _ hpath rfl)

omit [DecidableEq ι] in
theorem Inv.sound_iff (h : Inv pem dir s) {i : ι} (hdone : s.phase i = .returned) :
    ∃ a b cert cert' key key', s.certBy = some a ∧ s.made a = some (cert, key') ∧
      s.files (certPath dir) = some cert ∧
      s.keyBy = some b ∧ s.made b = some (cert', key) ∧ s.files (keyPath dir) = some key ∧
      (Sound pem dir s.files ↔ a = b) := by
  have hi := h.done i
  rw [hdone] at hi
  obtain ⟨a, ha⟩ := Option.isSome_iff_exists.mp hi.1
  obtain ⟨b, hb⟩ := Option.isSome_iff_exists.mp hi.2
  obtain ⟨⟨cert, key'⟩, hmadea⟩ := Option.isSome_iff_exists.mp (h.certMade a ha)
  obtain ⟨⟨cert', key⟩, hmadeb⟩ := Option.isSome_iff_exists.mp (h.keyMade b hb)
  have hcert : s.files (certPath dir) = some cert := by
    rw [h.certFile, ha, Option.bind_some, hmadea]; rfl
  have hkey : s.files (keyPath dir) = some key := by
    rw [h.keyFile, hb, Option.bind_some, hmadeb]; rfl
  refine ⟨a, b, cert, cert', key, key', ha, hmadea, hcert, hb, hmadeb, hkey, ?_⟩
  constructor
  · rintro ⟨c, k, hc, hk, hmatching⟩
    rw [hcert] at hc
    rw [hkey] at hk
    cases hc
    cases hk
    obtain ⟨_, rfl⟩ := (h.matching a cert key' hmadea).unique hmatching (List.prefix_refl _)
    exact h.distinct a b _ _ _ hmadea hmadeb
  · rintro rfl
    rw [hmadea] at hmadeb
    cases hmadeb
    exact ⟨_, _, hcert, hkey, h.matching a _ _ hmadea⟩

/-- Once all runs have returned, each file is complete and from the run that
wrote it last. They are of one identity exactly when that is the same run. -/
theorem identities_agree_iff [Nonempty ι] {labels : List (ι × Trace (System W))}
    (hpath : Path (Step W pem dir) Store.start labels s) (hdone : ∀ i, s.phase i = .returned) :
    ∃ a b cert cert' key key', s.certBy = some a ∧ s.made a = some (cert, key') ∧
      s.files (certPath dir) = some cert ∧
      s.keyBy = some b ∧ s.made b = some (cert', key) ∧ s.files (keyPath dir) = some key ∧
      (Sound pem dir s.files ↔ a = b) := by
  have hinv : Inv pem dir s := hpath.invariant (fun _ _ _ h hstep => h.step hstep) inv_start
  obtain ⟨i⟩ := ‹Nonempty ι›
  exact hinv.sound_iff (hdone i)

def check : Trace (System ByteWire) := [⟨.host (.isFile (certPath "/atv")), false⟩]

def certificateOf (der : Bytes) (cert key : String) : Trace (System ByteWire) :=
  [⟨.host (.createDirAll "/atv"), .ok ()⟩, ⟨.host (.rsaPrivateKey 2048), .ok der⟩,
    ⟨.host (.toPkcs8Der der), .ok der⟩,
    ⟨.host (.keyPairFromPkcs8 der), .ok der⟩, ⟨.host (.selfSigned "atv" der), .ok cert⟩,
    ⟨.host (.toPem "PRIVATE KEY" der), .ok key⟩,
      ⟨.host (.writeFile (certPath "/atv") cert), .ok ()⟩]

def keyOf (key : String) : Trace (System ByteWire) :=
  [⟨.host (.createKeyFile (keyPath "/atv")), .ok ()⟩,
    ⟨.host (.writeKeyFile (keyPath "/atv") key), .ok ()⟩]

theorem check_step {s : Store ι} {i : ι} (hphase : s.phase i = .starting)
    (hfiles : s.files (certPath "/atv") = none) :
    Step ByteWire twoIdentities "/atv" s (i, check) (s.move i .missing s.files) :=
  .missing hphase (.call (.ret false)) (.cons ⟨by rw [hfiles]; rfl, rfl⟩ (.nil _))

theorem certificate_step {s : Store ι} {i : ι} {der : Bytes} {cert key : String}
    (hphase : s.phase i = .missing)
    (hcert : twoIdentities.Certifies der cert) (hkey : key = twoIdentities.keyPem der)
    (hnew : ∀ path, s.files path ≠ some key)
    (hmade : ∀ j c, s.made j ≠ some (c, key)) :
    Step ByteWire twoIdentities "/atv" s (i, certificateOf der cert key)
      (s.certify i cert key (Function.update s.files (certPath "/atv") (some cert))) :=
  .certificate hphase (.call (.call (.call (.call (.call (.call (.call (.ret (cert, key)))))))))
    (.cons rfl
      (.cons rfl
      (.cons rfl
      (.cons ⟨rfl, rfl⟩ (.cons ⟨hcert, rfl⟩ (.cons ⟨hkey, hnew, rfl⟩ (.cons rfl (.nil _))))))))
      hmade

theorem key_step {s : Store ι} {i : ι} {cert key : String}
    (hphase : s.phase i = .certified cert key) :
    Step ByteWire twoIdentities "/atv" s (i, keyOf key)
      (s.finish i (Function.update s.files (keyPath "/atv") (some key))) :=
  .key hphase (.call (.call (.ret ())))
    (.cons rfl (.cons (Function.update_idem _ _ _).symm (.nil _)))

/-- Two runs have checked the directory, neither has written to it yet. -/
def bothMissing : Store Bool :=
  (Store.start.move false .missing fun _ => none).move true .missing fun _ => none

def oneCertified : Store Bool :=
  bothMissing.certify false "certificate 1" "private key 1"
    (Function.update bothMissing.files (certPath "/atv") (some "certificate 1"))

def bothCertified : Store Bool :=
  oneCertified.certify true "certificate 2" "private key 2"
    (Function.update oneCertified.files (certPath "/atv") (some "certificate 2"))

def keyWritten : Store Bool :=
  bothCertified.finish true (Function.update bothCertified.files (keyPath "/atv")
    (some "private key 2"))

def disagreeing : Store Bool :=
  keyWritten.finish false (Function.update keyWritten.files (keyPath "/atv") (some "private key 1"))

/-- The run that writes its certificate last writes its key first. -/
theorem disagreeing_path :
    ∃ labels, Path (Step ByteWire twoIdentities "/atv") Store.start labels disagreeing := by
  have h₁ : Step ByteWire twoIdentities "/atv" Store.start (false, check)
      (Store.start.move false .missing fun _ => none) :=
    check_step rfl rfl
  have h₂ : Step ByteWire twoIdentities "/atv" _ (true, check) bothMissing := check_step rfl rfl
  have h₃ : Step ByteWire twoIdentities "/atv" bothMissing
      (false, certificateOf [1] "certificate 1" "private key 1") oneCertified :=
    certificate_step rfl (.inl ⟨rfl, rfl⟩) rfl (fun _ => nofun) (fun _ _ => nofun)
  have h₄ : Step ByteWire twoIdentities "/atv" oneCertified
      (true, certificateOf [2] "certificate 2" "private key 2") bothCertified := by
    have hkey : "private key 2" = twoIdentities.keyPem [2] := rfl
    apply certificate_step rfl (.inr ⟨rfl, rfl⟩) hkey
    · intro path
      simp only [oneCertified, bothMissing, Store.certify_files, Store.move_files,
        Function.update_apply]
      split
      · trivial
      · simp
    · intro j c
      cases j with
      | false => simp [oneCertified, bothMissing]
      | true => simp [oneCertified, bothMissing, Store.start]
  have h₅ : Step ByteWire twoIdentities "/atv" bothCertified
      (true, keyOf "private key 2") keyWritten := key_step rfl
  have h₆ : Step ByteWire twoIdentities "/atv" keyWritten
      (false, keyOf "private key 1") disagreeing := key_step rfl
  exact ⟨_, .cons h₁ (.cons h₂ (.cons h₃ (.cons h₄ (.cons h₅ (.cons h₆ (.nil _))))))⟩

theorem disagreeing_returned (i : Bool) : disagreeing.phase i = .returned := by
  cases i <;> rfl

theorem identities_agree_iff_interleaved : ∃ a b cert cert' key key',
    disagreeing.certBy = some a ∧ disagreeing.made a = some (cert, key') ∧ disagreeing.files
      (certPath "/atv") = some cert ∧
      disagreeing.keyBy = some b ∧ disagreeing.made b = some (cert', key) ∧ disagreeing.files
        (keyPath "/atv") = some key ∧
      (Sound twoIdentities "/atv" disagreeing.files ↔ a = b) := by
  obtain ⟨labels, hpath⟩ := disagreeing_path
  exact identities_agree_iff hpath disagreeing_returned

theorem concurrent_runs_disagree :
    ¬∀ (ι : Type) (_ : DecidableEq ι) (_ : Nonempty ι) (pem : PemLibrary) (dir : String)
    (labels : List (ι × Trace (System ByteWire))) (s : Store ι), Path
    (Step ByteWire pem dir) Store.start labels s →
      (∀ i, s.phase i = .returned) → Sound pem dir s.files := by
  intro h
  obtain ⟨labels, hpath⟩ := disagreeing_path
  have hsound := h Bool _ ⟨true⟩ twoIdentities "/atv" labels disagreeing hpath disagreeing_returned
  have hinv := hpath.invariant (fun _ _ _ h hstep => Inv.step h hstep) inv_start
  obtain ⟨a, b, _, _, _, _, ha, _, _, hb, _, _, hiff⟩ := hinv.sound_iff (disagreeing_returned false)
  cases ha
  cases hb
  exact absurd (hiff.mp hsound) (by decide)

end AtvRemote.ConcurrentIdentities
