import AtvRemote.Ascii
import AtvRemote.CredentialStore
import AtvRemote.PairingSecrets
import AtvRemote.ProcessRuns
import Mathlib.Logic.Relation

namespace AtvRemote.Identities

open Programs Contracts CommandRules Scripts Ascii Errors Messages SystemCalls Credentials
  CredentialStore Handshake Session Pairing
  PairingSecrets PingAnswers Wake Footprints Output ProcessRuns
open Main (Surroundings)
open Discovery (discover DiscoverOutput Browsing)

/-- What stays the same on a machine from one process to the next. -/
structure Machine where
  pem : PemLibrary
  env : String → Option String
  certs : Bytes → Except String (List Bytes)
  privateKey : Bytes → Except String (Option Bytes)

abbrev Certified := List Bytes × Bytes

/-- The files of the machine, with the certificates and keys that processes
have handed to the TLS library so far. -/
structure Wallet where
  files : Files
  presented : List Certified

namespace Machine

variable (m : Machine)

def directory : Except AtvError String :=
  resolveCredentialDir (m.env "ATV_CONFIG_DIR") (m.env "XDG_CONFIG_HOME") (m.env "HOME")

/-- The answers that follow from the state of the machine. -/
def Answers (f : Files) : (o : HostOp) → o.Answer → Prop
  | .varOs name, value => value = m.env name
  | .readFile path, .ok bytes => ∃ text, f path = some text ∧ bytes = utf8 text
  | .pemCerts pem, parsed => parsed = m.certs pem
  | .pemPrivateKey pem, parsed => parsed = m.privateKey pem
  | _, _ => True

def record (w : Wallet) : HostOp → List Certified
  | .clientAuthCert certs key => w.presented ++ [(certs, key)]
  | _ => w.presented

def HostStep (w : Wallet) (o : HostOp) (x : o.Answer) (w' : Wallet) : Prop :=
  @DiskStep ByteWire m.pem w.files ⟨.host o, x⟩ w'.files ∧ m.Answers w.files o x ∧
    w'.presented = record w o

def Step {W : Signature} (w : Wallet) : Event (System W) → Wallet → Prop
  | ⟨.host o, x⟩, w' => m.HostStep w o x w'
  | ⟨.wire _ _, _⟩, w' => w' = w

def Carries (w : Wallet) : Event Surroundings → Wallet → Prop
  | ⟨.system (.host o), x⟩, w' => m.HostStep w o x w'
  | _, w' => w' = w

def notWritten : IoError := ⟨.other, "No space left on device (os error 28)"⟩

def notThere : IoError := ⟨.notFound, "No such file or directory (os error 2)"⟩

/-- A machine with a full disk, in reach of a television that is on. -/
def host : (o : HostOp) → Wallet → o.Answer × Wallet
  | .varOs name, w => (m.env name, w)
  | .isFile path, w => ((w.files path).isSome, w)
  | .readFile path, w => ((w.files path).elim (.error notThere) fun text => .ok (utf8 text), w)
  | .createDirAll _, w => (.ok (), w)
  | .writeFile _ _, w | .createKeyFile _, w => (.error notWritten, w)
  | .writeKeyFile path _, w =>
      (.error notWritten, { w with files := Function.update w.files path (some "") })
  | .rsaPrivateKey _, w | .toPkcs8Der _, w | .keyPairFromPkcs8 _, w => (.error "", w)
  | .selfSigned _ _, w | .toPem _ _, w => (.error "", w)
  | .pemCerts pem, w => (m.certs pem, w)
  | .pemPrivateKey pem, w => (m.privateKey pem, w)
  | .clientAuthCert certs key, w => (.ok (), { w with presented := w.presented ++ [(certs, key)] })
  | .safeDefaultProtocolVersions, w => (.ok (), w)
  | .connectTimeout _ _, w => (.ok 4, w)
  | .setReadTimeout _ _, w | .setWriteTimeout _ _, w | .setNodelay _, w => (.ok (), w)
  | .clientConnection _, w => (.ok (), w)
  | .peerCertificates _, w => (none, w)
  | .udpBind, w | .udpSetBroadcast, w | .udpSendTo _ _, w => (.ok (), w)
  | .sleep _, w | .eprintln _, w => ((), w)
  | .now, w => (0, w)
  | .timestamp, w => ("", w)
  | .readLine, w => (.ok "", w)

theorem host_step (w : Wallet) (o : HostOp) : m.HostStep w o (m.host o w).1 (m.host o w).2 := by
  obtain ⟨files, presented⟩ := w
  cases o with
  | isFile => exact ⟨⟨rfl, rfl⟩, trivial, rfl⟩
  | readFile path =>
      refine ⟨rfl, ?_, rfl⟩
      change m.Answers files (.readFile path)
        ((files path).elim (.error notThere) fun text => .ok (utf8 text))
      cases hfile : files path with
      | none => trivial
      | some text => exact ⟨text, hfile, rfl⟩
  | writeFile => exact ⟨.inl rfl, trivial, rfl⟩
  | writeKeyFile => exact ⟨⟨"", List.nil_prefix, rfl⟩, trivial, rfl⟩
  | _ => exact ⟨rfl, by trivial, rfl⟩

end Machine

variable {m : Machine} {W : Signature} {w w' : Wallet}

/-- An operation that neither writes a file nor hands over a certificate. -/
def Still : HostOp → Prop
  | .createDirAll _ | .writeFile _ _ | .createKeyFile _ | .writeKeyFile _ _ | .clientAuthCert _ _ =>
      False
  | _ => True

theorem wallet_eq (hfiles : w'.files = w.files) (hpresented : w'.presented = w.presented) :
    w' = w := by
  cases w
  cases w'
  cases hfiles
  cases hpresented
  rfl

theorem hostStep_still {o : HostOp} {x : o.Answer} (ho : Still o) (h : m.HostStep w o x w') :
    w' = w := by
  obtain ⟨hfiles, _, hpresented⟩ := h
  cases o with
  | createDirAll | writeFile | createKeyFile | writeKeyFile | clientAuthCert => exact ho.elim
  | isFile path => exact wallet_eq hfiles.2 hpresented
  | keyPairFromPkcs8 der | selfSigned name der =>
      cases x with
      | ok _ => exact wallet_eq hfiles.2 hpresented
      | error _ => exact wallet_eq hfiles hpresented
  | toPem label der =>
      cases x with
      | ok _ => exact wallet_eq hfiles.2.2 hpresented
      | error _ => exact wallet_eq hfiles hpresented
  | _ => exact wallet_eq hfiles hpresented

/-- The machine's own files show the certificate and the key. -/
def Shows (m : Machine) (f : Files) (c : Certified) : Prop :=
  ∃ dir cert key, m.directory = .ok dir ∧ f (certPath dir) = some cert ∧
    f (keyPath dir) = some key ∧
    m.certs (utf8 cert) = .ok c.1 ∧ m.privateKey (utf8 key) = .ok (some c.2)

theorem Shows.unique {f : Files} {c c' : Certified} (h : Shows m f c) (h' : Shows m f c') :
    c = c' := by
  obtain ⟨dir, cert, key, hdir, hcert, hkey, hcerts, hprivate⟩ := h
  obtain ⟨dir', cert', key', hdir', hcert', hkey', hcerts', hprivate'⟩ := h'
  obtain rfl : dir' = dir := Except.ok.inj (hdir'.symm.trans hdir)
  obtain rfl : cert' = cert := Option.some.inj (hcert'.symm.trans hcert)
  obtain rfl : key' = key := Option.some.inj (hkey'.symm.trans hkey)
  have hfirst : c.1 = c'.1 := Except.ok.inj (hcerts.symm.trans hcerts')
  have hsecond : c.2 = c'.2 := Option.some.inj (Except.ok.inj (hprivate.symm.trans hprivate'))
  exact Prod.ext hfirst hsecond

/-- Whatever was presented is what the files show. -/
def Single (m : Machine) (w : Wallet) : Prop := ∀ c ∈ w.presented, Shows m w.files c

section Single

variable {dir : String}

theorem keeps_ask {I : Wallet → Prop} {o : HostOp} {β : Type} {g : o.Answer → Command W β}
    (ho : Still o) (hw : I w)
    (hg : ∀ x, m.HostStep w o x w → Keeps m.Step I (g x) w) : Keeps m.Step I (ask o >>= g) w := by
  refine keeps_request_bind.mpr ⟨hw, fun x w' h => ?_⟩
  obtain rfl : w' = w := hostStep_still ho h
  exact hg x h

theorem bothFiles_keeps {I : Wallet → Prop} {cert key : String} {β : Type}
    {g : Bool → Command W β} (hw : I w)
    (hg : Keeps m.Step I (g ((w.files cert).isSome && (w.files key).isSome)) w) :
    Keeps m.Step I (bothFiles cert key >>= g) w := by
  change Keeps m.Step I
    (ask (.isFile cert) >>= fun hasCert => (if hasCert = true then ask (.isFile key)
    else pure false) >>= g) w
  refine keeps_ask trivial hw fun found h => ?_
  obtain rfl : found = (w.files cert).isSome := h.1.1
  cases hcert : (w.files cert).isSome with
  | false =>
      rw [hcert] at hg
      exact hg
  | true =>
      rw [hcert] at hg
      refine keeps_ask trivial hw fun found h => ?_
      obtain rfl : found = (w.files key).isSome := h.1.1
      exact hg

theorem fromCredentialDir_single (hdir : m.directory = .ok dir) (hw : Single m w) :
    Keeps m.Step (Single m) (TlsClient.fromCredentialDir dir : Command W TlsClient) w := by
  have hpaired : Keeps m.Step (Single m) (ensurePaired dir : Command W Unit) w := by
    apply bothFiles_keeps hw
    split <;> exact hw
  apply hpaired.bind
  intro _ w hw
  refine keeps_ask trivial hw fun certPem hcertPem => keeps_orRaise_bind hw ?_
  rintro certBytes rfl
  obtain ⟨_, ⟨cert, hcert, rfl⟩, _⟩ := hcertPem
  refine keeps_ask trivial hw fun keyPem hkeyPem => keeps_orRaise_bind hw ?_
  rintro keyBytes rfl
  obtain ⟨_, ⟨key, hkey, rfl⟩, _⟩ := hkeyPem
  refine keeps_ask trivial hw fun parsed hparsed => keeps_orRaise_bind hw ?_
  rintro certs rfl
  obtain ⟨_, hcerts, _⟩ := hparsed
  refine keeps_ask trivial hw fun found hfound => keeps_orRaise_bind hw ?_
  rintro privateKey rfl
  obtain ⟨_, hprivate, _⟩ := hfound
  apply keeps_okOrRaise_bind hw
  rintro secretKey rfl
  apply keeps_okOrRaise_bind hw
  intro clientCertDer _
  refine keeps_ask trivial hw fun versions _ => keeps_orRaise_bind hw ?_
  intro _ _
  refine keeps_request_bind.mpr ⟨hw, fun accepted w' h => ?_⟩
  obtain ⟨hfiles, _, hpresented⟩ := h
  have hshows : Shows m w.files (certs, secretKey) :=
    ⟨dir, cert, key, hdir, hcert, hkey, hcerts.symm, hprivate.symm⟩
  have hsingle : Single m w' := by
    have hsame : w'.files = w.files := hfiles
    intro c hc
    rw [hpresented] at hc
    rw [hsame]
    rcases List.mem_append.mp hc with hc | hc
    · exact hw c hc
    · rwa [List.mem_singleton.mp hc]
  exact keeps_orRaise_bind hsingle fun _ _ => hsingle

/-- What the creation of an identity may do. -/
def Creates (dir : String) : Event (System W) → Prop
  | ⟨.host (.writeFile path _), _⟩ => path = certPath dir
  | ⟨.host (.createKeyFile path), _⟩ | ⟨.host (.writeKeyFile path _), _⟩ => path = keyPath dir
  | ⟨.host (.clientAuthCert _ _), _⟩ | ⟨.wire _ _, _⟩ => False
  | _ => True

theorem ensureIdentity_creates :
    Throughout (Creates dir) (ensureIdentity dir : Command W Unit) := by
  have hfound :
      Throughout (Creates dir) (bothFiles (certPath dir) (keyPath dir) : Command W Bool) :=
    throughout_request_bind.mpr fun found =>
      ⟨trivial, by cases found <;> simp [ask, request, Creates]⟩
  have hgenerate : Throughout (Creates dir) (generateIdentity : Command W (String × String)) := by
    simp [generateIdentity, ask, request, Creates]
  have hkey (contents : String) :
      Throughout (Creates dir) (writeKeyFile (keyPath dir) contents : Command W Unit) := by
    simp [writeKeyFile, ask, request, Creates]
  apply hfound.bind
  intro found
  cases found with
  | true => trivial
  | false =>
      refine throughout_request_bind.mpr fun x =>
        ⟨trivial, throughout_orRaise_bind.mpr fun _ _ => ?_⟩
      apply hgenerate.bind
      rintro ⟨certPem, keyPem⟩
      exact throughout_request_bind.mpr fun y =>
        ⟨rfl, throughout_orRaise_bind.mpr fun _ _ => hkey _⟩

theorem update_elsewhere {f f' : Files} {path path' : String} {contents : Option String}
    (h : f' = Function.update f path' contents)
    (hne : path ≠ path') : f' path = f path := by
  rw [h, Function.update_of_ne hne]

theorem creates_step {e : Event (System W)} (he : Creates dir e) (h : m.Step w e w') :
    w'.presented = w.presented ∧
    ∀ path, path ≠ certPath dir → path ≠ keyPath dir → w'.files path = w.files path := by
  obtain ⟨o, x⟩ := e
  cases o with
  | wire => exact he.elim
  | host o =>
      obtain ⟨hfiles, hanswers, hpresented⟩ := id h
      cases o with
      | clientAuthCert => exact he.elim
      | writeFile path' contents =>
          obtain rfl : path' = certPath dir := he
          refine ⟨hpresented, fun path hcert hkey => ?_⟩
          cases x with
          | ok _ => exact update_elsewhere hfiles hcert
          | error _ =>
              rcases hfiles with hsame | ⟨written, _, hcut⟩
              · rw [hsame]
              · exact update_elsewhere hcut hcert
      | createKeyFile path' =>
          obtain rfl : path' = keyPath dir := he
          refine ⟨hpresented, fun path hcert hkey => ?_⟩
          cases x with
          | ok _ => exact update_elsewhere hfiles hkey
          | error _ => exact congrFun hfiles path
      | writeKeyFile path' contents =>
          obtain rfl : path' = keyPath dir := he
          refine ⟨hpresented, fun path hcert hkey => ?_⟩
          cases x with
          | ok _ => exact update_elsewhere hfiles hkey
          | error _ =>
              obtain ⟨written, _, hcut⟩ := hfiles
              exact update_elsewhere hcut hkey
      | createDirAll => exact ⟨hpresented, fun path _ _ => congrFun hfiles path⟩
      | _ =>
          obtain rfl : w' = w := hostStep_still (by trivial) h
          exact ⟨rfl, fun _ _ _ => rfl⟩

/-- Where a certificate was presented already, both files are there, so that
none is written. -/
theorem ensureIdentity_single (hdir : m.directory = .ok dir) (hw : Single m w) :
    Keeps m.Step (Single m) (ensureIdentity dir : Command W Unit) w := by
  cases hpresented : w.presented with
  | nil =>
      have hkeeps : Keeps m.Step (fun w => w.presented = [])
          (ensureIdentity dir : Command W Unit) w :=
        ensureIdentity_creates.keepsAll
          (fun _ _ _ hw he hstep => (creates_step he hstep).1.trans hw) hpresented
      apply hkeeps.mono
      intro w hw c hc
      rw [hw] at hc
      cases hc
  | cons c presented =>
      obtain ⟨dir', cert, key, hdir', hcert, hkey, _⟩ :=
        hw c (by rw [hpresented]; exact List.mem_cons_self)
      obtain rfl : dir' = dir := Except.ok.inj (hdir'.symm.trans hdir)
      apply bothFiles_keeps hw
      change Keeps m.Step (Single m)
        (if ((w.files (certPath dir')).isSome && (w.files (keyPath dir')).isSome) = true then _
        else _) w
      rw [hcert, hkey]
      exact hw

end Single

section Commands

variable {I : Wallet → Prop} {lib : Library} {fuel : Nat} {host : IpAddr} {port : UInt16}

theorem keeps_directory {β : Type} {g : String → Command W β} (hw : I w)
    (hg : ∀ dir, m.directory = .ok dir → Keeps m.Step I (g dir) w) :
    Keeps m.Step I (credentialDirFromEnv >>= g) w := by
  change Keeps m.Step I
    (ask (.varOs "ATV_CONFIG_DIR") >>= fun a => ask (.varOs "XDG_CONFIG_HOME") >>= fun b =>
    ask (.varOs "HOME") >>= fun c => orRaise (resolveCredentialDir a b c) id >>= g) w
  refine keeps_ask trivial hw fun a ha => keeps_ask trivial hw fun b hb =>
    keeps_ask trivial hw fun c hc => ?_
  obtain rfl : a = m.env "ATV_CONFIG_DIR" := ha.2.1
  obtain rfl : b = m.env "XDG_CONFIG_HOME" := hb.2.1
  obtain rfl : c = m.env "HOME" := hc.2.1
  exact keeps_orRaise_bind hw hg

/-- An operation that leaves the wallet as it is. -/
def Idle : SystemOp W.Op → Prop
  | .wire _ _ => True
  | .host o => Still o

theorem step_idle {o : SystemOp W.Op} {x : SystemOp.Answer W.Answer o} (ho : Idle o)
    (h : m.Step w ⟨o, x⟩ w') : w' = w := by
  cases o with
  | wire => exact h
  | host o => exact hostStep_still ho h

theorem closed_idle : Closed W (fun _ p => ∀ w, I w → Keeps m.Step I p w) Idle where
  pure := closed_keeps.pure
  fail := closed_keeps.fail
  request ho w hw := ⟨hw, fun _ _ hstep => by rwa [step_idle ho hstep]⟩
  bind := closed_keeps.bind
  attempt := closed_keeps.attempt

theorem connect_keeps (tls : TlsClient) (timeout : Duration) (hw : I w) :
    Keeps m.Step I (tls.connect host port timeout : Command W Conn) w := by
  have hidle : Throughout (fun e : Event (System W) => Idle e.1)
      (tls.connect host port timeout) := by
    simp [TlsClient.connect, ask, request, Idle, Still]
  refine hidle.keepsAll ?_ hw
  intro w e w' hw ho hstep
  rwa [step_idle ho hstep]

/-- A session command looks at the credentials only when it opens a session. -/
theorem session_keeps (hcredentials : ∀ dir w, m.directory = .ok dir → I w →
      Keeps m.Step I (TlsClient.fromCredentialDir dir : Command SessionWire TlsClient) w) (command :
    SessionCommand) (hw : I w) :
    Keeps m.Step I (command.run fuel host port) w := by
  have hopen : ∀ w, I w → Keeps m.Step I (openSession host port) w := by
    intro w hw
    refine keeps_directory hw fun dir hdir => (hcredentials dir w hdir hw).bind ?_
    intro tls w hw
    exact connect_keeps tls _ hw
  have hadmits : Admits (@Idle SessionWire) := by
    constructor
    all_goals intros; trivial
  refine session_closed closed_idle hadmits hopen (fun _ _ _ => trivial) ?_ fuel w hw
  intro mac _
  constructor
  all_goals intros; trivial

theorem pair_keeps (hidentity : ∀ dir w, m.directory = .ok dir → I w → Keeps m.Step I
      (ensureIdentity dir : Command PairingWire Unit) w)
    (hcredentials : ∀ dir w, m.directory = .ok dir → I w →
      Keeps m.Step I (TlsClient.fromCredentialDir dir : Command PairingWire TlsClient) w) (hw :
    I w) :
    Keeps m.Step I (pair lib fuel host port) w := by
  have hopen : ∀ w, I w → Keeps m.Step I (openPairing host port) w := by
    intro w hw
    refine keeps_directory hw fun dir hdir => (hidentity dir w hdir hw).bind fun _ w hw => ?_
    apply (hcredentials dir w hdir hw).bind
    intro tls w hw
    exact (connect_keeps tls _ hw).bind fun _ _ hw => hw
  refine pair_closed closed_idle ?_ hopen fuel w hw
  constructor
  all_goals intros; trivial

end Commands

section Processes

variable {I : Wallet → Prop} {lib : Library} {json : SerdeJson} {fuel : Nat}
  {command : Main.Command} {t : Trace Surroundings}

theorem hostStep_embedHost {o : HostOp} {x : o.Answer} (h : m.Carries w (embedHost o x) w') :
    m.HostStep w o x w' := by
  cases o with
  | eprintln text =>
      obtain rfl : w' = w := h
      exact ⟨rfl, trivial, rfl⟩
  | _ => exact h

theorem step_embedPairing {e : Event (System PairingWire)} (h : m.Carries w (embedPairing e) w') :
    m.Step w e w' := by
  obtain ⟨conn | o, x⟩ := e
  · exact h
  · exact hostStep_embedHost h

theorem step_embedSession {e : Event (System SessionWire)} (h : m.Carries w (embedSession e) w') :
    m.Step w e w' := by
  obtain ⟨conn | o, x⟩ := e
  · exact h
  · exact hostStep_embedHost h

theorem carries_printed {e : Event Surroundings} (he : Printed e) (h : m.Carries w e w') :
    w' = w := by
  obtain ⟨o, x⟩ := e
  cases o with
  | system | browsing => exact he.elim
  | writeln | flush | eprintln => exact h

/-- What the credential functions keep, a process keeps at every moment. -/
theorem process_keeps {cut : Trace Surroundings} {r : Except Stop Nat}
    (hidentity : ∀ dir w, m.directory = .ok dir → I w → Keeps m.Step I
      (ensureIdentity dir : Command PairingWire Unit) w)
    (hpairing : ∀ dir w, m.directory = .ok dir → I w →
      Keeps m.Step I (TlsClient.fromCredentialDir dir : Command PairingWire TlsClient) w)
    (hsession : ∀ dir w, m.directory = .ok dir → I w →
      Keeps m.Step I (TlsClient.fromCredentialDir dir : Command SessionWire TlsClient) w)
    (hrun : Run (Main.main lib json fuel command) (t ++ cut) r) (hpath : Path m.Carries w t w')
    (hw : I w) : I w' := by
  have hrest {printed : Trace Surroundings} {w₁ : Wallet} (hprinted : ∀ e ∈ printed, Printed e)
      (hpath : Path m.Carries w₁ printed w') (hw₁ : I w₁) : I w' := by
    rwa [hpath.unmoved fun e he _ _ => carries_printed (hprinted e he)]
  cases run_begun hrun with
  | pair htask h hprinted =>
      obtain ⟨w₁, hu, hv⟩ := path_append.mp hpath
      refine hrest hprinted hv ((pair_keeps hidentity hpairing hw).holds h ?_)
      exact (path_map.mp hu).mono fun _ _ _ => step_embedPairing
  | session htask h hprinted =>
      obtain ⟨w₁, hu, hv⟩ := path_append.mp hpath
      refine hrest hprinted hv ((session_keeps hsession _ hw).holds h ?_)
      exact (path_map.mp hu).mono fun _ _ _ => step_embedSession
  | discover htask h hprinted =>
      obtain ⟨w₁, hu, hv⟩ := path_append.mp hpath
      obtain rfl : w₁ = w := (path_map.mp hu).unmoved fun _ _ _ _ h => h
      exact hrest hprinted hv hw

/-- One process, from its start to its end or to a moment at which it is
killed. -/
def Processed (m : Machine) (w w' : Wallet) : Prop :=
  ∃ (lib : Library) (json : SerdeJson) (fuel : Nat) (command : Main.Command)
    (t cut : Trace Surroundings) (r : Except Stop Nat),
    Run (Main.main lib json fuel command) (t ++ cut) r ∧ Path m.Carries w t w'

theorem single_of_history (h : Relation.ReflTransGen (Processed m) w w') (hw : Single m w) :
    Single m w' := by
  induction h with
  | refl => exact hw
  | tail _ hprocess ih =>
      obtain ⟨lib, json, fuel, command, t, cut, r, hrun, hpath⟩ := hprocess
      refine process_keeps ?_ ?_ ?_ hrun hpath ih
      · exact fun dir w hdir hw => ensureIdentity_single hdir hw
      · exact fun dir w hdir hw => fromCredentialDir_single hdir hw
      · exact fun dir w hdir hw => fromCredentialDir_single hdir hw

/-- A machine shows televisions one identity only: no history of processes that
run one after another, failed or killed ones among them, presents two
certificates or two keys. -/
theorem one_identity {c c' : Certified} (h : Relation.ReflTransGen (Processed m) w w')
    (hw : w.presented = [])
    (hc : c ∈ w'.presented) (hc' : c' ∈ w'.presented) : c = c' := by
  have hstart : Single m w := by
    intro c hmem
    rw [hw] at hmem
    cases hmem
  have hsingle := single_of_history h hstart
  exact (hsingle c hc).unique (hsingle c' hc')

/-- A process on a machine with a full disk. No television announces itself. -/
def Machine.answer (m : Machine) : (o : Main.ProcessOp) → Wallet → o.Answer × Wallet
  | .system (.wire _ (.session .recv)), w => (started true, w)
  | .system (.wire _ (.pairing .recv)), w => (.error endOfStream, w)
  | .system (.wire _ (.session (.send _))), w | .system (.wire _ (.pairing (.send _))), w =>
      (.ok (), w)
  | .system (.host o), w => m.host o w
  | .browsing .serviceDaemon, w | .browsing (.browse _), w => (.ok (), w)
  | .browsing .now, w => (default, w)
  | .browsing (.recvTimeout _), w => (.error .timeout, w)
  | .browsing .shutdown, w => ((), w)
  | .browsing .timestamp, w => ("", w)
  | .writeln _, w | .flush, w | .eprintln _, w => (.ok (), w)

theorem Machine.answer_carries (o : Main.ProcessOp) (w : Wallet) :
    m.Carries w ⟨o, (m.answer o w).1⟩ (m.answer o w).2 := by
  cases o with
  | system o =>
      cases o with
      | wire conn o =>
          cases o with
          | pairing o | session o => cases o <;> rfl
      | host o => exact m.host_step w o
  | browsing o => cases o <;> rfl
  | writeln | flush | eprintln => rfl

abbrev Machine.boot (m : Machine) (w : Wallet) (command : Main.Command) :
    Trace Surroundings × Except Stop Nat × Wallet :=
  (Main.main paddedKeys compact 5 command).exec (S := Surroundings) m.answer w

theorem Machine.processed_boot (w : Wallet) (command : Main.Command) :
    Processed m w (m.boot w command).2.2 := by
  refine ⟨paddedKeys, compact, 5, command, (m.boot w command).1, [], (m.boot w command).2.1, ?_, ?_⟩
  · rw [List.append_nil]
    exact run_exec _ _ _
  · exact @path_exec _ _ _ _ _ m.Carries m.answer id m.answer_carries _ w

def paired : Machine where
  pem := twoIdentities
  env _ := some "/home/tv"
  certs pem := .ok [pem]
  privateKey pem := .ok (some pem)

def pairedWallet : Wallet := ⟨fun _ => some "certificate 1", []⟩

/-- Two processes, each of which presents the certificate. -/
theorem one_identity_status :
    let w₁ := (paired.boot pairedWallet (.status ⟨livingRoom, none⟩)).2.2
    let w₂ := (paired.boot w₁ (.off ⟨livingRoom, none⟩)).2.2
    ∃ c c', w₂.presented = [c, c'] ∧ c = c' := by
  intro w₁ w₂
  have hhistory : Relation.ReflTransGen (Processed paired) pairedWallet w₂ :=
    .tail (.single (Machine.processed_boot pairedWallet _)) (Machine.processed_boot w₁ _)
  have hpresented :
      w₂.presented = [([utf8 "certificate 1"], utf8 "certificate 1"),
      ([utf8 "certificate 1"], utf8 "certificate 1")] := rfl
  refine ⟨_, _, hpresented, one_identity hhistory rfl ?_ ?_⟩
  all_goals
    rw [hpresented]
    exact List.mem_cons_self

/-- The files are those of `w`, but for an identity where `w` has none. -/
def Kept (m : Machine) (w w' : Wallet) : Prop :=
  ∀ path, w'.files path ≠ w.files path →
    ∃ dir, m.directory = .ok dir ∧ (path = certPath dir ∨ path = keyPath dir) ∧ ¬Present dir w.files

/-- An event that writes no file. -/
def Reads : Event (System W) → Prop
  | ⟨.host (.createDirAll _), _⟩ | ⟨.host (.writeFile _ _), _⟩ | ⟨.host (.createKeyFile _), _⟩
  | ⟨.host (.writeKeyFile _ _), _⟩ => False
  | _ => True

theorem fromCredentialDir_reads (dir : String) :
    Throughout Reads (TlsClient.fromCredentialDir dir : Command W TlsClient) := by
  have hfound (cert key : String) : Throughout Reads (bothFiles cert key : Command W Bool) :=
    throughout_request_bind.mpr fun found =>
      ⟨trivial, by cases found <;> simp [ask, request, Reads]⟩
  have hpaired : Throughout Reads (ensurePaired dir : Command W Unit) :=
    (hfound _ _).bind fun found => by cases found <;> simp
  apply hpaired.bind
  intro _
  simp [ask, request, Reads]

theorem reads_step {e : Event (System W)} (he : Reads e) (h : m.Step w e w') :
    w'.files = w.files := by
  obtain ⟨o, x⟩ := e
  cases o with
  | wire =>
      obtain rfl : w' = w := h
      rfl
  | host o =>
      cases o with
      | createDirAll | writeFile | createKeyFile | writeKeyFile => exact he.elim
      | clientAuthCert => exact h.1
      | _ => rw [hostStep_still (by trivial) h]

theorem fromCredentialDir_kept {w₀ : Wallet} {dir : String} (hw : Kept m w₀ w) :
    Keeps m.Step (Kept m w₀) (TlsClient.fromCredentialDir dir : Command W TlsClient) w := by
  refine (fromCredentialDir_reads dir).keepsAll ?_ hw
  intro w e w' hw he hstep path hne
  rw [reads_step he hstep] at hne
  exact hw path hne

theorem ensureIdentity_kept {w₀ : Wallet} {dir : String} (hdir : m.directory = .ok dir)
    (hw : Kept m w₀ w) :
    Keeps m.Step (Kept m w₀) (ensureIdentity dir : Command W Unit) w := by
  by_cases hpresent : Present dir w₀.files
  · have hsame (path : String) : w.files path = w₀.files path := by
      by_contra hne
      obtain ⟨dir', hdir', _, hmissing⟩ := hw path hne
      obtain rfl : dir' = dir := Except.ok.inj (hdir'.symm.trans hdir)
      exact hmissing hpresent
    apply bothFiles_keeps hw
    change Keeps m.Step (Kept m w₀)
      (if ((w.files (certPath dir)).isSome && (w.files (keyPath dir)).isSome) = true then _
      else _) w
    rw [hsame, hsame, hpresent.1, hpresent.2]
    exact hw
  · refine ensureIdentity_creates.keepsAll ?_ hw
    intro w e w' hw he hstep path hne
    by_cases hcert : path = certPath dir
    · exact ⟨dir, hdir, .inl hcert, hpresent⟩
    · by_cases hkey : path = keyPath dir
      · exact ⟨dir, hdir, .inr hkey, hpresent⟩
      · rw [(creates_step he hstep).2 path hcert hkey] at hne
        exact hw path hne

/-- No history of processes that run one after another changes any file but the
two of the identity, nor these if both were there before it. -/
theorem store_kept (h : Relation.ReflTransGen (Processed m) w w') : Kept m w w' := by
  induction h with
  | refl => exact fun path hne => absurd rfl hne
  | tail _ hprocess ih =>
      obtain ⟨lib, json, fuel, command, t, cut, r, hrun, hpath⟩ := hprocess
      refine process_keeps ?_ ?_ ?_ hrun hpath ih
      · exact fun dir w hdir hw => ensureIdentity_kept hdir hw
      · exact fun dir w _ hw => fromCredentialDir_kept hw
      · exact fun dir w _ hw => fromCredentialDir_kept hw

theorem store_kept_status :
    let w' := (paired.boot pairedWallet (.status ⟨livingRoom, none⟩)).2.2
    w'.presented.length = 1 ∧ Kept paired pairedWallet w' :=
  ⟨rfl, store_kept (.single (Machine.processed_boot _ _))⟩

end Processes

end AtvRemote.Identities
