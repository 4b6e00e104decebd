import AtvRemote.CommandRules
import AtvRemote.Session

namespace AtvRemote.Readiness

open Programs Contracts CommandRules Errors Messages SystemCalls Credentials Session

variable {W : Signature} {σ : Type}

/-- The answers of a host that can read an identity with this certificate. -/
def Ready (der : Bytes) : (o : HostOp) → o.Answer → Prop
  | .varOs name, value => name = "HOME" → ∃ home, value = some home ∧ home.isEmpty = false
  | .readFile _, x => ∃ bytes, x = .ok bytes
  | .pemCerts _, x => ∃ certs, x = .ok (der :: certs)
  | .pemPrivateKey _, x => ∃ key, x = .ok (some key)
  | .safeDefaultProtocolVersions, x | .clientAuthCert _ _, x | .setReadTimeout _ _,
      x | .setWriteTimeout _ _, x
  | .clientConnection _, x => x = .ok ()
  | _, _ => True

/-- What is asked of the host to open a connection, but for the connection
itself and the files that are looked up. -/
def Opens : HostOp → Prop
  | .varOs _ | .readFile _ | .pemCerts _ | .pemPrivateKey _ | .safeDefaultProtocolVersions
  | .clientAuthCert _ _
  | .setReadTimeout _ _ | .setWriteTimeout _ _ | .setNodelay _ | .clientConnection _ => True
  | _ => False

/-- Surroundings in which the host is ready and stays as it is. -/
def Steady (der : Bytes) (step : σ → Event (System W) → σ → Prop) : Prop :=
  ∀ s o x s', Opens o → step s ⟨.host o, x⟩ s' → Ready der o x ∧ s' = s

variable {der : Bytes} {step : σ → Event (System W) → σ → Prop} {s : σ} {β : Type}
  {R : Except Stop β → σ → Prop}

theorem meets_opens (hsteady : Steady der step) {o : HostOp} (ho : Opens o)
    {g : o.Answer → Command W β}
    (h : ∀ x, Ready der o x → Meets step (g x) s R) : Meets step (ask o >>= g) s R := by
  refine meets_request_bind.mpr ?_
  intro x s' hstep
  obtain ⟨hready, rfl⟩ := hsteady s o x s' ho hstep
  exact h x hready

/-- Done, with nothing changed. -/
def Done {α : Type} (s : σ) (r : Except Stop α) (s' : σ) : Prop := s' = s ∧ ∃ a, r = .ok a

theorem Done.bind {α : Type} {p : Command W α} {f : α → Command W β} (hp : Meets step p s (Done s))
    (hf : ∀ a, Meets step (f a) s R) : Meets step (p >>= f) s R := by
  refine Meets.bind hp ?_ ?_
  · rintro a s' ⟨rfl, _⟩
    exact hf a
  · rintro e s' ⟨_, a, ⟨⟩⟩

theorem credentialDirFromEnv_done (hsteady : Steady der step) :
    Meets step (credentialDirFromEnv : Command W String) s (Done s) := by
  refine meets_opens hsteady (by trivial) ?_
  intro atvConfigDir _
  refine meets_opens hsteady (by trivial) ?_
  intro xdgConfigHome _
  refine meets_opens hsteady (by trivial) ?_
  intro home hhome
  obtain ⟨home, rfl, hset⟩ := hhome rfl
  have hresolved : ∃ dir, resolveCredentialDir atvConfigDir xdgConfigHome
      (some home) = .ok dir := by
    simp only [resolveCredentialDir, Option.filter_some, hset, Bool.not_false, if_true]
    cases atvConfigDir.filter (fun s => !s.isEmpty) with
    | some dir => exact ⟨dir, rfl⟩
    | none => cases xdgConfigHome.filter (fun s => !s.isEmpty) <;> exact ⟨_, rfl⟩
  obtain ⟨dir, hdir⟩ := hresolved
  rw [hdir]
  exact meets_pure.mpr ⟨rfl, dir, rfl⟩

/-- A file is there. -/
def Found (step : σ → Event (System W) → σ → Prop) (s : σ) (path : String) : Prop :=
  ∀ x s', step s ⟨.host (.isFile path), x⟩ s' → x = true ∧ s' = s

theorem meets_found {path : String} {g : Bool → Command W β} (h : Found step s path)
    (hg : Meets step (g true) s R) :
    Meets step (ask (.isFile path) >>= g) s R := by
  refine meets_request_bind.mpr ?_
  intro x s' hstep
  obtain ⟨rfl, rfl⟩ := h x s' hstep
  exact hg

theorem bothFiles_done {cert key : String} (hcert : Found step s cert) (hkey : Found step s key)
    {g : Bool → Command W β}
    (hg : Meets step (g true) s R) : Meets step (bothFiles cert key >>= g) s R := by
  change Meets step (ask (.isFile cert) >>= fun found : Bool => (if found then ask (.isFile key)
    else pure false) >>= g) s R
  exact meets_found hcert (meets_found hkey hg)

theorem fromCredentialDir_done {dir : String} (hsteady : Steady der step)
    (hcert : Found step s (join dir "cert.pem"))
    (hkey : Found step s (join dir "key.pem")) :
    Meets step (TlsClient.fromCredentialDir dir : Command W TlsClient) s
      (fun r s' => s' = s ∧ ∃ tls, r = .ok tls ∧ tls.clientCertDer = der) := by
  have hpaired : Meets step (ensurePaired dir : Command W Unit) s (Done s) :=
    bothFiles_done hcert hkey (meets_pure.mpr ⟨rfl, (), rfl⟩)
  refine Done.bind hpaired ?_
  intro _
  refine meets_opens hsteady (by trivial) ?_
  rintro _ ⟨certPem, rfl⟩
  refine meets_opens hsteady (by trivial) ?_
  rintro _ ⟨keyPem, rfl⟩
  refine meets_opens hsteady (by trivial) ?_
  rintro _ ⟨certs, rfl⟩
  refine meets_opens hsteady (by trivial) ?_
  rintro _ ⟨key, rfl⟩
  refine meets_opens hsteady (by trivial) ?_
  rintro _ rfl
  refine meets_opens hsteady (by trivial) ?_
  rintro _ rfl
  exact meets_pure.mpr ⟨rfl, _, rfl, rfl⟩

/-- A connection is opened if the port accepts it. -/
theorem connect_done (hsteady : Steady der step) (tls : TlsClient) (host : IpAddr) (port : UInt16)
    (timeout : Duration) {Q : σ → Prop}
    (haccepts : ∀ x s', step s ⟨.host (.connectTimeout ⟨host, port⟩ timeout), x⟩ s' →
      (∃ sock, x = .ok sock) ∧ Q s') :
    Meets step (tls.connect host port timeout : Command W Conn) s
      (fun r s' => Q s' ∧ ∃ conn, r = .ok conn) := by
  refine meets_request_bind.mpr ?_
  intro x s' hstep
  obtain ⟨⟨sock, rfl⟩, hs'⟩ := haccepts x s' hstep
  refine meets_opens hsteady (by trivial) ?_
  rintro _ rfl
  refine meets_opens hsteady (by trivial) ?_
  rintro _ rfl
  refine meets_opens hsteady (by trivial) ?_
  intro _ _
  refine meets_opens hsteady (by trivial) ?_
  rintro _ rfl
  exact meets_pure.mpr ⟨hs', _, rfl⟩

end AtvRemote.Readiness
