import AtvRemote.Credentials
import AtvRemote.CommandRules

namespace AtvRemote.CredentialRules

open Programs Contracts CommandRules Errors Messages SystemCalls Credentials

variable {W : Signature}

def OnHost : Event (System W) → Prop
  | ⟨.wire _ _, _⟩ => False
  | ⟨.host _, _⟩ => True

/-- An event that neither reaches the network nor takes time. -/
def Local : Event (System W) → Prop
  | ⟨.wire _ _, _⟩ | ⟨.host (.connectTimeout _ _), _⟩ => False
  | ⟨.host (.udpSendTo _ _), _⟩ | ⟨.host (.sleep _), _⟩ => False
  | _ => True

theorem onHost_of_local {e : Event (System W)} (h : Local e) : OnHost e := by
  obtain ⟨o, x⟩ := e
  cases o with
  | wire => exact h.elim
  | host => trivial

theorem bothFiles_local (cert key : String) :
    Throughout Local (bothFiles cert key : Command W Bool) :=
  throughout_request_bind.mpr fun found => ⟨trivial, by cases found <;> simp [ask, request, Local]⟩

theorem credentialDirFromEnv_local :
    Throughout Local (credentialDirFromEnv : Command W String) := by
  simp [credentialDirFromEnv, ask, request, Local]

theorem fromCredentialDir_local (dir : String) :
    Throughout Local (TlsClient.fromCredentialDir dir : Command W TlsClient) := by
  have hpaired : Throughout Local (ensurePaired dir : Command W Unit) :=
    (bothFiles_local _ _).bind fun found => by cases found <;> simp
  apply hpaired.bind
  intro _
  simp [ask, request, Local]

theorem ensureIdentity_local (dir : String) :
    Throughout Local (ensureIdentity dir : Command W Unit) := by
  have hgenerate : Throughout Local (generateIdentity : Command W (String × String)) := by
    simp [generateIdentity, ask, request, Local]
  have hkey (path contents : String) :
      Throughout Local (writeKeyFile path contents : Command W Unit) := by
    simp [writeKeyFile, ask, request, Local]
  apply (bothFiles_local _ _).bind
  intro found
  cases found with
  | true => trivial
  | false =>
      refine throughout_request_bind.mpr fun x =>
        ⟨trivial, throughout_orRaise_bind.mpr fun _ _ => ?_⟩
      refine hgenerate.bind fun ⟨certPem, keyPem⟩ => ?_
      refine throughout_request_bind.mpr fun y =>
        ⟨trivial, throughout_orRaise_bind.mpr fun _ _ => ?_⟩
      exact hkey _ _

theorem connect_onHost (tls : TlsClient) (host : IpAddr) (port : UInt16) (timeout : Duration) :
    Throughout OnHost (tls.connect host port timeout : Command W Conn) := by
  simp [TlsClient.connect, ask, request, OnHost]

end AtvRemote.CredentialRules
