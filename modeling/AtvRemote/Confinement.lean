import AtvRemote.ExitCodes

namespace AtvRemote.Confinement

open Programs Contracts Scripts Errors Messages SystemCalls Handshake Session SessionRules Pairing
  PairingSecrets Discovery Wake JsonTexts Output PingAnswers
  Footprints Main ProcessRuns ExitCodes
open Serialize

/-- Six bytes 0xff, then the address sixteen times. -/
def wakePacket (mac : Mac) : Bytes :=
  List.replicate 6 0xff ++ (List.replicate 16 mac.toList).flatten

def front (mac : Mac) (n : Nat) : Bytes :=
  List.replicate 6 0xff ++ (List.replicate n mac.toList).flatten

theorem length_front (mac : Mac) (n : Nat) : (front mac n).length = 6 + n * 6 := by
  simp [front]
  omega

theorem front_succ (mac : Mac) (n : Nat) : front mac (n + 1) = front mac n ++ mac.toList := by
  have hflatten : (List.replicate (n + 1) mac.toList).flatten =
      (List.replicate n mac.toList).flatten ++ mac.toList := by
    simp [List.replicate_succ', List.flatten_append]
  rw [front, hflatten, front, List.append_assoc]

/-- One round of the loop overwrites the first six bytes of those that are
left. -/
theorem copyMac_front (mac : Mac) (n rest : Nat) :
    copyMac mac (front mac n ++ List.replicate (6 + rest) 0xff) (6 + n * 6) = front mac (n + 1) ++
      List.replicate rest 0xff := by
  rw [copyMac, List.take_left' (length_front mac n), ← List.drop_drop, List.drop_left'
    (length_front mac n), List.drop_replicate,
    Nat.add_sub_cancel_left, front_succ]

theorem magicPacket_eq (mac : Mac) : magicPacket mac = wakePacket mac := by
  have hloop : ∀ n ≤ 16, (List.range n).foldl (fun pkt i => copyMac mac pkt (6 + i * 6))
      (List.replicate 102 0xff) =
      front mac n ++ List.replicate ((16 - n) * 6) 0xff := by
    intro n hn
    induction n with
    | zero => simp [front]
    | succ n ih =>
        have hrest : (16 - n) * 6 = 6 + (16 - (n + 1)) * 6 := by omega
        rw [List.range_succ, List.foldl_append, ih (by omega), hrest]
        exact copyMac_front mac n _
  rw [magicPacket, hloop 16 (Nat.le_refl 16)]
  exact List.append_nil _

/-- What a command may ask of its host. -/
def PermittedHost (command : Command) : HostOp → Prop
  | .connectTimeout addr _ => ∃ args, command.args = some args ∧ addr = ⟨args.host, command.port⟩
  | .clientConnection _ | .setReadTimeout _ _ | .setWriteTimeout _ _ | .setNodelay _ =>
      ∃ args, command.args = some args
  | .udpBind | .udpSetBroadcast => ∃ mac, task command = .session (.on (some mac))
  | .udpSendTo packet addr =>
      ∃ mac, task command = .session (.on (some mac)) ∧ packet = wakePacket mac ∧
      addr = broadcastAddr
  | .createDirAll _ | .writeFile _ _ | .createKeyFile _ | .writeKeyFile _ _ | .rsaPrivateKey _
  | .toPkcs8Der _
  | .keyPairFromPkcs8 _ | .selfSigned _ _ | .toPem _ _ | .peerCertificates _ | .readLine =>
      task command = .pair
  | .eprintln _ => False
  | _ => True

/-- What a command may do to its surroundings. -/
def Permitted (json : SerdeJson) (command : Command) : Event Surroundings → Prop
  | ⟨.system (.wire _ (.pairing _)), _⟩ => task command = .pair
  | ⟨.system (.wire _ (.session .recv)), _⟩ => ∃ session, task command = .session session
  | ⟨.system (.wire _ (.session (.send m))), _⟩ =>
      ∃ session, task command = .session session ∧
        ((∃ active k, reply active k = some m) ∨ ownMessages session m)
  | ⟨.system (.host o), _⟩ => PermittedHost command o
  | ⟨.browsing _, _⟩ => ∃ timeout, task command = .discover timeout
  | ⟨.writeln text, _⟩ => ∃ out : Result, text = json.toString (serialize out)
  | ⟨.flush, _⟩ => True
  | ⟨.eprintln text, _⟩ => (task command = .pair ∧ text = prompt) ∨ ∃ e, text = toJson json e

variable {lib : Library} {json : SerdeJson} {fuel : Nat} {command : Command}
  {t : Trace Surroundings}

theorem target_eq (h : ∀ timeout, task command ≠ .discover timeout) :
    ∃ args, command.args = some args ∧ target command = ⟨args.host, command.port⟩ := by
  cases command with
  | discover args => exact absurd rfl (h args.timeout)
  | pair args | status args | off args => exact ⟨args, rfl, rfl⟩
  | on args | key args | launch args => exact ⟨args.target, rfl, rfl⟩

theorem permitted_pairing {e : Event (System PairingWire)} (htask : task command = .pair)
    (h : Within (pairFootprint (target command)) e) : Permitted json command (embedPairing e) := by
  have hconnects : ∀ timeout, task command ≠ .discover timeout := by simp [htask]
  obtain ⟨args, hargs, htarget⟩ := target_eq hconnects
  obtain ⟨conn | o, x⟩ := e
  · exact htask
  · cases o with
    | connectTimeout addr timeout =>
        obtain rfl : addr = target command := h
        exact ⟨args, hargs, htarget⟩
    | udpBind | udpSetBroadcast => cases h
    | udpSendTo packet addr => cases h
    | clientConnection | setReadTimeout | setWriteTimeout | setNodelay => exact ⟨args, hargs⟩
    | eprintln text => exact .inl ⟨htask, h.2⟩
    | varOs | isFile | readFile | pemCerts | pemPrivateKey | safeDefaultProtocolVersions
    | clientAuthCert | sleep | now | timestamp =>
        trivial
    | _ => exact htask

theorem permitted_session {session : SessionCommand} {e : Event (System SessionWire)}
    (htask : task command = .session session)
    (h : Within (sessionFootprint (target command) session) e) :
    Permitted json command (embedSession e) := by
  have hconnects : ∀ timeout, task command ≠ .discover timeout := by simp [htask]
  obtain ⟨args, hargs, htarget⟩ := target_eq hconnects
  obtain ⟨⟨conn, _ | m⟩ | o, x⟩ := e
  · exact ⟨session, htask⟩
  · exact ⟨session, htask, h⟩
  · have hmac (mac : Mac) (hmem : mac ∈ (sessionFootprint (target command) session).mac) :
        task command = .session (.on (some mac)) := by
      cases session with
      | on given =>
          obtain rfl : given = some mac := hmem
          exact htask
      | _ => cases hmem
    cases o with
    | connectTimeout addr timeout =>
        obtain rfl : addr = target command := h
        exact ⟨args, hargs, htarget⟩
    | udpBind | udpSetBroadcast =>
        obtain ⟨mac, hmem⟩ := Option.isSome_iff_exists.mp h
        exact ⟨mac, hmac mac hmem⟩
    | udpSendTo packet addr =>
        obtain ⟨mac, hmem, heq⟩ := Option.map_eq_some_iff.mp h
        obtain ⟨rfl, rfl⟩ := Prod.mk.inj heq
        exact ⟨mac, hmac mac hmem, magicPacket_eq mac, rfl⟩
    | clientConnection | setReadTimeout | setWriteTimeout | setNodelay => exact ⟨args, hargs⟩
    | eprintln text => cases h.1
    | varOs | isFile | readFile | pemCerts | pemPrivateKey | safeDefaultProtocolVersions
    | clientAuthCert | sleep | now | timestamp =>
        trivial
    | _ => cases h

theorem permitted_of_worked {r : Except Stop Result} (h : Worked lib fuel command t r) :
    ∀ e ∈ t, Permitted json command e := by
  cases h with
  | pair htask hrun =>
      have hwithin := (pair_within (target command) fuel).ensures _ _ hrun
      exact List.forall_mem_map.mpr fun e he => permitted_pairing htask (hwithin e he)
  | unprompted closed htask hrun =>
      have hwithin := (pair_within (target command) fuel).ensures _ _ hrun
      refine List.forall_mem_append.mpr ⟨?_, List.forall_mem_singleton.mpr ?_⟩
      · exact List.forall_mem_map.mpr fun e he => permitted_pairing htask
          (hwithin e (List.mem_append_left _ he))
      · have hprompt := hwithin _ (List.mem_append_right _ List.mem_cons_self)
        exact .inl ⟨htask, hprompt.2⟩
  | session htask hrun =>
      have hwithin := (session_within (target command) _ fuel).ensures _ _ hrun
      exact List.forall_mem_map.mpr fun e he => permitted_session htask (hwithin e he)
  | discover htask hrun => exact List.forall_mem_map.mpr fun _ _ => ⟨_, htask⟩

/-- Whatever the television and the system answer, a command does nothing but
what it is for. -/
theorem command_confined {r : Except Stop Nat} (h : Run (main lib json fuel command) t r) :
    ∀ e ∈ t, Permitted json command e := by
  obtain ⟨u, v, q, rfl, hu, hending⟩ := run_main h
  refine List.forall_mem_append.mpr ⟨permitted_of_worked (run_work hu), ?_⟩
  cases hending with
  | printed out written flushed =>
      exact List.forall_mem_cons.mpr ⟨⟨out, rfl⟩, List.forall_mem_singleton.mpr trivial⟩
  | reported e | unreported e closed => exact List.forall_mem_singleton.mpr (.inr ⟨e, rfl⟩)
  | panicked text | unfinished => exact List.forall_mem_nil _

/-- The television sleeps deeply and stays unreachable, so that a packet is
sent to wake it. -/
theorem command_confined_on :
    let command : Command := .on ⟨⟨livingRoom, none⟩, some #v[0xe4, 0x3b, 0xc9, 0x97, 0x84, 0x77]⟩
    let played := boot {} (main paddedKeys compact 32 command)
    played.2.1 = .ok 3 ∧ ∀ e ∈ played.1, Permitted compact command e := by
  refine ⟨?_, command_confined (run_boot _ _)⟩
  decide +kernel

end AtvRemote.Confinement
