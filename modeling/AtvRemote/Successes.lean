import AtvRemote.Cooperation
import AtvRemote.ExitCodes
import AtvRemote.PairingAgreement

namespace AtvRemote.Successes

open Programs Contracts Scripts Errors Messages SystemCalls SessionRules Pairing PairingSecrets
  JsonTexts Output PingAnswers Main ProcessRuns ExitCodes
  Cooperation PairingAgreement
open Serialize

variable {lib : Library} {json : SerdeJson} {n fuel : Nat} {der : Bytes} {command : Command}
  {t : Trace Surroundings} {r : Except Stop Nat}

/-- A television that cooperates, as the process meets it with standard streams
that take what they are handed. -/
def Attends (n : Nat) (der : Bytes) (tv : Television) : Event Surroundings → Television → Prop
  | ⟨.system (.wire conn (.session w)), x⟩, tv' => Cooperates n der tv ⟨.wire conn w, x⟩ tv'
  | ⟨.system (.host o), x⟩, tv' => Cooperates n der tv ⟨.host o, x⟩ tv'
  | ⟨.writeln _, x⟩, tv' => x = .ok () ∧ tv' = tv
  | _, tv' => tv' = tv

theorem cooperates_of_attends {tv tv' : Television} {e : SessionEvent}
    (h : Attends n der tv (embedSession e) tv') :
    Cooperates n der tv e tv' := by
  obtain ⟨conn | o, x⟩ := e
  · exact h
  · cases o with
    | eprintln text => exact ⟨trivial, h⟩
    | _ => exact h

theorem printed_unmoved {tv tv' : Television} {v : Trace Surroundings} (hv : ∀ e ∈ v, Printed e)
    (h : Path (Attends n der) tv v tv') :
    tv' = tv := by
  refine h.unmoved fun e he tv tv' hstep => ?_
  obtain ⟨o, x⟩ := e
  have hprinted := hv _ he
  cases o with
  | system | browsing => exact hprinted.elim
  | writeln => exact hstep.2
  | flush | eprintln => exact hstep

theorem stderr_session {session : SessionCommand} (htask : task command = .session session)
    (h : Quiet command t) : stderr t = [] := by
  apply List.eq_nil_iff_forall_not_mem.mpr
  intro text hmem
  have hpair := (h.stderr text hmem).1
  rw [htask] at hpair
  cases hpair

/-- With a television that cooperates every command with a session does what it
is for, says so and exits with success. -/
theorem command_succeeds {session : SessionCommand} {tv tv' : Television}
    (htask : task command = .session session) (hfuel : 2 * n + 1 < fuel)
    (hrun : Run (main lib json fuel command) t r) (hpath : Path (Attends n der) tv t tv') :
    r = .ok 0 ∧ stderr t = [] ∧ ∃ out, stdout t = [json.toString (serialize (Result.session out))] ∧
      Succeeds (target command).ip session tv out tv' := by
  obtain ⟨u, v, q, rfl, hu, hending⟩ := run_main hrun
  obtain ⟨tv₁, hwork, hend⟩ := path_append.mp hpath
  obtain rfl := printed_unmoved (printed_of_ending hending) hend
  have hquiet := quiet_of_worked (run_work hu)
  cases run_work hu with
  | session htask' h =>
      obtain rfl : _ = session := Task.session.inj (htask'.symm.trans htask)
      have hpath := (path_map.mp hwork).mono fun _ _ _ => cooperates_of_attends
      obtain ⟨out, rfl, hsucceeds⟩ := session_cooperative hfuel _ _ _ h _ hpath
      cases hending with
      | printed _ written flushed =>
          obtain ⟨_, ⟨rfl, _⟩, _⟩ := path_cons.mp hend
          refine ⟨rfl, ?_, out, stdout_quiet hquiet, hsucceeds⟩
          rw [stderr_append, stderr_session htask hquiet]
          rfl
  | pair htask' | unprompted _ htask' | discover htask' => cases htask'.symm.trans htask

def announcement (power : Bool) : RemoteMessage := { remoteStart := some ⟨power⟩ }

theorem announces_announcement (power : Bool) : Announces 0 power [announcement power] :=
  ⟨[], announcement power, [], rfl, rfl, Nat.le_refl 0, List.forall_mem_nil _⟩

/-- A television that says no more than it has to. -/
def Television.answer : (o : ProcessOp) → Television → o.Answer × Television
  | .system (.wire _ (.session .recv)), ⟨power, m :: inbox, obeyed⟩ =>
      (.ok m, ⟨power, inbox, obeyed⟩)
  | .system (.wire _ (.session .recv)), ⟨power, [], obeyed⟩ =>
      (.error endOfStream, ⟨power, [], obeyed⟩)
  | .system (.wire _ (.session (.send m))), tv =>
      (.ok (), if acts m then
        { tv.obey m with inbox := tv.inbox ++ [announcement (tv.obey m).power] } else tv)
  | .system (.host (.connectTimeout _ _)), tv =>
      (.ok 4, { tv with inbox := [announcement tv.power] })
  | .system (.host o), tv => ((Script.hostAnswer o ({} : Script RemoteMessage)).1, tv)
  | .system (.wire _ (.pairing .recv)), tv => (.error endOfStream, tv)
  | .system (.wire _ (.pairing (.send _))), tv => (.ok (), tv)
  | .browsing o, tv => ((scripted (.browsing o) {}).1, tv)
  | .writeln _, tv | .flush, tv | .eprintln _, tv => (.ok (), tv)

theorem answer_attends (o : ProcessOp) (tv : Television) :
    Attends 0 [] tv ⟨o, (Television.answer o tv).1⟩ (Television.answer o tv).2 := by
  cases o with
  | system o =>
      cases o with
      | wire conn w =>
          cases w with
          | pairing w => cases w <;> rfl
          | session w =>
              cases w with
              | recv =>
                  obtain ⟨power, inbox, obeyed⟩ := tv
                  cases inbox with
                  | nil => exact fun _ _ h => by cases h
                  | cons m inbox =>
                      rintro _ _ ⟨rfl⟩
                      exact ⟨rfl, rfl⟩
              | send m =>
                  refine ⟨rfl, ?_⟩
                  change if acts m = true then _ else (if acts m = true then _ else tv) = tv
                  by_cases hacts : acts m = true
                  · simp only [hacts, if_true]
                    exact ⟨_, fun _ => announces_announcement _, if_pos hacts⟩
                  · simp [hacts]
      | host o =>
          cases o with
          | varOs name => exact ⟨fun _ => ⟨_, rfl, by decide⟩, rfl⟩
          | connectTimeout => exact ⟨⟨4, rfl⟩, _, announces_announcement _, rfl⟩
          | isFile => exact ⟨rfl, rfl⟩
          | readFile | pemCerts | pemPrivateKey => exact ⟨⟨_, rfl⟩, rfl⟩
          | _ => exact ⟨by trivial, rfl⟩
  | browsing o => cases o <;> rfl
  | writeln => exact ⟨rfl, rfl⟩
  | flush | eprintln => rfl

abbrev Television.meet (tv : Television) (command : Command) :
    Trace Surroundings × Except Stop Nat × Television :=
  (main paddedKeys compact 5 command).exec (S := Surroundings) Television.answer tv

/-- A television that is on is switched off. -/
theorem command_succeeds_off :
    let met := Television.meet { power := true } (.off ⟨livingRoom, none⟩)
    met.2.1 = .ok 0 ∧ stderr met.1 = [] ∧ ∃ out, stdout met.1 =
      [compact.toString (serialize (Result.session out))] ∧
      Succeeds livingRoom .off { power := true } out met.2.2 := by
  intro met
  have hpath : Path (Attends 0 []) { power := true } met.1 met.2.2 :=
    @path_exec _ _ _ _ _ (Attends 0 []) Television.answer id answer_attends _ _
  have htask : task (.off ⟨livingRoom, none⟩) = .session .off := rfl
  exact command_succeeds htask (by decide) (run_exec _ _ _) hpath

/-- The same for the television that the client is paired with. -/
def Shows (x : Encounter) (s : Scene) : Event Surroundings → Scene → Prop
  | ⟨.system (.wire conn (.pairing w)), y⟩, s' => x.Step s ⟨.wire conn w, y⟩ s'
  | ⟨.system (.host o), y⟩, s' => x.Step s ⟨.host o, y⟩ s'
  | ⟨.writeln _, y⟩, s' | ⟨.eprintln _, y⟩, s' => y = .ok () ∧ s' = s
  | _, s' => s' = s

variable {x : Encounter} {s s' : Scene}

theorem step_of_shows {e : Event (System PairingWire)} (h : Shows x s (embedPairing e) s') :
    x.Step s e s' := by
  obtain ⟨conn | o, y⟩ := e
  · exact h
  · cases o with
    | eprintln text => exact ⟨⟨trivial, trivial⟩, h.2⟩
    | _ => exact h

/-- How `pair` ends: both sides are paired, or neither is. -/
inductive Paired (json : SerdeJson) (host : IpAddr) (t : Trace Surroundings) :
    Except Stop Nat → Scene → Prop
  | paired {s' : Scene} (timestamp : String)
      (hout : stdout t = [json.toString (serialize (Result.pair ⟨timestamp, host.text, true⟩))])
      (htv : s'.paired = true) : Paired json host t (.ok 0) s'
  | unpaired {s' : Scene} (hout : offered t = []) (htv : s'.paired = false) :
      Paired json host t (.ok 5) s'

/-- With a television that follows the protocol, `pair` exits with success
exactly if the television has accepted the client, as it does if the user has
typed the code on its screen. -/
theorem pair_exits (htask : task command = .pair) (hfuel : 4 ≤ fuel) (hpaired : s.paired = false)
    (hrun : Run (main x.lib json fuel command) t r) (hpath : Path (Shows x) s t s') :
    Paired json (target command).ip t r s' ∧ (x.Told → r = .ok 0) := by
  obtain ⟨u, v, q, rfl, hu, hending⟩ := run_main hrun
  obtain ⟨s₁, hwork, hend⟩ := path_append.mp hpath
  have hquiet := quiet_of_worked (run_work hu)
  cases run_work hu with
  | @pair _ q htask' h =>
      have hpath := (path_map.mp hwork).mono fun _ _ _ => step_of_shows
      obtain ⟨hagreed, htold⟩ := pair_agreed hfuel hpaired _ _ h _ hpath
      rcases q with (e | text | _) | ⟨timestamp, host, paired⟩
      · obtain ⟨hkind, htv⟩ := hagreed
        have hnot : ¬x.Told := fun h => by obtain ⟨_, ⟨⟩⟩ := htold h
        have hcode : e.exitCode = 5 := by rw [AtvError.exitCode, hkind]
        cases hending with
        | reported =>
            obtain ⟨s₂, ⟨_, rfl⟩, hnil⟩ := path_cons.mp hend
            obtain rfl := path_nil.mp hnil
            rw [hcode]
            exact ⟨.unpaired (offered_quiet hquiet) htv, fun h => absurd h hnot⟩
        | unreported _ closed =>
            obtain ⟨s₂, ⟨hclosed, _⟩, _⟩ := path_cons.mp hend
            cases hclosed
      · exact hagreed.elim
      · exact hagreed.elim
      · obtain ⟨hhost, hpaired, htv⟩ := hagreed
        cases hending with
        | printed _ written flushed =>
            obtain ⟨s₂, ⟨rfl, rfl⟩, hflush⟩ := path_cons.mp hend
            obtain ⟨s₃, rfl, hnil⟩ := path_cons.mp hflush
            obtain rfl := path_nil.mp hnil
            obtain rfl : host = (target command).ip.text := hhost
            obtain rfl : paired = true := hpaired
            exact ⟨.paired timestamp (stdout_quiet hquiet) htv, fun _ => rfl⟩
  | unprompted closed htask' h =>
      obtain ⟨s₂, _, hprompt⟩ := path_append.mp hwork
      obtain ⟨s₃, ⟨hclosed, _⟩, _⟩ := path_cons.mp hprompt
      cases hclosed
  | session htask' | discover htask' => cases htask'.symm.trans htask

/-- The user types in capitals what the screen shows. -/
def typedCode : Encounter where
  lib := paddedKeys
  clientDer := [200]
  serverDer := [150, 3]
  nc := 200
  ec := 65537
  ns := 38403
  es := 65537
  nonce := [0xab, 0x1c]
  line := "00AB1C\n"
  client := ⟨[0, 200], _, rfl, by decide, by decide⟩
  server := ⟨[0, 150, 3], _, rfl, by decide, by decide⟩
  lowers _ _ := rfl

def Scene.send (s : Scene) (m : OuterMessage) : Scene := { s with inbox := s.inbox ++ [m] }

/-- The television's side of the protocol. -/
def Encounter.respond (x : Encounter) (s : Scene) (m : OuterMessage) : Scene :=
  if m.pairingRequest.isSome then Scene.send s { pairingRequestAck := some {} }
  else if m.options.isSome then Scene.send s { options := some {} }
  else if m.configuration.isSome then Scene.send s { configurationAck := some {} }
  else match m.secret with
    | some secret =>
        if secret.secret = x.digest.toList then Scene.send { s with paired := true }
          { secretAck := some {} }
        else Scene.send s { status := Status.badSecret.code }
    | none => s

theorem respond_responds (s : Scene) (m : OuterMessage) :
    x.Responds s m (Encounter.respond x s m) := by
  unfold Encounter.Responds Encounter.respond
  split
  · exact ⟨{ pairingRequestAck := some {} }, by decide, rfl⟩
  split
  · exact ⟨{ options := some {} }, by decide, rfl⟩
  split
  · exact ⟨{ configurationAck := some {} }, by decide, rfl⟩
  cases m.secret with
  | none => rfl
  | some secret =>
      by_cases hsecret : secret.secret = x.digest.toList
      · simp only [hsecret, if_true]
        exact ⟨{ secretAck := some {} }, by decide, rfl⟩
      · simp only [hsecret, if_false]
        exact ⟨{ status := Status.badSecret.code }, by decide, rfl⟩

def Scene.answer : (o : ProcessOp) → Scene → o.Answer × Scene
  | .system (.wire _ (.pairing .recv)), ⟨files, m :: inbox, paired⟩ =>
      (.ok m, ⟨files, inbox, paired⟩)
  | .system (.wire _ (.pairing .recv)), ⟨files, [], paired⟩ =>
      (.error endOfStream, ⟨files, [], paired⟩)
  | .system (.wire _ (.pairing (.send m))), s =>
      (.ok (), Encounter.respond typedCode s m)
  | .system (.host (.connectTimeout _ _)), s => (.ok 4, { s with inbox := [] })
  | .system (.host (.isFile path)), s => (s.files path, s)
  | .system (.host (.writeFile path _)), s | .system (.host (.writeKeyFile path _)), s =>
      (.ok (), { s with files := Function.update s.files path true })
  | .system (.host (.pemCerts _)), s => (.ok [typedCode.clientDer], s)
  | .system (.host (.peerCertificates _)), s => (some [typedCode.serverDer], s)
  | .system (.host .readLine), s => (.ok typedCode.line, s)
  | .system (.host o), s => ((Script.hostAnswer o ({} : Script RemoteMessage)).1, s)
  | .system (.wire _ (.session .recv)), s => (.error endOfStream, s)
  | .system (.wire _ (.session (.send _))), s => (.ok (), s)
  | .browsing o, s => ((scripted (.browsing o) {}).1, s)
  | .writeln _, s | .flush, s | .eprintln _, s => (.ok (), s)

theorem answer_shows (o : ProcessOp) (s : Scene) :
    Shows typedCode s ⟨o, (Scene.answer o s).1⟩ (Scene.answer o s).2 := by
  cases o with
  | system o =>
      cases o with
      | wire conn w =>
          cases w with
          | session w => cases w <;> rfl
          | pairing w =>
              cases w with
              | recv =>
                  obtain ⟨files, inbox, paired⟩ := s
                  cases inbox with
                  | nil => exact fun _ _ h => by cases h
                  | cons m inbox =>
                      rintro _ _ ⟨rfl⟩
                      exact ⟨rfl, rfl⟩
              | send m => exact ⟨rfl, respond_responds s m⟩
      | host o =>
          cases o with
          | varOs name => exact ⟨⟨fun _ => ⟨_, rfl, by decide⟩, trivial⟩, rfl⟩
          | connectTimeout => exact ⟨⟨4, rfl⟩, rfl⟩
          | isFile | writeFile | writeKeyFile | readLine => exact ⟨rfl, rfl⟩
          | peerCertificates => exact ⟨⟨_, rfl⟩, rfl⟩
          | readFile | pemCerts | pemPrivateKey => exact ⟨⟨⟨_, rfl⟩, trivial⟩, rfl⟩
          | rsaPrivateKey | toPkcs8Der | keyPairFromPkcs8 | selfSigned | toPem =>
              exact ⟨⟨trivial, ⟨_, rfl⟩⟩, rfl⟩
          | _ => exact ⟨⟨by trivial, by trivial⟩, rfl⟩
  | browsing o => cases o <;> rfl
  | flush => rfl
  | writeln | eprintln => exact ⟨rfl, rfl⟩

/-- A first pairing, with no identity on the disk. -/
theorem pair_exits_typedCode :
    let met :=
      (main paddedKeys compact 4 (.pair ⟨livingRoom, none⟩)).exec (S := Surroundings) Scene.answer
        { files := fun _ => false }
    typedCode.Told ∧ Paired compact livingRoom met.1 met.2.1 met.2.2 ∧
      (typedCode.Told → met.2.1 = .ok 0) := by
  intro met
  have hpath : Path (Shows typedCode) { files := fun _ => false } met.1 met.2.2 :=
    @path_exec _ _ _ _ _ (Shows typedCode) Scene.answer id answer_shows _ _
  have htask : task (.pair ⟨livingRoom, none⟩) = .pair := rfl
  have htold : typedCode.Told :=
    ⟨"00ab1c", "00AB1C", [], ['\n'], ⟨0x00, rfl, rfl⟩,
      rfl, by decide, List.forall_mem_singleton.mpr rfl⟩
  exact ⟨htold, pair_exits htask (by decide) rfl (run_exec _ _ _) hpath⟩

end AtvRemote.Successes
