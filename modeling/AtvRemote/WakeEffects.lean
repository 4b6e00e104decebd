import AtvRemote.PowerEffects
import AtvRemote.Scripts

namespace AtvRemote.WakeEffects

open Programs Contracts CommandRules CredentialRules Errors Messages SystemCalls Handshake Session
  Wake SessionRules
  PowerEffects Scripts

def packets (t : Trace (System SessionWire)) : List (Bytes × SocketAddr) :=
  t.filterMap fun e => match e with
    | ⟨.host (.udpSendTo packet addr), .ok _⟩ => some (packet, addr)
    | _ => none

theorem packets_append (u v : Trace (System SessionWire)) :
    packets (u ++ v) = packets u ++ packets v := List.filterMap_append

variable {fuel : Nat} {host : IpAddr} {port : UInt16} {wantOn : Bool} {mac : Option Mac}
  {t : Trace (System SessionWire)} {r : Except Stop PowerOutput}

theorem packets_powerEvents (h : ∀ e ∈ t, PowerEvent e) : packets t = [] := by
  apply List.filterMap_eq_nil_iff.mpr
  intro e he
  obtain ⟨o, x⟩ := e
  cases o with
  | wire => rfl
  | host o =>
      cases o with
      | udpSendTo packet addr => exact (h _ he).elim
      | _ => rfl

theorem setPower_packets (h : Run (setPower fuel host port wantOn) t r) : packets t = [] :=
  packets_powerEvents ((setPower_events fuel host port wantOn).ensures t r h)

def wakeAndSetPower (fuel : Nat) (host : IpAddr) (port : UInt16) (wantOn : Bool) (mac : Mac) :
    Command SessionWire PowerOutput := do
  sendMagicPacket mac
  waitForPort fuel host port wolWait
  let out ← setPower fuel host port wantOn
  pure { out with wol := some true }

theorem setPowerWithWake_cases (h : Run (setPowerWithWake fuel host port wantOn mac) t r) :
    Run (setPower fuel host port wantOn) t r ∨
      ∃ m e u v, mac = some m ∧ wantOn = true ∧ e.kind = .unreachable ∧ t = u ++ v ∧
        Run (setPower fuel host port wantOn) u (.error (.error e)) ∧
        Run (wakeAndSetPower fuel host port wantOn m) v r := by
  rcases run_bind.mp h with ⟨first, u, v, rfl, hu, hv⟩ | ⟨e, hu, rfl⟩
  · obtain ⟨q, hq, hfirst⟩ := run_resultOf.mp hu
    have hpass (hp : Run (propagate first : Command SessionWire PowerOutput) v r) :
        Run (setPower fuel host port wantOn) (u ++ v) r := by
      obtain ⟨rfl, rfl⟩ := (run_propagate hfirst.symm).mp hp
      rwa [List.append_nil]
    cases mac with
    | none => exact .inl (hpass hv)
    | some m =>
        cases first with
        | ok out => exact .inl (hpass hv)
        | error e =>
            dsimp only at hv
            split at hv
            next hwake =>
              obtain ⟨hon, hkind⟩ := Bool.and_eq_true_iff.mp hwake
              rcases q with (e' | _ | _) | out <;> cases hfirst
              exact .inr ⟨m, e, u, v, rfl, hon, of_decide_eq_true hkind, rfl, hq, hv⟩
            next => exact .inl (hpass hv)
  · obtain ⟨q, hq, he⟩ := run_resultOf.mp hu
    rcases q with (e' | _ | _) | out <;> cases he <;> exact .inl hq

theorem sendMagicPacket_ensures (m : Mac) : Ensures (sendMagicPacket m) (fun t r =>
    t.any keyWritten = false ∧
      (r = .ok () ∧ packets t = [(magicPacket m, broadcastAddr)] ∨ r ≠ .ok () ∧
        packets t = [])) := by
  refine ensures_call.mpr fun bound => ?_
  cases bound with
  | error e => exact ensures_fail.mpr ⟨rfl, .inr ⟨nofun, rfl⟩⟩
  | ok _ =>
      refine ensures_call.mpr fun broadcast => ?_
      cases broadcast with
      | error e => exact ensures_fail.mpr ⟨rfl, .inr ⟨nofun, rfl⟩⟩
      | ok _ =>
          refine ensures_call.mpr fun sent => ?_
          cases sent with
          | error e => exact ensures_fail.mpr ⟨rfl, .inr ⟨nofun, rfl⟩⟩
          | ok _ => exact ensures_ret.mpr ⟨rfl, .inl ⟨rfl, rfl⟩⟩

/-- An event of the wait for the session port. -/
def WaitEvent : SessionEvent → Prop
  | ⟨.host .now, _⟩ | ⟨.host (.connectTimeout _ _), _⟩ | ⟨.host (.sleep _), _⟩ => True
  | _ => False

theorem waitLoop_events (addr : SocketAddr) (deadline : Instant) (fuel : Nat) :
    Throughout WaitEvent (waitLoop addr deadline fuel) := by
  induction fuel with
  | zero => trivial
  | succ fuel ih =>
      refine throughout_request_bind.mpr fun now => ⟨trivial, ?_⟩
      split
      · refine throughout_request_bind.mpr fun x => ⟨trivial, ?_⟩
        cases x with
        | ok sock => trivial
        | error e => exact throughout_request_bind.mpr fun _ => ⟨trivial, ih⟩
      · trivial

theorem waitForPort_events (fuel : Nat) (host : IpAddr) (port : UInt16) (budget : Duration) :
    Throughout WaitEvent (waitForPort fuel host port budget) :=
  throughout_request_bind.mpr fun _ => ⟨trivial, waitLoop_events _ _ fuel⟩

theorem waitEvent_unseen {e : SessionEvent} (h : WaitEvent e) :
    keyWritten e = false ∧ PowerEvent e := by
  obtain ⟨o, x⟩ := e
  cases o with
  | wire => exact h.elim
  | host o =>
      cases o with
      | now | connectTimeout | sleep => exact ⟨rfl, trivial⟩
      | _ => exact h.elim

theorem waitForPort_ensures (budget : Duration) : Ensures (waitForPort fuel host port budget)
    (fun t _ => t.any keyWritten = false ∧ packets t = []) := by
  refine (waitForPort_events fuel host port budget).ensures.mono fun t r ht => ⟨?_, ?_⟩
  · exact List.any_eq_false.mpr fun e he => by simp [(waitEvent_unseen (ht e he)).1]
  · exact packets_powerEvents fun e he => (waitEvent_unseen (ht e he)).2

/-- Everything up to a certain event writes no key, nothing after it sends a
packet. -/
def PacketsFirst (t : Trace (System SessionWire)) : Prop :=
  ∃ u v, t = u ++ v ∧ u.any keyWritten = false ∧ packets v = []

theorem PacketsFirst.append {u v : Trace (System SessionWire)} (hu : u.any keyWritten = false)
    (hv : PacketsFirst v) : PacketsFirst (u ++ v) := by
  obtain ⟨w, z, rfl, hw, hz⟩ := hv
  refine ⟨u ++ w, z, (List.append_assoc _ _ _).symm, ?_, hz⟩
  rw [List.any_append, hu, hw, Bool.or_self]

theorem wakeAndSetPower_ensures (m : Mac) : Ensures (wakeAndSetPower fuel host port wantOn m)
    (fun t r => Accounted t r ∧ PacketsFirst t ∧
      (packets t = [(magicPacket m, broadcastAddr)] ∨ packets t = []) ∧
      ∀ out, r = .ok out → out.wol = some true ∧ packets t ≠ []) := by
  refine (sendMagicPacket_ensures m).bind ?_ ?_
  · rintro u _ ⟨hu, ⟨_, hp⟩ | ⟨h, _⟩⟩
    · refine (waitForPort_ensures wolWait).bind ?_ ?_
      · rintro v _ ⟨hv, hq⟩
        have huv : (u ++ v).any keyWritten = false := by rw [List.any_append, hu, hv, Bool.or_self]
        have hpq : packets (u ++ v) = [(magicPacket m, broadcastAddr)] := by
          rw [packets_append, hp, hq, List.append_nil]
        have hset : Ensures (setPower fuel host port wantOn)
            (fun t r => Accounted t r ∧ packets t = []) :=
          fun t r h => ⟨setPower_accounted h, setPower_packets h⟩
        refine hset.bind ?_ ?_
        · rintro w out ⟨hacc, hr⟩
          refine ensures_ret.mpr ?_
          rw [List.append_nil, ← List.append_assoc]
          have hpackets : packets (u ++ v ++ w) = [(magicPacket m, broadcastAddr)] := by
            rw [packets_append, hpq, hr, List.append_nil]
          refine ⟨Accounted.append huv ?_, ⟨u ++ v, w, rfl, huv, hr⟩, .inl hpackets, ?_⟩
          · have hchanged := accounted_ok.mp hacc
            exact accounted_ok.mpr hchanged
          · rintro _ ⟨rfl⟩
            exact ⟨rfl, by rw [hpackets]; exact List.cons_ne_nil _ _⟩
        · rintro w e ⟨hacc, hr⟩
          rw [← List.append_assoc]
          have hpackets : packets (u ++ v ++ w) = [(magicPacket m, broadcastAddr)] := by
            rw [packets_append, hpq, hr, List.append_nil]
          exact ⟨hacc.append huv, ⟨u ++ v, w, rfl, huv, hr⟩, .inl hpackets,
            fun out hout => by cases hout⟩
      · rintro v e ⟨hv, hq⟩
        have huv : (u ++ v).any keyWritten = false := by rw [List.any_append, hu, hv, Bool.or_self]
        refine ⟨⟨fun _ _ => huv, nofun⟩, ⟨u ++ v, [], by simp, huv, rfl⟩, .inl ?_, nofun⟩
        rw [packets_append, hp, hq, List.append_nil]
    · exact absurd rfl h
  · rintro u e ⟨hu, ⟨h, _⟩ | ⟨_, hp⟩⟩
    · cases h
    · exact ⟨⟨fun _ _ => hu, nofun⟩, ⟨u, [], by simp, hu, rfl⟩, .inr hp, nofun⟩

structure WakeDiscipline (fuel : Nat) (host : IpAddr) (port : UInt16) (wantOn : Bool)
    (mac : Option Mac) (t : Trace (System SessionWire)) (r : Except Stop PowerOutput) : Prop where
  once : (packets t).length ≤ 1
  justified : packets t ≠ [] → wantOn = true ∧ ∃ m e u v, mac = some m ∧ t = u ++ v ∧
    Run (setPower fuel host port wantOn) u (.error (.error e)) ∧ e.kind = .unreachable ∧
    packets u = [] ∧ packets v = [(magicPacket m, broadcastAddr)]
  beforeKeys : PacketsFirst t
  reported : ∀ out, r = .ok out → out.wol = if packets t = [] then none else some true

theorem setPower_wol {out : PowerOutput} (h : Run (setPower fuel host port wantOn) t (.ok out)) :
    out.wol = none := by
  rcases run_bind.mp h with ⟨attempt, u, v, rfl, _, hv⟩ | ⟨e, _, ⟨⟩⟩
  rcases run_bind.mp hv with ⟨last, v, w, rfl, _, hw⟩ | ⟨e, _, ⟨⟩⟩
  obtain ⟨text, z, rfl, hz⟩ := run_call.mp hw
  obtain ⟨rfl, ⟨⟩⟩ := run_ret.mp hz
  rfl

theorem setPowerWithWake_discipline (h : Run (setPowerWithWake fuel host port wantOn mac) t r) :
    Accounted t r ∧ WakeDiscipline fuel host port wantOn mac t r := by
  rcases setPowerWithWake_cases h with hset | ⟨m, e, u, v, rfl, hon, hkind, rfl, hu, hv⟩
  · have hp := setPower_packets hset
    refine ⟨setPower_accounted hset, ?_, fun hne => absurd hp hne, ⟨[], t, rfl, rfl, hp⟩, ?_⟩
    · rw [hp]
      exact Nat.zero_le 1
    · rintro out rfl
      rw [if_pos hp, setPower_wol hset]
  · obtain ⟨hacc, hfirst, hpackets, hout⟩ := wakeAndSetPower_ensures m v r hv
    have huk : u.any keyWritten = false := (setPower_accounted hu).error e rfl
    have hup : packets u = [] := setPower_packets hu
    have huv : packets (u ++ v) = packets v := by rw [packets_append, hup, List.nil_append]
    refine ⟨hacc.append huk, ?_, ?_, hfirst.append huk, ?_⟩
    · rw [huv]
      rcases hpackets with hp | hp <;> simp [hp]
    · intro hne
      rw [huv] at hne
      have hp := hpackets.resolve_right hne
      exact ⟨hon, m, e, u, v, rfl, rfl, hu, hkind, hup, hp⟩
    · intro out hr
      obtain ⟨hwol, hne⟩ := hout out hr
      rw [huv, if_neg hne, hwol]

/-- Effect accounting of `setPower` and of `setPowerWithWake`. -/
theorem power_effects_accounted (fuel : Nat) (host : IpAddr) (port : UInt16) (wantOn : Bool)
    (mac : Option Mac) (t : Trace (System SessionWire)) (r : Except Stop PowerOutput) :
    (Run (setPower fuel host port wantOn) t r → Accounted t r ∧ packets t = []) ∧
      (Run (setPowerWithWake fuel host port wantOn mac) t r →
        Accounted t r ∧ WakeDiscipline fuel host port wantOn mac t r) :=
  ⟨fun h => ⟨setPower_accounted h, setPower_packets h⟩, setPowerWithWake_discipline⟩

/-- A TV in deep standby: it refuses the first connection, comes up after the
packet and confirms the key. -/
def deepStandby : Script RemoteMessage :=
  { connects := [.error refused, .ok 1, .ok 2], inbox := [started false, started true] }

def deepStandbyMac : Mac := #v[0x20, 0x1f, 0x3b, 0x01, 0x02, 0x03]

theorem power_effects_deepStandby :
    let first := deepStandby.play (setPower 9 livingRoom 6466 true)
    let whole := deepStandby.play (setPowerWithWake 9 livingRoom 6466 true (some deepStandbyMac))
    (Accounted first.1 first.2.1 ∧ packets first.1 = []) ∧
      (Accounted whole.1 whole.2.1 ∧
        WakeDiscipline 9 livingRoom 6466 true (some deepStandbyMac) whole.1 whole.2.1) ∧
      whole.1.any keyWritten = true ∧ packets whole.1 =
        [(magicPacket deepStandbyMac, broadcastAddr)] := by
  refine ⟨?_, ?_, by rfl, by rfl⟩
  · exact (power_effects_accounted 9 livingRoom 6466 true none _ _).1 (deepStandby.run_play _)
  · exact (power_effects_accounted 9 livingRoom 6466 true _ _ _).2 (deepStandby.run_play _)

end AtvRemote.WakeEffects
