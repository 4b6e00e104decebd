import AtvRemote.Scripts
import AtvRemote.SessionRules
import AtvRemote.Wake

namespace AtvRemote.WakeWait

open Programs Contracts CommandRules Errors Messages SystemCalls Session SessionRules Wake Scripts

/-- How the time moves. Whatever the client does takes up to `slack` more than
it asked for, a pause never takes less, and who connects once the port has been
opened is accepted. -/
def Tick (slack opened c : Nat) : SessionEvent → Nat → Prop
  | ⟨.host .now, x⟩, c' => c ≤ x ∧ c' ≥ x ∧ c' ≤ c + slack
  | ⟨.host (.connectTimeout _ timeout), x⟩, c' =>
      c ≤ c' ∧ c' ≤ c + timeout + slack ∧ (opened ≤ c → ∃ sock, x = .ok sock)
  | ⟨.host (.sleep d), _⟩, c' => c + d ≤ c' ∧ c' ≤ c + d + slack
  | _, c' => c ≤ c'

/-- The time before a round of the wait. Unless it is the first one, the
previous round came too early for the port. -/
structure Waiting (slack opened start deadline rounds c : Nat) : Prop where
  late : c < deadline + fromMillis 1500 + 3 * slack
  early : c ≤ max start opened + fromMillis 1500 + 2 * slack
  rounds : start + rounds * fromMillis 500 ≤ c

/-- How the wait may end, and when. -/
def Ends (slack opened start budget : Nat) (addr : SocketAddr) (fuel : Nat) (r : Except Stop Unit)
    (finish : Nat) : Prop :=
  finish < start + budget + fromMillis 1500 + 5 * slack ∧
    match r with
    | .ok _ => finish ≤ max start opened + fromMillis 2500 + 4 * slack
    | .error (.error e) =>
        e = stillUnreachable addr ∧ start + budget ≤ finish ∧ start + budget ≤ max start opened +
          fromMillis 1500 + 3 * slack
    | .error (.panic _) => False
    | .error .unfinished => fuel * fromMillis 500 < budget + fromMillis 1500 + 4 * slack

variable {slack opened start budget deadline rounds c : Nat} {addr : SocketAddr} {host : IpAddr}
  {port : UInt16} {fuel : Nat}

theorem round_time (c : Nat) : c + fromMillis 1500 = c + fromSecs 1 + fromMillis 500 := by
  simp [fromMillis, fromSecs, Nat.add_assoc]

theorem last_round_time (c : Nat) : c + fromMillis 2500 = c + fromMillis 1500 + fromSecs 1 := by
  simp [fromMillis, fromSecs, Nat.add_assoc]

/-- A refused attempt was made before the port was opened, and the next round
begins at most a second and a half after it. -/
theorem Waiting.next {c₁ c₂ c₃ : Nat} (h : Waiting slack opened start deadline rounds c)
    (hnow : c ≤ c₁ ∧ c₁ ≤ c + slack)
    (hlt : c < deadline) (hrefused : c₁ < opened) (hprobe : c₁ ≤ c₂ ∧ c₂ ≤ c₁ + fromSecs 1 + slack)
    (hslept : c₂ + fromMillis 500 ≤ c₃ ∧ c₃ ≤ c₂ + fromMillis 500 + slack) :
    Waiting slack opened start deadline (rounds + 1) c₃ := by
  obtain ⟨_, _, hrounds⟩ := h
  have hround := round_time 0
  constructor
  · omega
  · omega
  · rw [Nat.add_mul, Nat.one_mul]
    omega

theorem waitLoop_ends (hdeadline : start + budget ≤ deadline ∧ deadline ≤ start + budget + slack) :
    ∀ {rounds c : Nat}, Waiting slack opened start deadline rounds c →
      Meets (Tick slack opened) (waitLoop addr deadline fuel) c
        (Ends slack opened start budget addr (rounds + fuel)) := by
  induction fuel with
  | zero =>
      rintro rounds c ⟨hlate, _, hrounds⟩
      refine meets_fail.mpr ⟨by omega, ?_⟩
      have hspent : (rounds + 0) * fromMillis 500 < budget + fromMillis 1500 + 4 * slack := by
        rw [Nat.add_zero]; omega
      exact hspent
  | succ fuel ih =>
      intro rounds c h
      refine meets_request_bind.mpr ?_
      rintro x c₁ ⟨hread, hreached, hnow⟩
      split
      next hlt =>
        have hlt : @LT.lt Nat _ x deadline := hlt
        refine meets_request_bind.mpr ?_
        rintro answer c₂ ⟨hle, hprobe, haccepts⟩
        cases answer with
        | ok sock =>
            obtain ⟨_, hearly, _⟩ := h
            have hround := round_time 0
            have hlast := last_round_time 0
            exact meets_pure.mpr ⟨by omega, by omega⟩
        | error e =>
            refine meets_request_bind.mpr ?_
            rintro _ c₃ hslept
            have hrefused : c₁ < opened := by
              by_contra hopen
              obtain ⟨sock, hok⟩ := haccepts (not_lt.mp hopen)
              cases hok
            have hnext := h.next ⟨hread.trans hreached, hnow⟩ (lt_of_le_of_lt hread hlt) hrefused
              ⟨hle, hprobe⟩ hslept
            have hends := ih hnext
            rwa [Nat.add_right_comm] at hends
      next hpassed =>
        obtain ⟨hlate, hearly, _⟩ := h
        have hpassed : @LE.le Nat _ deadline x := Nat.not_lt.mp hpassed
        exact meets_raise.mpr ⟨by omega, rfl, by omega, by omega⟩

/-- A budget that does not carry the clock past its end is kept. -/
theorem waitForPort_meets : Meets (Tick slack opened) (waitForPort fuel host port budget) start
    (Ends slack opened start budget ⟨host, port⟩ fuel) := by
  refine meets_request_bind.mpr ?_
  rintro x c ⟨hread, hreached, hnow⟩
  have hround := round_time 0
  have hsecond : @LT.lt Nat _ 0 (fromSecs 1) := by decide
  have hwaiting : Waiting slack opened start (x + budget) 0 c := ⟨by omega, by omega, by omega⟩
  have hends := @waitLoop_ends slack opened start budget (x + budget) ⟨host, port⟩ fuel
    ⟨by omega, by omega⟩ 0 c hwaiting
  rwa [Nat.zero_add] at hends

/-- The wait for a port that is to be woken ends within a second and a half of
its budget. It finds a port that is opened in time within two and a half seconds
of that, and gives up no sooner than after its budget. -/
theorem waitForPort_ends {t : Trace (System SessionWire)} {r : Except Stop Unit} {finish : Nat}
    (hrun : Run (waitForPort fuel host port wolWait) t r)
    (hpath : Path (Tick slack opened) start t finish) :
    Ends slack opened start wolWait ⟨host, port⟩ fuel r finish :=
  waitForPort_meets t r hrun finish hpath

def refusedOnce : Script RemoteMessage := { connects := [.error refused, .ok 4] }

theorem waitForPort_ends_refusedOnce :
    Ends 0 1 0 wolWait ⟨livingRoom, 6466⟩ 3
      (refusedOnce.play (waitForPort 3 livingRoom 6466 wolWait)).2.1 (fromMillis 500) := by
  apply waitForPort_ends (refusedOnce.run_play (waitForPort 3 livingRoom 6466 wolWait))
  refine path_cons.mpr ⟨0, ⟨by decide, by decide, by decide⟩, ?_⟩
  refine path_cons.mpr ⟨0, ⟨by decide, by decide, by decide⟩, ?_⟩
  refine path_cons.mpr ⟨0, ⟨by decide, by decide, fun hopen => absurd hopen (by decide)⟩, ?_⟩
  refine path_cons.mpr ⟨fromMillis 500, ⟨by decide, by decide⟩, ?_⟩
  refine path_cons.mpr ⟨fromMillis 500, ⟨by decide, by decide, by decide⟩, ?_⟩
  refine path_cons.mpr ⟨fromMillis 500, ⟨by decide, by decide, fun _ => ⟨4, rfl⟩⟩, ?_⟩
  exact path_nil.mpr rfl

end AtvRemote.WakeWait
