import AtvRemote.Discovery

namespace AtvRemote.DiscoveryRules

open Programs Errors Clocks Discovery

def keep (devices : Devices) : ServiceEvent → Devices
  | .serviceResolved info =>
      match deviceOf info with
      | none => devices
      | some device => devices.insert device.key device
  | .other => devices

variable {deadline clock : Instant} {fuel : Nat} {devices : Devices} {secs : UInt64}
  {t : Trace Browsing}

theorem run_ask_bind {α : Type} {o : BrowseOp} {f : o.Answer → Program Browsing Stop α}
    {r : Except Stop α} :
    Run (ask o >>= f) t r ↔ ∃ x u, t = ⟨o, x⟩ :: u ∧ Run (f x) u r := run_call

theorem remaining_none : (deadline.checkedDurationSince clock).filter (fun d => !d.isZero) = none ↔
      deadline.toNanos ≤ clock.toNanos := by
  cases h : deadline.checkedDurationSince clock with
  | none =>
      have hlt := checkedDurationSince_none.mp h
      simp only [Option.filter_none, true_iff]
      omega
  | some d =>
      have hd := toNanos_checkedDurationSince h
      rw [Option.filter_eq_none_iff]
      constructor
      · intro hzero
        have hzero := isZero_iff.mp (by simpa using hzero d rfl)
        omega
      · rintro hle _ ⟨⟩
        have hzero : d.isZero = true := isZero_iff.mpr (by omega)
        simp [hzero]

theorem remaining_some {remaining : Duration}
    (h : (deadline.checkedDurationSince clock).filter (fun d => !d.isZero) = some remaining) :
    0 < remaining.toNanos ∧ (remaining.toNanos : Int) = deadline.toNanos - clock.toNanos := by
  obtain ⟨hsome, hzero⟩ := Option.filter_eq_some_iff.mp h
  refine ⟨Nat.pos_of_ne_zero ?_, toNanos_checkedDurationSince hsome⟩
  intro heq
  rw [isZero_iff.mpr heq] at hzero
  cases hzero

/-- One round of the loop: the deadline has passed, or it waits for an event
for the time that is left. -/
inductive Round (deadline : Instant) (fuel : Nat) (devices : Devices) :
    Trace Browsing → Except Stop Devices → Prop
  | passed {clock : Instant} (h : deadline.toNanos ≤ clock.toNanos) :
      Round deadline fuel devices [⟨.now, clock⟩] (.ok devices)
  | done {clock : Instant} {remaining : Duration} {e : RecvTimeoutError}
      (hpos : 0 < remaining.toNanos)
      (h : (remaining.toNanos : Int) = deadline.toNanos - clock.toNanos) :
      Round deadline fuel devices [⟨.now, clock⟩, ⟨.recvTimeout remaining, .error e⟩] (.ok devices)
  | next {clock : Instant} {remaining : Duration} {event : ServiceEvent} {t : Trace Browsing}
      {r : Except Stop Devices}
      (hpos : 0 < remaining.toNanos)
        (h : (remaining.toNanos : Int) = deadline.toNanos - clock.toNanos)
      (hrest : Run (browseLoop deadline fuel (keep devices event)) t r) :
      Round deadline fuel devices (⟨.now, clock⟩ :: ⟨.recvTimeout remaining, .ok event⟩ :: t) r

theorem browseLoop_round {r : Except Stop Devices}
    (h : Run (browseLoop deadline (fuel + 1) devices) t r) :
    Round deadline fuel devices t r := by
  rw [browseLoop, run_ask_bind] at h
  obtain ⟨clock, u, rfl, h⟩ := h
  cases hremaining : (deadline.checkedDurationSince clock).filter (fun d => !d.isZero) with
  | none =>
      rw [hremaining] at h
      obtain ⟨rfl, rfl⟩ := run_pure.mp h
      exact .passed (remaining_none.mp hremaining)
  | some remaining =>
      obtain ⟨hpos, heq⟩ := remaining_some hremaining
      rw [hremaining] at h
      dsimp only at h
      rw [run_ask_bind] at h
      obtain ⟨answer, v, rfl, h⟩ := h
      cases answer with
      | error e =>
          obtain ⟨rfl, rfl⟩ := run_pure.mp h
          exact .done hpos heq
      | ok event =>
          refine .next hpos heq ?_
          cases event with
          | other => exact h
          | serviceResolved info =>
              rw [keep]
              dsimp only at h
              cases hdevice : deviceOf info with
              | none =>
                  rw [hdevice] at h
                  exact h
              | some device =>
                  rw [hdevice] at h
                  exact h

def opened (start : Instant) (t : Trace Browsing) : Trace Browsing :=
  ⟨.serviceDaemon, .ok ()⟩ :: ⟨.browse serviceType, .ok ()⟩ :: ⟨.now, start⟩ :: t

def closing (timestamp : String) : Trace Browsing := [⟨.shutdown, ()⟩, ⟨.timestamp, timestamp⟩]

theorem browseLoop_unfinished {stop : Stop}
    (h : Run (browseLoop deadline fuel devices) t (.error stop)) :
    stop = .unfinished := by
  induction fuel generalizing devices t with
  | zero => exact Except.error.inj (run_fail.mp h).2
  | succ fuel ih =>
      cases browseLoop_round h with
      | next _ _ hrest => exact ih hrest

/-- How a run of `discover` goes: it fails before the deadline is set, or it
goes through the loop until this ends with the devices or the fuel. -/
inductive Discovers (fuel : Nat) (secs : UInt64) :
    Trace Browsing → Except Stop DiscoverOutput → Prop
  | failed {t : Trace Browsing} {e : AtvError} (h : ∀ o x, ⟨o, x⟩ ∈ t → o = .serviceDaemon ∨
      o = .browse serviceType) :
      Discovers fuel secs t (.error (.error e))
  | overflowed {start : Instant} {text : String} (h : start.checkedAdd (.fromSecs secs) = none) :
      Discovers fuel secs (opened start []) (.error (.panic text))
  | finished {start deadline : Instant} {t : Trace Browsing} {devices : Devices}
      {timestamp : String}
      (h : start.checkedAdd (.fromSecs secs) = some deadline)
        (hloop : Run (browseLoop deadline fuel ∅) t (.ok devices)) :
      Discovers fuel secs (opened start (t ++ closing timestamp))
        (.ok ⟨timestamp, devices.toList.map Prod.snd⟩)
  | stopped {start deadline : Instant} {t : Trace Browsing} {stop : Stop}
      (h : start.checkedAdd (.fromSecs secs) = some deadline)
        (hloop : Run (browseLoop deadline fuel ∅) t (.error stop)) :
      Discovers fuel secs (opened start t) (.error stop)

theorem discover_discovers {r : Except Stop DiscoverOutput} (h : Run (discover fuel secs) t r) :
    Discovers fuel secs t r := by
  rw [discover, run_ask_bind] at h
  obtain ⟨daemon, u, rfl, h⟩ := h
  cases daemon with
  | error e =>
      obtain ⟨rfl, rfl⟩ := run_fail.mp h
      refine .failed ?_
      intro o x hmem
      exact .inl (congrArg Sigma.fst (List.mem_singleton.mp hmem))
  | ok =>
      dsimp only at h
      rw [run_ask_bind] at h
      obtain ⟨browse, v, rfl, h⟩ := h
      cases browse with
      | error e =>
          obtain ⟨rfl, rfl⟩ := run_fail.mp h
          refine .failed ?_
          intro o x hmem
          rcases List.mem_pair.mp hmem with heq | heq
          · exact .inl (congrArg Sigma.fst heq)
          · exact .inr (congrArg Sigma.fst heq)
      | ok =>
          dsimp only at h
          rw [run_ask_bind] at h
          obtain ⟨start, w, rfl, h⟩ := h
          cases hdeadline : start.checkedAdd (.fromSecs secs) with
          | none =>
              rw [hdeadline] at h
              obtain ⟨rfl, rfl⟩ := run_fail.mp h
              exact .overflowed hdeadline
          | some deadline =>
              rw [hdeadline] at h
              rcases run_bind.mp h with ⟨devices, x, y, rfl, hloop, hend⟩ | ⟨stop, hloop, rfl⟩
              · rw [run_ask_bind] at hend
                obtain ⟨_, z, rfl, hend⟩ := hend
                rw [run_ask_bind] at hend
                obtain ⟨timestamp, _, rfl, hend⟩ := hend
                obtain ⟨rfl, rfl⟩ := run_pure.mp hend
                exact .finished hdeadline hloop
              · exact .stopped hdeadline hloop

end AtvRemote.DiscoveryRules
