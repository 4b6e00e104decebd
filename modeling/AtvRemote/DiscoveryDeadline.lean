import AtvRemote.DiscoveredDevices

namespace AtvRemote.DiscoveryDeadline

open Programs Errors Clocks Discovery DiscoveryRules DiscoveredDevices

def readingOf : Event Browsing → Option Instant
  | ⟨.now, clock⟩ => some clock
  | _ => none

def waitOf : Event Browsing → Option Duration
  | ⟨.recvTimeout d, _⟩ => some d
  | _ => none

def readings (t : Trace Browsing) : List Instant := t.filterMap readingOf

def waits (t : Trace Browsing) : List Duration := t.filterMap waitOf

/-- What is asked of a browse. The deadline is the first reading of the clock
plus the timeout. -/
structure DeadlineSafe (secs : UInt64) (t : Trace Browsing) (r : Except Stop DiscoverOutput) :
    Prop where
  noPanic : ∀ text, r ≠ .error (.panic text)
  bounded : ∀ d ∈ waits t, 0 < d.toNanos ∧ d.toNanos ≤ (Duration.fromSecs secs).toNanos
  shrinking : (waits t).Pairwise fun d d' => d'.toNanos ≤ d.toNanos
  leaves : ∀ before clock after start, t = before ++ ⟨.now, clock⟩ :: after →
    (readings before).head? = some start →
    start.toNanos + (Duration.fromSecs secs).toNanos ≤ clock.toNanos → readings after = [] ∧
      waits after = []

variable {start deadline clock : Instant} {fuel : Nat} {devices : Devices} {secs : UInt64}
  {t before after : Trace Browsing}

theorem readings_append : readings (before ++ after) = readings before ++ readings after :=
  List.filterMap_append

theorem waits_append : waits (before ++ after) = waits before ++ waits after :=
  List.filterMap_append

theorem mem_readings (h : ⟨.now, clock⟩ ∈ t) : clock ∈ readings t :=
  List.mem_filterMap.mpr ⟨_, h, rfl⟩

/-- The loop waits once for each reading before the deadline, for the time that
is left then. -/
theorem browseLoop_waits {r : Except Stop Devices}
    (h : Run (browseLoop deadline fuel devices) t r) :
    ∃ clocks :
    List Instant, clocks.Sublist (readings t) ∧
      (∀ clock ∈ clocks, clock.toNanos < deadline.toNanos) ∧
      (waits t).map Duration.toNanos = clocks.map fun clock =>
      (deadline.toNanos - clock.toNanos).toNat := by
  induction fuel generalizing devices t with
  | zero =>
      obtain ⟨rfl, _⟩ := run_fail.mp h
      exact ⟨[], List.nil_sublist _, nofun, rfl⟩
  | succ fuel ih =>
      cases browseLoop_round h with
      | passed _ => exact ⟨[], List.nil_sublist _, nofun, rfl⟩
      | @done clock remaining e hpos heq =>
          refine ⟨[clock], List.Sublist.refl _, ?_, ?_⟩
          · intro clock' hmem
            rw [List.mem_singleton.mp hmem]
            omega
          · change [remaining.toNanos] = [(deadline.toNanos - clock.toNanos).toNat]
            rw [← heq, Int.toNat_natCast]
      | @next clock remaining event t _ hpos heq hrest =>
          obtain ⟨clocks, hsub, hlt, hwaits⟩ := ih hrest
          refine ⟨clock :: clocks, hsub.cons_cons clock, ?_, ?_⟩
          · intro clock' hmem
            rcases List.mem_cons.mp hmem with rfl | hmem
            · omega
            · exact hlt clock' hmem
          · change remaining.toNanos :: (waits t).map Duration.toNanos =
              (deadline.toNanos - clock.toNanos).toNat :: _
            rw [hwaits, ← heq, Int.toNat_natCast]

theorem later_event {e e' : Event Browsing} (h : e :: t = before ++ e' :: after) (hne : e ≠ e') :
    ∃ before', before = e :: before' ∧ t = before' ++ e' :: after := by
  rcases List.cons_eq_append_iff.mp h with ⟨_, heq⟩ | hlater
  · exact absurd (List.cons.inj heq).1.symm hne
  · exact hlater

theorem later_round {clock' : Instant} {remaining : Duration}
    {answer : Except RecvTimeoutError ServiceEvent}
    (h : ⟨.now, clock'⟩ :: ⟨.recvTimeout remaining, answer⟩ :: t = before ++ ⟨.now, clock⟩ :: after)
    (hpos : 0 < remaining.toNanos)
    (hleft : (remaining.toNanos : Int) = deadline.toNanos - clock'.toNanos)
    (hle : deadline.toNanos ≤ clock.toNanos) :
    ∃ before', t = before' ++ ⟨.now, clock⟩ :: after := by
  have hne : (⟨.now, clock'⟩ : Event Browsing) ≠ ⟨.now, clock⟩ := by
    rintro ⟨⟩
    omega
  obtain ⟨_, _, h⟩ := later_event h hne
  obtain ⟨before', _, h⟩ := later_event h nofun
  exact ⟨before', h⟩

/-- After a reading that has reached the deadline the loop is left. -/
theorem browseLoop_leaves {rest : Trace Browsing} {r : Except Stop Devices}
    (h : Run (browseLoop deadline fuel devices) t r)
    (heq : t ++ rest = before ++ ⟨.now, clock⟩ :: after) (hrest : ⟨.now, clock⟩ ∉ rest)
    (hle : deadline.toNanos ≤ clock.toNanos) :
    after = rest := by
  have hnot : ∀ before, rest ≠ before ++ ⟨.now, clock⟩ :: after := by
    rintro before rfl
    exact hrest (List.mem_append_right _ List.mem_cons_self)
  induction fuel generalizing devices t before with
  | zero =>
      obtain ⟨rfl, _⟩ := run_fail.mp h
      exact absurd heq (hnot before)
  | succ fuel ih =>
      cases browseLoop_round h with
      | passed _ =>
          rcases List.cons_eq_append_iff.mp heq with ⟨_, heq⟩ | ⟨before', _, heq⟩
          · exact (List.cons.inj heq).2
          · exact absurd heq (hnot before')
      | done hpos hleft =>
          obtain ⟨before', heq⟩ := later_round heq hpos hleft hle
          exact absurd heq (hnot before')
      | next hpos hleft hrest =>
          obtain ⟨before', heq⟩ := later_round heq hpos hleft hle
          exact ih hrest heq

/-- The deadline can be represented if its seconds can. -/
theorem deadline_none :
    start.checkedAdd (.fromSecs secs) = none ↔ ¬start.secs.toInt + secs.toNat < 2 ^ 63 := by
  rw [checkedAdd_none, toNanos_fromSecs, Instant.toNanos]
  omega

theorem deadline_some (h : start.checkedAdd (.fromSecs secs) = some deadline) :
    start.secs.toInt + secs.toNat < 2 ^ 63 := by
  by_contra hover
  rw [deadline_none.mpr hover] at h
  cases h

theorem filterMap_early {β : Type} {f : Event Browsing → Option β}
    (h : ∀ o x, (⟨o, x⟩ : Event Browsing) ∈ t → o = .serviceDaemon ∨ o = .browse serviceType)
    (hdaemon : ∀ x, f ⟨.serviceDaemon, x⟩ = none) (hbrowse : ∀ x, f ⟨.browse serviceType, x⟩ =
      none) : t.filterMap f = [] := by
  apply List.filterMap_eq_nil_iff.mpr
  rintro ⟨o, x⟩ hmem
  rcases h o x hmem with rfl | rfl
  · exact hdaemon x
  · exact hbrowse x

theorem deadlineSafe_idle {r : Except Stop DiscoverOutput} (hreadings : readings t = [])
    (hwaits : waits t = [])
    (hpanic : ∀ text, r ≠ .error (.panic text)) : DeadlineSafe secs t r := by
  refine ⟨hpanic, ?_, ?_, ?_⟩
  · rw [hwaits]
    nofun
  · rw [hwaits]
    exact .nil
  · rintro before clock after start rfl
    have hmem :=
      mem_readings
        (List.mem_append_right before (List.mem_cons_self (a := ⟨.now, clock⟩) (l := after)))
    rw [hreadings] at hmem
    cases hmem

theorem deadlineSafe_loop {loop rest : Trace Browsing} {q : Except Stop Devices}
    {r : Except Stop DiscoverOutput}
    (hdeadline : start.checkedAdd (.fromSecs secs) = some deadline)
    (hloop : Run (browseLoop deadline fuel devices) loop q)
    (hrest : readings rest = [] ∧ waits rest = [])
    (hclock : (readings (opened start (loop ++ rest))).Pairwise fun c c' => c.toNanos ≤ c'.toNanos)
    (hpanic : ∀ text, r ≠ .error (.panic text)) :
    DeadlineSafe secs (opened start (loop ++ rest)) r := by
  have hadd := toNanos_checkedAdd hdeadline
  have hreadings : readings (opened start (loop ++ rest)) = start :: readings loop := by
    change start :: readings (loop ++ rest) = start :: readings loop
    rw [readings_append, hrest.1, List.append_nil]
  rw [hreadings] at hclock
  obtain ⟨hstart, hclock⟩ := List.pairwise_cons.mp hclock
  obtain ⟨clocks, hsub, hlt, hwaits⟩ := browseLoop_waits hloop
  have hall : waits (opened start (loop ++ rest)) = waits loop := by
    change waits (loop ++ rest) = waits loop
    rw [waits_append, hrest.2, List.append_nil]
  refine ⟨hpanic, ?_, ?_, ?_⟩
  · intro d hd
    rw [hall] at hd
    have hmem := List.mem_map_of_mem (f := Duration.toNanos) hd
    rw [hwaits] at hmem
    obtain ⟨clock, hclock, heq⟩ := List.mem_map.mp hmem
    have hbefore := hlt clock hclock
    have hafter := hstart clock (hsub.subset hclock)
    omega
  · have hpairs : ((waits loop).map Duration.toNanos).Pairwise fun n n' => n' ≤ n := by
      rw [hwaits, List.pairwise_map]
      apply (hclock.sublist hsub).imp
      intro c c' hle
      omega
    rw [hall]
    exact List.pairwise_map.mp hpairs
  · intro before clock after start' heq hhead hreached
    obtain ⟨before, rfl, hbrowse⟩ := later_event heq nofun
    obtain ⟨before, rfl, hstart⟩ := later_event hbrowse nofun
    rcases List.cons_eq_append_iff.mp hstart with ⟨rfl, _⟩ | ⟨before, rfl, hloops⟩
    · cases hhead
    · obtain rfl : start = start' := Option.some.inj hhead
      have hnow : ⟨.now, clock⟩ ∉ rest := by
        intro hmem
        have hclock := mem_readings hmem
        rw [hrest.1] at hclock
        cases hclock
      rw [browseLoop_leaves hloop hloops hnow (hadd ▸ hreached)]
      exact hrest

/-- Once the deadline is set, nothing goes wrong any more. -/
theorem deadlineSafe_set {loop rest : Trace Browsing} {q : Except Stop Devices}
    {r : Except Stop DiscoverOutput}
    (hdeadline : start.checkedAdd (.fromSecs secs) = some deadline)
    (hloop : Run (browseLoop deadline fuel devices) loop q)
    (hrest : readings rest = [] ∧ waits rest = [])
    (hclock : (readings (opened start (loop ++ rest))).Pairwise fun c c' => c.toNanos ≤ c'.toNanos)
    (hpanic : ∀ text, r ≠ .error (.panic text)) :
    DeadlineSafe secs (opened start (loop ++ rest)) r ↔
      ∀ start', (readings (opened start (loop ++ rest))).head? = some start' →
        start'.secs.toInt + secs.toNat < 2 ^ 63 := by
  apply iff_of_true
  · exact deadlineSafe_loop hdeadline hloop hrest hclock hpanic
  · rintro _ ⟨⟩
    exact deadline_some hdeadline

/-- The deadline arithmetic is safe exactly if the seconds of the deadline do
not overflow, however the clock goes on. -/
theorem deadline_safe_iff (fuel : Nat) (secs : UInt64) (t : Trace Browsing)
    (r : Except Stop DiscoverOutput)
    (h : Run (discover fuel secs) t r)
    (hclock : (readings t).Pairwise fun c c' => c.toNanos ≤ c'.toNanos) :
    DeadlineSafe secs t r ↔ ∀ start, (readings t).head? = some start →
      start.secs.toInt + secs.toNat < 2 ^ 63 := by
  cases discover_discovers h with
  | failed hearly =>
      have hreadings : readings t = [] := filterMap_early hearly (fun _ => rfl) (fun _ => rfl)
      have hwaits : waits t = [] := filterMap_early hearly (fun _ => rfl) (fun _ => rfl)
      apply iff_of_true
      · apply deadlineSafe_idle hreadings hwaits
        nofun
      · rw [hreadings]
        nofun
  | @overflowed start text hnone =>
      apply iff_of_false
      · exact fun hsafe => hsafe.noPanic text rfl
      · exact fun hfits => deadline_none.mp hnone (hfits start rfl)
  | finished hdeadline hloop =>
      apply deadlineSafe_set hdeadline hloop ⟨rfl, rfl⟩ hclock
      nofun
  | @stopped start deadline loop stop hdeadline hloop =>
      obtain rfl := browseLoop_unfinished hloop
      rw [← List.append_nil loop] at hclock ⊢
      apply deadlineSafe_set hdeadline hloop ⟨rfl, rfl⟩ hclock
      nofun

/-- A television answers within the three seconds. -/
theorem deadline_safe_iff_growing :
    DeadlineSafe 3 (browsed growing).1 (.ok ⟨"", growingDevices⟩) := by
  refine (deadline_safe_iff 4 3 _ _ browsed_growing (by decide +kernel)).mpr ?_
  intro start hstart
  have hhead : (readings (browsed growing).1).head? = some default := by decide +kernel
  obtain rfl := Option.some.inj (hhead.symm.trans hstart)
  decide

/-- The longest timeout that is admitted overflows when the clock reads zero. -/
theorem longest_timeout_panics : ¬∀ fuel secs t r, Run (discover fuel secs) t r →
    (readings t).Pairwise (fun c c' => c.toNanos ≤ c'.toNanos) → DeadlineSafe secs t r := by
  intro h
  have hrun := run_exec scripted (discover 1 18446744073709551615) []
  exact (h _ _ _ _ hrun (by decide +kernel)).noPanic _ rfl

end AtvRemote.DiscoveryDeadline
