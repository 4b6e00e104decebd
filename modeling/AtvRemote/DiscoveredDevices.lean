import AtvRemote.AddressTexts
import AtvRemote.DiscoveryRules
import AtvRemote.LastWrites

namespace AtvRemote.DiscoveredDevices

open Programs Errors Clocks Numerals Pieces LastWrites Discovery DiscoveryRules AddressTexts
open SystemCalls (IpAddr)

def infoOf : ServiceEvent → Option ServiceInfo
  | .serviceResolved info => some info
  | .other => none

def resolvedOf : Event Browsing → Option ServiceInfo
  | ⟨.recvTimeout _, .ok event⟩ => infoOf event
  | _ => none

/-- The resolved services that a browse has seen, in order. -/
def resolved (t : Trace Browsing) : List ServiceInfo := t.filterMap resolvedOf

def Selects (info : ServiceInfo) (addr : IpAddr) (port : UInt16) : Prop :=
  chosen info.addresses = some addr ∧ info.port = port

/-- No later event selects the endpoint. -/
def LastSelects (infos : List ServiceInfo) (info : ServiceInfo) (addr : IpAddr) (port : UInt16) :
    Prop :=
  ∃ before after, infos = before ++ info :: after ∧ Selects info addr port ∧ ∀ later ∈ after,
    ¬Selects later addr port

def entry (info : ServiceInfo) : Option (String × Device) := (deviceOf info).map fun d => (d.key, d)

theorem keep_event (devices : Devices) (event : ServiceEvent) :
    keep devices event = ((infoOf event).toList.filterMap entry).foldl record devices := by
  cases event with
  | other => rfl
  | serviceResolved info =>
      rw [keep, infoOf, Option.toList_some, List.filterMap_cons, entry]
      cases deviceOf info with
      | none => rfl
      | some d => rfl

theorem resolved_next {clock : Instant} {remaining : Duration} {event : ServiceEvent}
    {t : Trace Browsing} :
    resolved (⟨.now, clock⟩ :: ⟨.recvTimeout remaining, .ok event⟩ :: t) = (infoOf event).toList ++
      resolved t := by
  cases event with
  | other => rfl
  | serviceResolved info => rfl

/-- The loop records the device of each resolved service. -/
theorem browseLoop_devices {deadline : Instant} {fuel : Nat} {devices devices' : Devices}
    {t : Trace Browsing}
    (h : Run (browseLoop deadline fuel devices) t (.ok devices')) :
    devices' = ((resolved t).filterMap entry).foldl record devices := by
  induction fuel generalizing devices t with
  | zero => cases (run_fail.mp h).2
  | succ fuel ih =>
      cases browseLoop_round h with
      | passed _ => rfl
      | done _ _ => rfl
      | next _ _ hrest =>
          rw [ih hrest, keep_event, resolved_next, List.filterMap_append, List.foldl_append]

theorem discover_devices {fuel : Nat} {secs : UInt64} {t : Trace Browsing} {out : DiscoverOutput}
    (h : Run (discover fuel secs) t (.ok out)) :
    out.devices =
      (((resolved t).filterMap entry).foldl record (∅ : Devices)).toList.map Prod.snd := by
  cases discover_discovers h with
  | @finished start _ t _ timestamp _ hloop =>
      have hresolved : resolved (opened start (t ++ closing timestamp)) = resolved t := by
        change List.filterMap resolvedOf (t ++ _) = _
        rw [List.filterMap_append]
        exact List.append_nil _
      rw [hresolved, browseLoop_devices hloop]

theorem toList_key (d : Device) :
    d.key.toList = d.host.toList ++ ':' :: Nat.toDigits 10 d.port.toNat := by
  have hkey : d.key = d.host ++ ":" ++ toString d.port.toNat := rfl
  have hport : (toString d.port.toNat).toList = Nat.toDigits 10 d.port.toNat := Nat.toList_repr
  have hcolon : ":".toList = [':'] := rfl
  rw [hkey, String.toList_append, String.toList_append, hport, hcolon, List.append_assoc,
    List.singleton_append]

/-- The port is what follows the last colon of a key. -/
theorem key_injective {d d' : Device} (h : d.key = d'.key) :
    d.host = d'.host ∧ d.port = d'.port := by
  have hchars := congrArg String.toList h
  rw [toList_key, toList_key] at hchars
  have hcolon : ∀ port : UInt16, ':' ∉ Nat.toDigits 10 port.toNat :=
    fun _ => separator_not_mem (.inl rfl) (by decide) (by decide) _
  obtain ⟨hhost, hport⟩ := last_separator_unique (hcolon _) (hcolon _) hchars
  exact ⟨String.toList_inj.mp hhost, UInt16.toNat_inj.mp
    (toDigits_injective (by decide) (by decide) hport)⟩

variable {infos : List ServiceInfo} {info : ServiceInfo} {d : Device} {addr : IpAddr}

theorem deviceOf_some : deviceOf info = some d ↔
    ∃ addr, Selects info addr d.port ∧ d.host = addr.text ∧ d.name = deviceName info.fullname := by
  rw [deviceOf, Option.map_eq_some_iff]
  constructor
  · rintro ⟨addr, haddr, rfl⟩
    exact ⟨addr, ⟨haddr, rfl⟩, rfl, rfl⟩
  · rintro ⟨addr, ⟨haddr, hport⟩, hhost, hname⟩
    refine ⟨addr, haddr, ?_⟩
    obtain ⟨name, host, port⟩ := d
    dsimp only at hport hhost hname
    rw [hport, hhost, hname]

theorem entry_some {key : String} : entry info = some (key, d) ↔ deviceOf info = some d ∧
      key = d.key := by
  rw [entry, Option.map_eq_some_iff]
  constructor
  · rintro ⟨_, hdevice, ⟨⟩⟩
    exact ⟨hdevice, rfl⟩
  · rintro ⟨hdevice, rfl⟩
    exact ⟨d, hdevice, rfl⟩

/-- An event records something under the key of an endpoint exactly if it
selects the endpoint. -/
theorem entry_key (hhost : d.host = addr.text) (later : ServiceInfo) :
    (∃ d', entry later = some (d.key, d')) ↔ Selects later addr d.port := by
  constructor
  · rintro ⟨d', h⟩
    obtain ⟨hdevice, hkey⟩ := entry_some.mp h
    obtain ⟨hhosts, hports⟩ := key_injective hkey
    obtain ⟨addr', hselects, hhost', _⟩ := deviceOf_some.mp hdevice
    obtain rfl := text_injective (hhost.symm.trans (hhosts.trans hhost'))
    rwa [← hports] at hselects
  · intro hselects
    exact ⟨⟨deviceName later.fullname, d.host, d.port⟩, entry_some.mpr
      ⟨deviceOf_some.mpr ⟨addr, hselects, hhost, rfl⟩, rfl⟩⟩

theorem last_iff (hhost : d.host = addr.text) : Last d.key d (infos.filterMap entry) ↔
    ∃ info, LastSelects infos info addr d.port ∧ d.name = deviceName info.fullname := by
  constructor
  · rintro ⟨before, after, heq, hafter⟩
    obtain ⟨first, rest, rfl, _, hrest⟩ := List.filterMap_eq_append_iff.mp heq
    obtain ⟨skipped, info, last, rfl, _, hinfo, rfl⟩ := List.filterMap_eq_cons_iff.mp hrest
    obtain ⟨addr', hselects, hhost', hname⟩ := deviceOf_some.mp (entry_some.mp hinfo).1
    obtain rfl := text_injective (hhost.symm.trans hhost')
    refine ⟨info, ⟨first ++ skipped, last, (List.append_assoc _ _ _).symm, hselects, ?_⟩, hname⟩
    intro later hlater hselects
    obtain ⟨d', hd'⟩ := (entry_key hhost later).mpr hselects
    exact hafter (_, d') (List.mem_filterMap.mpr ⟨later, hlater, hd'⟩) rfl
  · rintro ⟨info, ⟨before, after, rfl, hselects, hafter⟩, hname⟩
    have hinfo : entry info = some (d.key, d) :=
      entry_some.mpr ⟨deviceOf_some.mpr ⟨addr, hselects, hhost, hname⟩, rfl⟩
    refine ⟨before.filterMap entry, after.filterMap entry, ?_, ?_⟩
    · rw [List.filterMap_append, List.filterMap_cons_some hinfo]
    · rintro ⟨key, d'⟩ hmem rfl
      obtain ⟨later, hlater, hd'⟩ := List.mem_filterMap.mp hmem
      exact hafter later hlater ((entry_key hhost later).mp ⟨d', hd'⟩)

variable {fuel : Nat} {secs : UInt64} {t : Trace Browsing} {out : DiscoverOutput}

/-- The devices are those of the events that selected their endpoints last. -/
theorem mem_devices (h : Run (discover fuel secs) t (.ok out)) : d ∈ out.devices ↔
    ∃ addr info, LastSelects (resolved t) info addr d.port ∧ d.host = addr.text ∧ d.name =
      deviceName info.fullname := by
  rw [discover_devices h]
  constructor
  · intro hmem
    obtain ⟨⟨key, d⟩, hkept, rfl⟩ := List.mem_map.mp hmem
    have hlast := getElem?_foldl_record.mp (Std.ExtTreeMap.mem_toList_iff_getElem?_eq_some.mp hkept)
    obtain ⟨info, _, hinfo⟩ := List.mem_filterMap.mp hlast.mem
    obtain ⟨hdevice, rfl⟩ := entry_some.mp hinfo
    obtain ⟨addr, _, hhost, _⟩ := deviceOf_some.mp hdevice
    obtain ⟨info, hselects, hname⟩ := (last_iff hhost).mp hlast
    exact ⟨addr, info, hselects, hhost, hname⟩
  · rintro ⟨addr, info, hselects, hhost, hname⟩
    have hlast := (last_iff hhost).mpr ⟨info, hselects, hname⟩
    have hmem : (d.key, d) ∈ (((resolved t).filterMap entry).foldl record (∅ : Devices)).toList :=
      Std.ExtTreeMap.mem_toList_iff_getElem?_eq_some.mpr (getElem?_foldl_record.mpr hlast)
    exact List.mem_map.mpr ⟨(d.key, d), hmem, rfl⟩

/-- An event with an address selects one of them, of IPv4 if it has such. -/
theorem chosen_spec (addrs : List IpAddr) : (addrs ≠ [] → ∃ addr, chosen addrs = some addr) ∧
    ∀ addr, chosen addrs = some addr → addr ∈ addrs ∧
      ((∃ a ∈ addrs, isIpv4 a = true) → isIpv4 addr = true) := by
  unfold chosen
  cases hfind : addrs.find? isIpv4 with
  | some a =>
      constructor
      · exact fun _ => ⟨a, rfl⟩
      · rintro _ ⟨⟩
        exact ⟨List.mem_of_find?_eq_some hfind, fun _ => List.find?_some hfind⟩
  | none =>
      rw [Option.none_or]
      constructor
      · intro hne
        exact ⟨addrs.head hne, List.head?_eq_some_head hne⟩
      · intro addr haddr
        refine ⟨List.mem_of_mem_head? haddr, ?_⟩
        rintro ⟨a, ha, hv4⟩
        exact absurd hv4 (List.find?_eq_none.mp hfind a ha)

theorem LastSelects.mem {port : UInt16} (h : LastSelects infos info addr port) :
    info ∈ infos ∧ Selects info addr port := by
  obtain ⟨before, after, rfl, hselects, _⟩ := h
  exact ⟨List.mem_append_right _ List.mem_cons_self, hselects⟩

/-- A browse at whose end nothing more arrives. -/
def scripted : (o : BrowseOp) → List ServiceEvent → o.Answer × List ServiceEvent
  | .serviceDaemon, events => (.ok (), events)
  | .browse _, events => (.ok (), events)
  | .now, events => (default, events)
  | .recvTimeout _, [] => (.error .timeout, [])
  | .recvTimeout _, event :: events => (.ok event, events)
  | .shutdown, events => ((), events)
  | .timestamp, events => ("", events)

abbrev browsed (events : List ServiceEvent) :
    Trace Browsing × Except Stop DiscoverOutput × List ServiceEvent :=
  (discover (events.length + 1) 3).exec (S := Browsing) scripted events

def livingRoomTv (addresses : List IpAddr) : ServiceEvent :=
  .serviceResolved ⟨"Living Room TV._androidtvremote2._tcp.local.", addresses, 6466⟩

def linkLocal : IpAddr := .v6 #v[0xfe80, 0, 0, 0, 0, 0, 0, 1]

def privateAddr : IpAddr := .v4 #v[192, 0, 2, 10]

/-- The addresses of the television become known one after the other. -/
def growing : List ServiceEvent :=
  [livingRoomTv [linkLocal], .other, livingRoomTv [linkLocal, privateAddr]]

def growingDevices : List Device :=
  [⟨"Living Room TV", "192.0.2.10", 6466⟩, ⟨"Living Room TV", "fe80::1", 6466⟩]

theorem browsed_growing : Run (discover 4 3) (browsed growing).1 (.ok ⟨"", growingDevices⟩) :=
  run_exec _ _ _

end AtvRemote.DiscoveredDevices
