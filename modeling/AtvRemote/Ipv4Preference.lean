import AtvRemote.DiscoveredDevices

namespace AtvRemote.Ipv4Preference

open Programs Discovery AddressTexts DiscoveredDevices
open SystemCalls (IpAddr)

def HasIpv4 (info : ServiceInfo) : Prop := ∃ addr ∈ info.addresses, isIpv4 addr = true
  deriving Decidable

/-- A service that was ever seen with an IPv4 address is not listed with an
IPv6 one on the same port. -/
def PrefersIpv4 (infos : List ServiceInfo) (devices : List Device) : Prop :=
  ∀ info ∈ infos, HasIpv4 info → ∀ d ∈ devices, d.name = deviceName info.fullname →
    d.port = info.port →
    ∀ segments, d.host ≠ (IpAddr.v6 segments).text

/-- An event without IPv4 addresses is the last to select its endpoint, and
another of the same service and port has such an address. -/
def LeavesIpv6 (infos : List ServiceInfo) : Prop :=
  ∃ info ∈ infos, HasIpv4 info ∧ ∃ late segments, ¬HasIpv4 late ∧ LastSelects infos late
    (.v6 segments) info.port ∧
    deviceName late.fullname = deviceName info.fullname

theorem not_hasIpv4 {info : ServiceInfo} {segments : Vector UInt16 8} {port : UInt16}
    (h : Selects info (.v6 segments) port) :
    ¬HasIpv4 info := by
  intro hv4
  cases ((chosen_spec info.addresses).2 _ h.1).2 hv4

/-- IPv4 is preferred over the whole browse exactly if no IPv6 endpoint is left
from an event that knew no better. -/
theorem ipv4_preferred_iff (fuel : Nat) (secs : UInt64) (t : Trace Browsing) (out : DiscoverOutput)
    (h : Run (discover fuel secs) t (.ok out)) :
    PrefersIpv4 (resolved t) out.devices ↔ ¬LeavesIpv6 (resolved t) := by
  constructor
  · rintro hprefers ⟨info, hinfo, hv4, late, segments, _, hlast, hname⟩
    have hlisted : ⟨deviceName late.fullname, (IpAddr.v6 segments).text, info.port⟩ ∈ out.devices :=
      (mem_devices h).mpr ⟨.v6 segments, late, hlast, rfl, rfl⟩
    exact hprefers info hinfo hv4 _ hlisted hname rfl segments rfl
  · intro hleaves info hinfo hv4 d hd hname hport segments hhost
    obtain ⟨addr, late, hlast, hhost', hname'⟩ := (mem_devices h).mp hd
    obtain rfl := text_injective (hhost'.symm.trans hhost)
    rw [hport] at hlast
    exact hleaves ⟨info, hinfo, hv4, late, segments, not_hasIpv4 hlast.mem.2, hlast,
      hname'.symm.trans hname⟩

/-- The IPv4 address is known from the start. -/
def known : List ServiceEvent := [livingRoomTv [linkLocal, privateAddr], livingRoomTv [privateAddr]]

def knownDevices : List Device := [⟨"Living Room TV", "192.0.2.10", 6466⟩]

theorem browsed_known : Run (discover 3 3) (browsed known).1 (.ok ⟨"", knownDevices⟩) :=
  run_exec _ _ _

theorem ipv4_preferred_iff_known : PrefersIpv4 (resolved (browsed known).1) knownDevices := by
  refine (ipv4_preferred_iff 3 3 _ _ browsed_known).mpr ?_
  rintro ⟨_, _, _, late, _, hnot, hlast, _⟩
  have hall : ∀ info ∈ resolved (browsed known).1, HasIpv4 info := by decide +kernel
  exact hnot (hall late hlast.mem.1)

/-- The endpoint from before the IPv4 address was known stays listed. -/
theorem ipv6_listed_beside_ipv4 : ¬∀ fuel secs t out, Run (discover fuel secs) t (.ok out) →
      PrefersIpv4 (resolved t) out.devices := by
  intro h
  have hseen :
      ⟨"Living Room TV._androidtvremote2._tcp.local.", [linkLocal, privateAddr], 6466⟩ ∈ resolved
      (browsed growing).1 := by
    decide +kernel
  have hlisted : ⟨"Living Room TV", "fe80::1", 6466⟩ ∈ growingDevices := by decide
  have hname : deviceName "Living Room TV._androidtvremote2._tcp.local." = "Living Room TV" := by
    decide
  exact h 4 3 _ _ browsed_growing _ hseen ⟨privateAddr, by decide, rfl⟩ _ hlisted hname.symm rfl
    #v[0xfe80, 0, 0, 0, 0, 0, 0, 1] (by decide)

end AtvRemote.Ipv4Preference
