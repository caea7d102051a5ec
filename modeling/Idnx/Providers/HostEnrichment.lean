import Idnx.Engine.Naming
import Idnx.Output.Reachability

/-!
# Enriching the hosts of a network

`HostEnrichmentProvider` scans a network and reports its hosts, and how the network answered. The account it gives of
the network does not depend on any cache or any name: the responders are those heard from in this run, and the
addresses probed those something left for (`enrich_reachability`). Nor does an address it attributes to a probe
(`enrich_attribution`).
-/

namespace Idnx

/-- The addresses that answered during this run, from one sweep. -/
def freshResponders (summary : ScanSummary) : List IpAddr :=
  ((((summary.activeHosts.filter fun host => host.liveness == .answered).filter fun host =>
    !host.ip.isUnspecified).map fun host => IpAddr.v4 host.ip).insertionSort fun a b => a ≤ b).destutter (· ≠ ·)

/-- Active host enrichment for a discovered network. -/
structure HostEnrichmentProvider where
  ports : List UInt16 := [22, 80, 443]
  maxEnumerableHosts : Nat := ({} : Budget).maxEnumerableHosts

namespace HostEnrichmentProvider

def applies (provider : HostEnrichmentProvider) (context : DiscoveryContext) : Bool :=
  match context.scope with
  | some (.v4 addr len) => enumerableHostCount (.v4 addr len) ≤ provider.maxEnumerableHosts
  | _ => false

/-- A record of the provider, made on the interface `vantage` at the time `now`. -/
def record (vantage : Text) (now : Nat) (fact : Fact) (source : EvidenceSource) : TopologyEvidence :=
  { fact, source, confidence := .observed, vantage, observedAt := now }

end HostEnrichmentProvider

namespace HostResult

variable (host : HostResult)

/-- The device a host is: its hardware address where it has one. -/
def device : Option DeviceKey :=
  match host.macAddress with
  | some mac => some (.ofMac mac)
  | none => if host.ip.isUnspecified then none else some (.address (.v4 host.ip))

/-- How the address of a host was established. -/
def addressSource : EvidenceSource :=
  match host.macAddress, host.openPorts.isEmpty with
  | some _, _ => .arpCache
  | none, false => .tcpProbe
  | none, true => .icmpProbe

/-- A name that is no placeholder. -/
def realName : Option Text := host.hostname.filter fun name => !name.startsWith ("[" : Text) && !name.trim.isEmpty

/-- Which resolver a name is from. -/
def nameSource (name : Text) : EvidenceSource :=
  if (".local" : Text).isSuffixOf name || (".local." : Text).isSuffixOf name then .mdns else .unicastDns

/-- The records about a host that is a device. -/
def evidenceOf (vantage : Text) (now : Nat) (device : DeviceKey) : List TopologyEvidence :=
  let record := HostEnrichmentProvider.record vantage now
  (if host.ip.isUnspecified then [] else [record (.deviceAddress device (.v4 host.ip)) host.addressSource]) ++
    host.ipv6Addrs.map (fun v6 => record (.deviceAddress device (.v6 v6)) .ndpCache) ++
    (host.realName.map fun name => record (.deviceHostname device name) (nameSource name)).toList ++
    (host.vendor.map fun vendor => record (.deviceVendor device vendor) .arpCache).toList

/-- The records about a host. -/
def evidence (vantage : Text) (now : Nat) : List TopologyEvidence :=
  host.device.elim [] (host.evidenceOf vantage now)

end HostResult

/-- What an enrichment produces: evidence, and how the network answered. -/
structure EnrichmentOutput extends ProviderOutput where
  reachability : List (IpNet × NetworkReachability)

/-- Scans the network it is given; no other kind of scope is examined. -/
def HostEnrichmentProvider.discover (provider : HostEnrichmentProvider) (context : DiscoveryContext) (now : Nat)
    (run : SweepRun) (sources : NameSources) : EnrichmentOutput :=
  match context.scope with
  | some (.v4 addr len) =>
    let scope : Ipv4Net := ⟨addr, len⟩
    let vantage := context.vantage.interface
    let summary := scanSubnetExt scope provider.ports true run sources
    let swept := Text.ofNat provider.ports.length ++ (" port(s) swept across " : Text) ++
      Text.ofNat summary.probedAddresses.length ++ (" address(es)" : Text)
    let never := Text.ofNat summary.probesNotSent ++ (" probe(s) never left this machine" : Text)
    { evidence := summary.activeHosts.flatMap fun host => host.evidence vantage now
      notes := [("port sweep only; ARP resolution belongs to arp-liveness" : Text),
        Text.ofNat summary.activeHosts.length ++ (" host(s) answered something" : Text)]
      attempted := true
      reachability := [(.v4 addr len, .ofProbed (freshResponders summary)
        (summary.probedAddresses.map .v4) summary.probesNotSent
        (if 0 < summary.probesNotSent then [swept, never] else [swept]))] }
  | _ => { evidence := [], notes := [], attempted := false, reachability := [] }

/-! ## How the network answered -/

section Responders

variable {scope : Ipv4Net} {ports : List UInt16} {run : SweepRun} {summary : ScanSummary}

/-- The responders are the addresses heard from. -/
theorem mem_freshResponders (h : ScanAccount scope ports run summary) {x : IpAddr} :
    x ∈ freshResponders summary ↔ ∃ a, a ≠ 0 ∧ x = .v4 a ∧ run.Heard scope ports a := by
  unfold freshResponders
  rw [mem_destutter_ne, List.mem_insertionSort]
  simp only [List.mem_map, List.mem_filter, beq_iff_eq, Bool.not_eq_true', Ipv4Addr.isUnspecified, beq_eq_false_iff_ne]
  constructor
  · rintro ⟨host, ⟨⟨hmem, hliveness⟩, hip⟩, rfl⟩
    have hne : host.ip ≠ 0 := fun hzero => hip (by rw [hzero]; rfl)
    exact ⟨host.ip, hne, rfl, (h.answered _ hne).mp ⟨host, hmem, rfl, hliveness⟩⟩
  · rintro ⟨a, hne, rfl, hheard⟩
    obtain ⟨host, hmem, rfl, hliveness⟩ := (h.answered _ hne).mpr hheard
    exact ⟨host, ⟨⟨hmem, hliveness⟩, fun hzero => hne (BitVec.eq_of_toNat_eq hzero)⟩, rfl⟩

end Responders

theorem state_probedUnreachable_iff (r : NetworkReachability) :
    r.state = .probedUnreachable ↔ r.responders.isEmpty = true ∧ r.probed.Nonempty := by
  unfold NetworkReachability.state
  cases r.responders.isEmpty with
  | true => rw [Bool.not_true, if_neg (by decide)]; split <;> simp_all
  | false => simp

/-- What the account of a scanned network owes to what the scan met. -/
structure HonestEnrichment (scope : Ipv4Net) (ports : List UInt16) (run : SweepRun) (outcome : NetworkReachability) :
    Prop where
  /-- The responders are the addresses heard from in this run, each once and in order. -/
  responders : ∀ x, x ∈ outcome.responders ↔ ∃ a, a ≠ 0 ∧ x = .v4 a ∧ run.Heard scope ports a
  nodup : outcome.responders.Nodup
  sorted : outcome.responders.Pairwise (· ≤ ·)
  /-- The addresses probed are those something left for: what answered adds none. -/
  probed : ∀ x, x ∈ outcome.probed ↔ ∃ a, x = .v4 a ∧ run.Probed scope ports a
  reachable : outcome.state = .reachable ↔ ∃ a, a ≠ 0 ∧ run.Heard scope ports a
  unreachable : outcome.state = .probedUnreachable ↔
    (¬ ∃ a, a ≠ 0 ∧ run.Heard scope ports a) ∧ ∃ a, run.Probed scope ports a

/-- **How a network answered.** Its account names who was heard from in this run and what something left for: the
neighbour cache and the sources of names have no say in it. -/
theorem enrich_reachability (provider : HostEnrichmentProvider) (vantage : Vantage) (addr : Ipv4Addr) (len : Fin 33)
    (target : Option IpAddr) (now : Nat) (run : SweepRun) (sources : NameSources) :
    ∃ outcome, (provider.discover ⟨vantage, some (.v4 addr len), target⟩ now run sources).reachability =
        [(.v4 addr len, outcome)] ∧
      HonestEnrichment ⟨addr, len⟩ provider.ports run outcome := by
  have haccount := scanSubnetExt_account ⟨addr, len⟩ provider.ports true run sources
  unfold HostEnrichmentProvider.discover
  dsimp only
  generalize scanSubnetExt ⟨addr, len⟩ provider.ports true run sources = summary at haccount ⊢
  refine ⟨_, rfl, ?_⟩
  generalize (if 0 < summary.probesNotSent then _ else _ : List Text) = reasons
  have hprobed : ∀ x, x ∈ (NetworkReachability.ofProbed (freshResponders summary) (summary.probedAddresses.map .v4)
      summary.probesNotSent reasons).probed ↔ ∃ a, x = .v4 a ∧ run.Probed ⟨addr, len⟩ provider.ports a := by
    intro x
    simp only [NetworkReachability.ofProbed, Finset.mem_union, List.mem_toFinset, List.mem_map,
      mem_freshResponders haccount]
    constructor
    · rintro (⟨a, ha, rfl⟩ | ⟨a, -, rfl, hheard⟩)
      · exact ⟨a, rfl, (haccount.probed a).mp ha⟩
      · exact ⟨a, rfl, hheard.probed⟩
    · rintro ⟨a, rfl, hprobed⟩
      exact .inl ⟨a, (haccount.probed a).mpr hprobed, rfl⟩
  have hempty : freshResponders summary = [] ↔ ¬ ∃ a, a ≠ 0 ∧ run.Heard ⟨addr, len⟩ provider.ports a := by
    rw [List.eq_nil_iff_forall_not_mem]
    simp only [mem_freshResponders haccount, not_exists, not_and]
    constructor
    · intro h a hne hheard
      exact h (.v4 a) a hne rfl hheard
    · intro h x a hne hx hheard
      exact h a hne hheard
  have hsome : (∃ a, run.Probed ⟨addr, len⟩ provider.ports a) ↔ (NetworkReachability.ofProbed (freshResponders summary)
      (summary.probedAddresses.map .v4) summary.probesNotSent reasons).probed.Nonempty := by
    simp only [Finset.Nonempty, hprobed]
    constructor
    · rintro ⟨a, ha⟩
      exact ⟨.v4 a, a, rfl, ha⟩
    · rintro ⟨x, a, -, ha⟩
      exact ⟨a, ha⟩
  have hsorted := List.pairwise_insertionSort (fun a b : IpAddr => a ≤ b)
    (((summary.activeHosts.filter fun host => host.liveness == .answered).filter fun host =>
      !host.ip.isUnspecified).map fun host => IpAddr.v4 host.ip)
  refine ⟨fun x => mem_freshResponders haccount, nodup_destutter_sorted hsorted,
    hsorted.sublist (List.destutter_sublist _ _), hprobed, ?_, ?_⟩
  · rw [state_eq_reachable]
    exact (not_congr hempty).trans not_not
  · rw [hsome, ← hempty, state_probedUnreachable_iff, List.isEmpty_iff]
    rfl

/-! ## What is attributed to a probe -/

theorem isUnspecified_iff {a : Ipv4Addr} : a.isUnspecified = true ↔ a = 0 := by
  rw [Ipv4Addr.isUnspecified, beq_iff_eq]
  exact ⟨fun hzero => BitVec.eq_of_toNat_eq hzero, fun hzero => by rw [hzero]; rfl⟩

/-- Which of the records about a host says of an address that a probe established it. -/
theorem mem_evidence_probed {host : HostResult} {vantage : Text} {now : Nat} {device : DeviceKey} {address : IpAddr}
    {source : EvidenceSource} (hsource : source = .tcpProbe ∨ source = .icmpProbe) :
    (∃ ev ∈ host.evidence vantage now, ev.fact = .deviceAddress device address ∧ ev.source = source) ↔
      host.ip ≠ 0 ∧ host.macAddress = none ∧ device = .address (.v4 host.ip) ∧ address = .v4 host.ip ∧
        (source = .tcpProbe ↔ host.openPorts ≠ []) := by
  have hlabel : host.macAddress = none →
      (host.addressSource = source ↔ (source = .tcpProbe ↔ host.openPorts ≠ [])) := by
    intro hmac
    unfold HostResult.addressSource
    rw [hmac]
    cases host.openPorts <;> rcases hsource with rfl | rfl <;> simp
  constructor
  · rintro ⟨ev, hmem, hfact, rfl⟩
    unfold HostResult.evidence at hmem
    cases hdevice : host.device with
    | none =>
      rw [hdevice] at hmem
      cases hmem
    | some own =>
      rw [hdevice, Option.elim_some, HostResult.evidenceOf] at hmem
      simp only [List.mem_append, List.mem_map, Option.mem_toList, Option.map_eq_some_iff] at hmem
      rcases hmem with ((haddress | ⟨v6, -, rfl⟩) | ⟨name, -, rfl⟩) | ⟨vendor, -, rfl⟩
      · split_ifs at haddress with hspecified
        · cases haddress
        · obtain rfl := List.mem_singleton.mp haddress
          cases hfact
          cases hmac : host.macAddress with
          | some mac =>
            have hcache : host.addressSource = .arpCache := by rw [HostResult.addressSource, hmac]
            change host.addressSource = _ ∨ host.addressSource = _ at hsource
            rw [hcache] at hsource
            rcases hsource with hsource | hsource <;> cases hsource
          | none =>
            rw [HostResult.device, hmac] at hdevice
            dsimp only at hdevice
            rw [if_neg hspecified] at hdevice
            exact ⟨fun hzero => hspecified (isUnspecified_iff.mpr hzero), rfl, (Option.some.inj hdevice).symm, rfl,
              (hlabel hmac).mp rfl⟩
      · rcases hsource with hsource | hsource <;> cases hsource
      · cases hfact
      · cases hfact
  · rintro ⟨hip, hmac, rfl, rfl, hopen⟩
    have hspecified : ¬ host.ip.isUnspecified = true := fun h => hip (isUnspecified_iff.mp h)
    have hdevice : host.device = some (.address (.v4 host.ip)) := by
      rw [HostResult.device, hmac]
      exact if_neg hspecified
    refine ⟨HostEnrichmentProvider.record vantage now (.deviceAddress (.address (.v4 host.ip)) (.v4 host.ip))
      host.addressSource, ?_, rfl, (hlabel hmac).mpr hopen⟩
    rw [HostResult.evidence, hdevice, Option.elim_some, HostResult.evidenceOf, if_neg hspecified]
    exact List.mem_append_left _ (List.mem_append_left _ (List.mem_append_left _ List.mem_cons_self))

/-- Which addresses a probe is credited with. -/
theorem mem_discover_probed (provider : HostEnrichmentProvider) (vantage : Vantage) (addr : Ipv4Addr) (len : Fin 33)
    (target : Option IpAddr) (now : Nat) (run : SweepRun) (sources : NameSources) (device : DeviceKey)
    (address : IpAddr) {source : EvidenceSource} (hsource : source = .tcpProbe ∨ source = .icmpProbe) :
    (∃ ev ∈ (provider.discover ⟨vantage, some (.v4 addr len), target⟩ now run sources).evidence,
      ev.fact = .deviceAddress device address ∧ ev.source = source) ↔
    ∃ a, a ≠ 0 ∧ device = .address (.v4 a) ∧ address = .v4 a ∧ run.Heard ⟨addr, len⟩ provider.ports a ∧
      a ∉ seedHosts ⟨addr, len⟩ (arpMap ⟨addr, len⟩ run.neighbours) ∧
      (source = .tcpProbe ↔ run.TcpAccepted provider.ports a) := by
  have haccount := scanSubnetExt_account ⟨addr, len⟩ provider.ports true run sources
  have hflat : (∃ ev ∈ (provider.discover ⟨vantage, some (.v4 addr len), target⟩ now run sources).evidence,
      ev.fact = .deviceAddress device address ∧ ev.source = source) ↔
      ∃ host ∈ (scanSubnetExt ⟨addr, len⟩ provider.ports true run sources).activeHosts,
        ∃ ev ∈ host.evidence vantage.interface now, ev.fact = .deviceAddress device address ∧ ev.source = source := by
    constructor
    · rintro ⟨ev, hev, hsays⟩
      obtain ⟨host, hhost, hmem⟩ := List.mem_flatMap.mp hev
      exact ⟨host, hhost, ev, hmem, hsays⟩
    · rintro ⟨host, hhost, ev, hmem, hsays⟩
      exact ⟨ev, List.mem_flatMap.mpr ⟨host, hhost, hmem⟩, hsays⟩
  rw [hflat]
  simp only [mem_evidence_probed hsource]
  have hhost : ∀ host ∈ (scanSubnetExt ⟨addr, len⟩ provider.ports true run sources).activeHosts, host.ip ≠ 0 →
      (host.macAddress.isSome = true ↔ host.ip ∈ seedHosts ⟨addr, len⟩ (arpMap ⟨addr, len⟩ run.neighbours)) ∧
      (host.openPorts ≠ [] ↔ host.ip ∈ Ipv4Net.hosts ⟨addr, len⟩ ∧ run.TcpAccepted provider.ports host.ip) ∧
      (host.ip ∈ seedHosts ⟨addr, len⟩ (arpMap ⟨addr, len⟩ run.neighbours) ∨
        run.Heard ⟨addr, len⟩ provider.ports host.ip) := by
    intro host hmem hip
    obtain ⟨known, hlook, hsame⟩ := known_of_mem_activeHosts _ _ _ _ _ hmem hip
    have hknown := known_sweepSubnet ⟨addr, len⟩ provider.ports run host.ip
    rw [hsame.macAddress, hsame.openPorts]
    exact ⟨hknown.hardware known hlook, hknown.openPorts known hlook,
      hknown.listed.mp (by rw [Option.mem_def.mp hlook]; rfl)⟩
  constructor
  · rintro ⟨host, hmem, hip, hmac, hdevice, haddress, hopen⟩
    obtain ⟨hhardware, hports, hlisted⟩ := hhost host hmem hip
    have huncached : host.ip ∉ seedHosts ⟨addr, len⟩ (arpMap ⟨addr, len⟩ run.neighbours) := by
      rw [← hhardware, hmac]
      decide
    have hheard := hlisted.resolve_left huncached
    exact ⟨host.ip, hip, hdevice, haddress, hheard, huncached,
      hopen.trans (hports.trans (and_iff_right hheard.1))⟩
  · rintro ⟨a, hne, hdevice, haddress, hheard, huncached, hopen⟩
    obtain ⟨host, hmem, rfl, -⟩ := (haccount.answered a hne).mpr hheard
    obtain ⟨hhardware, hports, -⟩ := hhost host hmem hne
    rw [← hhardware, Bool.not_eq_true, Option.isSome_eq_false_iff, Option.isNone_iff_eq_none] at huncached
    exact ⟨host, hmem, hne, huncached, hdevice, haddress,
      hopen.trans (hports.trans (and_iff_right hheard.1)).symm⟩

/-- **What a probe is credited with.** The addresses recorded as a TCP probe's are those that accepted a connection in
this run, and those recorded as an ICMP probe's the others that were heard from in it; either only where the neighbour
cache has no hardware address for the device. -/
theorem enrich_attribution (provider : HostEnrichmentProvider) (vantage : Vantage) (addr : Ipv4Addr) (len : Fin 33)
    (target : Option IpAddr) (now : Nat) (run : SweepRun) (sources : NameSources) (device : DeviceKey)
    (address : IpAddr) :
    let evidence := (provider.discover ⟨vantage, some (.v4 addr len), target⟩ now run sources).evidence
    let cached := seedHosts ⟨addr, len⟩ (arpMap ⟨addr, len⟩ run.neighbours)
    ((∃ ev ∈ evidence, ev.fact = .deviceAddress device address ∧ ev.source = .tcpProbe) ↔
      ∃ a, a ≠ 0 ∧ device = .address (.v4 a) ∧ address = .v4 a ∧ run.Heard ⟨addr, len⟩ provider.ports a ∧ a ∉ cached ∧
        run.TcpAccepted provider.ports a) ∧
    ((∃ ev ∈ evidence, ev.fact = .deviceAddress device address ∧ ev.source = .icmpProbe) ↔
      ∃ a, a ≠ 0 ∧ device = .address (.v4 a) ∧ address = .v4 a ∧ run.Heard ⟨addr, len⟩ provider.ports a ∧ a ∉ cached ∧
        ¬ run.TcpAccepted provider.ports a) := by
  intro evidence cached
  have htcp := mem_discover_probed provider vantage addr len target now run sources device address (.inl rfl)
  have hicmp := mem_discover_probed provider vantage addr len target now run sources device address (.inr rfl)
  simp only [true_iff, reduceCtorEq, false_iff] at htcp hicmp
  exact ⟨htcp, hicmp⟩

end Idnx
