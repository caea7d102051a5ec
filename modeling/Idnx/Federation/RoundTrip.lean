import Idnx.Federation.Wire
import Idnx.Providers.Passive

/-!
# Evidence that crosses the wire

Which records survive being published and read back: every record the program's own decoders and providers emit,
except a link-layer capability whose label the receiving side does not know (`wire_round_trip_iff`). The labels are
written once where LLDP frames are decoded (`convertNeighbor`) and once where they are read back (`knownLabels`), and
the two lists differ: `bridge_label_refused`.

* `toFact_fromFact`, `sourceFromWire_sourceWire`, ...: each table reads back what it writes.
-/

namespace Idnx

/-! ## What the program emits -/

/-- A hardware identity is always made by `DeviceKey::mac`, in lower case. -/
def DeviceKey.Emitted : DeviceKey → Prop
  | .mac text => text.toAsciiLowercase = text
  | _ => True

/-- The identities, and the transport of a service, as every decoder and provider writes them. -/
def Fact.Emitted : Fact → Prop
  | .deviceAddress device _ => device.Emitted
  | .deviceHostname device _ => device.Emitted
  | .deviceVendor device _ => device.Emitted
  | .deviceDescription device _ => device.Emitted
  | .deviceRoleSignal device _ => device.Emitted
  | .deviceCapability device _ _ => device.Emitted
  | .gatewayFor device _ => device.Emitted
  | .routesTo device _ _ => device.Emitted
  | .attachedTo device _ => device.Emitted
  | .observedBehind device via => device.Emitted ∧ via.Emitted
  | .forwardsToward device _ _ previous => device.Emitted ∧ ∀ p ∈ previous, p.Emitted
  | .opaqueBoundary device _ => device.Emitted
  | .service _ _ protocol _ => protocol = ("tcp" : Text) ∨ protocol = ("udp" : Text)
  | _ => True

/-- A record stamped by this machine's clock, whose seconds are a signed word. -/
structure TopologyEvidence.Emitted (ev : TopologyEvidence) : Prop where
  fact : ev.fact.Emitted
  clock : ev.observedAt / 10 ^ 9 < 2 ^ 63

/-! ### Link-layer neighbours -/

theorem DeviceKey.emitted_ofMac (raw : Text) : (DeviceKey.ofMac raw).Emitted := raw.toAsciiLowercase_idem

/-- Whatever a neighbour announces, its evidence is of the kind the program emits. -/
theorem emitted_of_mem_convertNeighbor {interface : Text} {now : Nat} {n : LldpNeighbor} {ev : TopologyEvidence}
    (hnow : now / 10 ^ 9 < 2 ^ 63) (h : ev ∈ convertNeighbor interface now n) : ev.Emitted := by
  have hkey := DeviceKey.emitted_ofMac n.chassisId
  simp only [convertNeighbor, List.mem_append, List.mem_map] at h
  rcases h with ((⟨_, -, rfl⟩ | ⟨_, -, rfl⟩) | ⟨_, -, rfl⟩) | ⟨_, -, rfl⟩ <;> exact ⟨hkey, hnow⟩

/-! ## Reading back -/

/-- The addresses a fact spells out. -/
def Fact.shownAddresses : Fact → List IpAddr
  | .deviceAddress device address => address :: device.address?.toList
  | .deviceHostname device _ => device.address?.toList
  | .deviceVendor device _ => device.address?.toList
  | .deviceDescription device _ => device.address?.toList
  | .deviceRoleSignal device _ => device.address?.toList
  | .deviceCapability device _ _ => device.address?.toList
  | .gatewayFor device _ => device.address?.toList
  | .routesTo device _ nextHop => device.address?.toList ++ nextHop.toList
  | .attachedTo device _ => device.address?.toList
  | .observedBehind device via => device.address?.toList ++ via.address?.toList
  | .forwardsToward device toward _ previous =>
    toward :: device.address?.toList ++ (previous.bind DeviceKey.address?).toList
  | .opaqueBoundary device _ => device.address?.toList
  | .service address _ _ _ => [address]
  | .resolvedAs _ address => [address]
  | _ => []

/-- The prefixes a fact spells out. -/
def Fact.shownPrefixes : Fact → List IpNet
  | .network net => [net]
  | .vlanNetwork _ net => [net]
  | .interfaceNetwork _ net => [net]
  | .gatewayFor _ net => [net]
  | .routesTo _ net _ => [net]
  | .attachedTo _ net => [net]
  | _ => []

/-- The library reads the addresses and prefixes of a fact as it printed them. -/
structure ReadsBack (lib : NetText) (fact : Fact) : Prop where
  address : ∀ a ∈ fact.shownAddresses, lib.parseAddress a.toText = some a
  net : ∀ net ∈ fact.shownPrefixes, lib.parsePrefix net.toText = some net

section Tables

variable {lib : NetText}

theorem sourceFromWire_sourceWire (source : EvidenceSource) :
    sourceFromWire lib (sourceWire source) = .ok source := by
  refine fromWireName_name lib sourceWire (by decide) ?_
  cases source <;> decide

theorem confidenceFromWire_confidenceWire (confidence : Confidence) :
    confidenceFromWire lib (confidenceWire confidence) = .ok confidence := by
  refine fromWireName_name lib confidenceWire (by decide) ?_
  cases confidence <;> decide

theorem capabilityFromWire_capabilityWire (capability : Capability) :
    capabilityFromWire lib (capabilityWire capability) = .ok capability := by
  refine fromWireName_name lib capabilityWire (by decide) ?_
  cases capability <;> decide

theorem protocolFromWire_of_emitted {protocol : Text} (h : protocol = ("tcp" : Text) ∨ protocol = ("udp" : Text)) :
    protocolFromWire lib protocol = .ok protocol := by
  refine fromWireName_name lib id (by decide) ?_
  simpa using h

theorem roleSignalFromWire_label (label : Text) :
    roleSignalFromWire lib (roleSignalWire (.linkLayerCapability label)).1
      (roleSignalWire (.linkLayerCapability label)).2 =
      if label ∈ knownLabels then .ok (.linkLayerCapability label)
      else .error (.unknown (("link-layer capability " : Text) ++ debugText lib label)) := rfl

/-- A role signal reads back unless it carries a label nobody knows. -/
theorem roleSignalFromWire_roleSignalWire {signal : RoleSignal}
    (h : ∀ label, signal = .linkLayerCapability label → label ∈ knownLabels) :
    roleSignalFromWire lib (roleSignalWire signal).1 (roleSignalWire signal).2 = .ok signal := by
  cases signal with
  | linkLayerCapability label => rw [roleSignalFromWire_label, if_pos (h label rfl)]
  | _ => rfl

end Tables

section Facts

variable {lib : NetText}

theorem parseAddress_toText {addr : IpAddr} (h : lib.parseAddress addr.toText = some addr) :
    parseAddress lib addr.toText = .ok addr := by rw [parseAddress, h]

theorem parsePrefix_toText {net : IpNet} (h : lib.parsePrefix net.toText = some net) :
    parsePrefix lib net.toText = .ok net := by rw [parsePrefix, h]

theorem toKey_fromKey {key : DeviceKey} (hem : key.Emitted)
    (hread : ∀ a ∈ key.address?.toList, lib.parseAddress a.toText = some a) :
    (WireDevice.fromKey key).toKey lib = .ok key := by
  cases key with
  | mac text => exact congrArg (fun t => Except.ok (DeviceKey.mac t)) hem
  | address addr =>
    rw [WireDevice.fromKey, WireDevice.toKey, parseAddress_toText (hread addr (by simp [DeviceKey.address?]))]
    rfl
  | scopedAddress addr zone =>
    rw [WireDevice.fromKey, WireDevice.toKey, parseAddress_toText (hread addr (by simp [DeviceKey.address?]))]
    rfl

theorem optionally_map {α β : Type} {f : α → Except WireError β} {g : β → α} {o : Option β}
    (h : ∀ b ∈ o, f (g b) = .ok b) : optionally f (o.map g) = .ok o := by
  cases o with
  | none => rfl
  | some b =>
    rw [Option.map_some, optionally, h b rfl]
    rfl

/-- A fact reads back, unless it is a link-layer capability under a label nobody knows. -/
theorem toFact_fromFact {fact : Fact} (hem : fact.Emitted) (hread : ReadsBack lib fact)
    (hlabel : ∀ device label, fact = .deviceRoleSignal device (.linkLayerCapability label) → label ∈ knownLabels) :
    (WireFact.fromFact fact).toFact lib = .ok fact := by
  obtain ⟨ha, hn⟩ := hread
  cases fact with
  | network net =>
    rw [WireFact.fromFact, WireFact.toFact, parsePrefix_toText (hn net (by simp [Fact.shownPrefixes]))]
    rfl
  | vlan id => rfl
  | vlanNetwork id net =>
    rw [WireFact.fromFact, WireFact.toFact, parsePrefix_toText (hn net (by simp [Fact.shownPrefixes]))]
    rfl
  | interfaceNetwork interface net =>
    rw [WireFact.fromFact, WireFact.toFact, parsePrefix_toText (hn net (by simp [Fact.shownPrefixes]))]
    rfl
  | deviceAddress device address =>
    have hkey := toKey_fromKey hem fun a h => ha a (by simp [Fact.shownAddresses, h])
    rw [WireFact.fromFact, WireFact.toFact, hkey, parseAddress_toText (ha address (by simp [Fact.shownAddresses]))]
    rfl
  | deviceHostname device hostname =>
    rw [WireFact.fromFact, WireFact.toFact, toKey_fromKey hem ha]
    rfl
  | deviceVendor device vendor =>
    rw [WireFact.fromFact, WireFact.toFact, toKey_fromKey hem ha]
    rfl
  | deviceDescription device text =>
    rw [WireFact.fromFact, WireFact.toFact, toKey_fromKey hem ha]
    rfl
  | deviceRoleSignal device signal =>
    have hsignal : ∀ label, signal = .linkLayerCapability label → label ∈ knownLabels := by
      rintro label rfl
      exact hlabel device label rfl
    rw [WireFact.fromFact, WireFact.toFact, toKey_fromKey hem ha, roleSignalFromWire_roleSignalWire hsignal]
    rfl
  | deviceCapability device capability detail =>
    rw [WireFact.fromFact, WireFact.toFact, toKey_fromKey hem ha, capabilityFromWire_capabilityWire]
    rfl
  | gatewayFor device net =>
    rw [WireFact.fromFact, WireFact.toFact, toKey_fromKey hem ha,
      parsePrefix_toText (hn net (by simp [Fact.shownPrefixes]))]
    rfl
  | routesTo device net nextHop =>
    have hkey := toKey_fromKey hem fun a h => ha a (List.mem_append_left _ h)
    have hhop : ∀ a ∈ nextHop, parseAddress lib a.toText = .ok a := fun a h =>
      parseAddress_toText (ha a (List.mem_append_right _ (by simpa using h)))
    rw [WireFact.fromFact, WireFact.toFact, hkey, parsePrefix_toText (hn net (by simp [Fact.shownPrefixes])),
      optionally_map hhop]
    rfl
  | attachedTo device net =>
    rw [WireFact.fromFact, WireFact.toFact, toKey_fromKey hem ha,
      parsePrefix_toText (hn net (by simp [Fact.shownPrefixes]))]
    rfl
  | bridgeLink bridgeId rootId port => rfl
  | observedBehind device via =>
    have hdevice := toKey_fromKey hem.1 fun a h => ha a (List.mem_append_left _ h)
    have hvia := toKey_fromKey hem.2 fun a h => ha a (List.mem_append_right _ h)
    rw [WireFact.fromFact, WireFact.toFact, hdevice, hvia]
    rfl
  | forwardsToward device toward distance previous =>
    have hkey := toKey_fromKey hem.1 fun a h => ha a (by simp [Fact.shownAddresses, Option.mem_toList.mp h])
    have hprevious : ∀ p ∈ previous, (WireDevice.fromKey p).toKey lib = .ok p := by
      rintro p rfl
      exact toKey_fromKey (hem.2 p rfl) fun a h => ha a (by simp [Fact.shownAddresses, Option.mem_toList.mp h])
    rw [WireFact.fromFact, WireFact.toFact, hkey, parseAddress_toText (ha toward (by simp [Fact.shownAddresses])),
      optionally_map hprevious]
    rfl
  | opaqueBoundary device why =>
    rw [WireFact.fromFact, WireFact.toFact, toKey_fromKey hem ha]
    rfl
  | service address port protocol detail =>
    rw [WireFact.fromFact, WireFact.toFact, parseAddress_toText (ha address (by simp [Fact.shownAddresses])),
      protocolFromWire_of_emitted hem]
    rfl
  | resolvedAs name address =>
    rw [WireFact.fromFact, WireFact.toFact, parseAddress_toText (ha address (by simp [Fact.shownAddresses]))]
    rfl

/-- A label nobody knows makes the whole record unreadable. -/
theorem toFact_fromFact_of_unknown (lib : NetText) (device : DeviceKey) {label : Text} (h : label ∉ knownLabels) :
    ∃ e, (WireFact.fromFact (.deviceRoleSignal device (.linkLayerCapability label))).toFact lib = .error e := by
  rw [WireFact.fromFact, WireFact.toFact, roleSignalFromWire_label, if_neg h]
  cases (WireDevice.fromKey device).toKey lib with
  | error e => exact ⟨e, rfl⟩
  | ok key => exact ⟨_, rfl⟩

end Facts

/-- The record as a receiver holds it: the time cut to whole seconds, and the receiver's note of where it
came from. -/
def TopologyEvidence.received (ev : TopologyEvidence) (origin : PeerOrigin) : TopologyEvidence :=
  { ev with observedAt := ev.observedAt / 10 ^ 9 * 10 ^ 9, origin := some origin }

/-- The record survives the wire: it can be read, and is the same record but for its time and origin. -/
def SurvivesWire (lib : NetText) (ev : TopologyEvidence) : Prop :=
  ∃ back, (WireEvidence.fromEvidence ev).toEvidence lib = .ok back ∧ ∀ origin,
  back.fromPeer origin = ev.received origin

theorem toEvidence_fromEvidence {lib : NetText} {ev : TopologyEvidence} (hclock : ev.observedAt / 10 ^ 9 < 2 ^ 63)
    (hfact : (WireFact.fromFact ev.fact).toFact lib = .ok ev.fact) :
    (WireEvidence.fromEvidence ev).toEvidence lib =
      .ok { ev with observedAt := ev.observedAt / 10 ^ 9 * 10 ^ 9, origin := none } := by
  have htime : (UInt64.ofNat (ev.observedAt / 10 ^ 9)).toNat = ev.observedAt / 10 ^ 9 := by
    rw [UInt64.toNat_ofNat', Nat.mod_eq_of_lt (by omega)]
  have hread : (WireEvidence.fromEvidence ev).read lib =
      .ok { ev with observedAt := ev.observedAt / 10 ^ 9 * 10 ^ 9, origin := none } := by
    simp only [WireEvidence.read, WireEvidence.fromEvidence, hfact, sourceFromWire_sourceWire,
      confidenceFromWire_confidenceWire, htime]
    rfl
  have hfits : (WireEvidence.fromEvidence ev).observedAt.toNat < 2 ^ 63 := by
    rw [WireEvidence.fromEvidence, htime]
    exact hclock
  rw [WireEvidence.toEvidence, hread]
  exact if_pos hfits

theorem not_survivesWire_of_unknown {lib : NetText} {ev : TopologyEvidence} {device : DeviceKey} {label : Text}
    (hfact : ev.fact = .deviceRoleSignal device (.linkLayerCapability label)) (hlabel : label ∉ knownLabels) :
    ¬ SurvivesWire lib ev := by
  rintro ⟨back, hback, -⟩
  obtain ⟨e, he⟩ := toFact_fromFact_of_unknown lib device hlabel
  have hread : (WireEvidence.fromEvidence ev).read lib = .error e := by
    rw [WireEvidence.read, WireEvidence.fromEvidence, hfact, he]
    rfl
  rw [WireEvidence.toEvidence, hread] at hback
  cases hback

/-- **What survives the wire.** Of the records the program emits, exactly those that are not a link-layer capability
under a label the receiving side does not know. -/
theorem wire_round_trip_iff (lib : NetText) (ev : TopologyEvidence) (hem : ev.Emitted)
    (hread : ReadsBack lib ev.fact) :
    SurvivesWire lib ev ↔
      ∀ device label, ev.fact = .deviceRoleSignal device (.linkLayerCapability label) → label ∈ knownLabels := by
  constructor
  · intro h device label hfact
    by_contra hlabel
    exact not_survivesWire_of_unknown hfact hlabel h
  · intro hlabel
    exact ⟨_, toEvidence_fromEvidence hem.clock (toFact_fromFact hem.fact hread hlabel), fun origin => rfl⟩

/-- A library that knows one address and one prefix. -/
def lanText : NetText where
  parseAddress := fun text => if text = ("10.0.0.1" : Text) then some (.v4 (.new 10 0 0 1)) else none
  parsePrefix := fun text => if text = ("10.0.0.0/24" : Text) then some (.v4 (.new 10 0 0 0) 24) else none
  printable := fun c => 32 ≤ c.toNat ∧ c.toNat < 127

/-- The gateway of a lease, seen half a second after a full one. -/
def lanGateway : TopologyEvidence where
  fact := .gatewayFor (.address (.v4 (.new 10 0 0 1))) (.v4 (.new 10 0 0 0) 24)
  source := .dhcpLease
  confidence := .observed
  vantage := "en0"
  observedAt := 1700000000500000000

theorem lanGateway_survives : lanGateway.Emitted ∧ ReadsBack lanText lanGateway.fact ∧
    SurvivesWire lanText lanGateway := by
  have hem : lanGateway.Emitted := ⟨trivial, by decide⟩
  have hread : ReadsBack lanText lanGateway.fact := ⟨by decide, by decide⟩
  exact ⟨hem, hread, (wire_round_trip_iff lanText lanGateway hem hread).mpr (by intro device label h; cases h)⟩

/-- A switch announces over LLDP that it bridges, and the record the program makes of it is one its peers refuse. -/
theorem bridge_label_refused :
    ∃ ev ∈ convertNeighbor "en0" 1700000000000000000
        ⟨"00:1b:54:aa:00:01", "Gi0/1", none, none, none, lldpCapabilities 0x0004⟩,
      ev.Emitted ∧ ReadsBack lanText ev.fact ∧ ¬ SurvivesWire lanText ev := by
  have hmem : ⟨.deviceRoleSignal (.ofMac "00:1b:54:aa:00:01") (.linkLayerCapability "Bridge/Switch"), .lldp,
      .advertised, "en0", 1700000000000000000, some "port Gi0/1", none⟩ ∈ convertNeighbor "en0" 1700000000000000000
        ⟨"00:1b:54:aa:00:01", "Gi0/1", none, none, none, lldpCapabilities 0x0004⟩ := by decide
  refine ⟨_, hmem, emitted_of_mem_convertNeighbor (by decide) hmem, ⟨by decide, by decide⟩, ?_⟩
  exact not_survivesWire_of_unknown rfl (by decide)

end Idnx
