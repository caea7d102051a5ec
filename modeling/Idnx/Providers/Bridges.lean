import Idnx.Probes.SpanningTree
import Idnx.Providers.Passive
import Idnx.Topology.Counts
import Idnx.Topology.Networks
import Idnx.Topology.Order
import Mathlib.Data.Set.Function

/-!
# Bridges

A switch sends one spanning-tree frame for each of its ports and, under PVST+, for each VLAN. Its identifier changes
with the priority and the instance, and the Ethernet source with the port; the hardware address inside the identifier
does not. The decoder prints the identifier as text and the graph reads the address back from the text
(`bridgeIdentity_bridgeIdText`).

* `one_switch_per_bridge_mac`: whatever BPDUs are captured, the switches are the hardware addresses in the
  identifiers.
-/

namespace Idnx

open Outcome

/-! ## The identifier as text -/

theorem bridgeIdentity_of_formatMac {priority : Text} (h : '.' ∉ priority) {mac : Bytes} (hmac : mac.length = 6) :
    bridgeIdentity (priority ++ '.' :: formatMac mac) = some (.mac (formatMac mac)) := by
  have hne : mac ≠ [] := by
    rintro rfl
    cases hmac
  have hoctets : (mac.map hexByte).all (fun o => o.length == 2 && o.all fun c => (Text.hexDigit c).isSome) =
    true := by
    rw [List.all_map, List.all_eq_true]
    intro b _
    rw [Function.comp_apply, Bool.and_eq_true, List.all_eq_true]
    exact ⟨rfl, forall_mem_hexByte (P := fun c => (Text.hexDigit c).isSome = true) (by decide) b⟩
  unfold bridgeIdentity
  rw [Text.splitOnce_append h]
  dsimp only
  rw [split_formatMac hne, hoctets, List.length_map, if_neg (by simp [hmac]), DeviceKey.ofMac,
    toAsciiLowercase_formatMac]

/-- The identifier that is printed names the hardware it was printed for. -/
theorem bridgeIdentity_bridgeIdText {bytes : Bytes} (h : bytes.length = 8) :
    bridgeIdentity (bridgeIdText bytes) = some (.mac (formatMac (bytes.drop 2))) := by
  refine bridgeIdentity_of_formatMac (fun hdot => ?_) (by rw [List.length_drop]; omega)
  have hdigit := Nat.isDigit_of_mem_toDigits (by decide) (by decide) hdot
  exact absurd hdigit (by decide)

/-! ## Spanning-tree frames -/

/-- The hardware address in the bridge identifier of a BPDU. -/
def bridgeMac (pdu : Bytes) : Bytes := (pdu.drop 19).take 6

/-- The hardware address in the root identifier. -/
def rootMac (pdu : Bytes) : Bytes := (pdu.drop 7).take 6

/-- A captured spanning-tree frame: an 802.1D BPDU, or Cisco's behind a SNAP header, and the Ethernet source. -/
inductive BridgeFrame where
  | stp (sourceMac : Text) (body : Bytes)
  | pvst (sourceMac : Text) (payload : Bytes)

namespace BridgeFrame

def sourceMac : BridgeFrame → Text
  | .stp sourceMac _ => sourceMac
  | .pvst sourceMac _ => sourceMac

/-- The decoded facts. -/
def decode : BridgeFrame → Outcome Unit (List FrameFact)
  | .stp sourceMac body => do
    let bridge ← (decodeBpdu sourceMac body).toOption
    return bridge.toList
  | .pvst sourceMac payload => decodePvst sourceMac payload

/-- The BPDU, if the frame has one. -/
def pdu : BridgeFrame → Option Bytes
  | .stp _ body => if IsBpdu body then some body else none
  | .pvst _ payload =>
    if 8 ≤ payload.length ∧ (payload.drop 3).take 3 = [0x00, 0x00, 0x0C] ∧ readU16 payload 6 = some 0x010B ∧
        IsBpdu (payload.drop 8) then
      some (payload.drop 8)
    else none

/-- The hardware addresses in the bridge and the root identifier. -/
def macs (f : BridgeFrame) : List Bytes :=
  match f.pdu with
  | some pdu => [bridgeMac pdu, rootMac pdu]
  | none => []

end BridgeFrame

/-- What is decoded from a frame: the statement of its BPDU, and the VLAN whose instance it belongs to, if it
has one. -/
theorem BridgeFrame.decode_eq (f : BridgeFrame) : ∃ vlan, f.decode = .ok (match f.pdu with
    | some pdu => bpduFact f.sourceMac pdu vlan :: vlan.toList.map .vlan
    | none => []) := by
  cases f with
  | stp sourceMac body =>
    refine ⟨none, ?_⟩
    rw [decode, decodeBpdu_eq, ok_bind, pdu]
    split_ifs <;> rfl
  | pvst sourceMac payload =>
    obtain ⟨vlan, hvlan, -⟩ := returns_pvstOriginatingVlan (ε := Unit) (payload.drop 8)
    refine ⟨vlan, ?_⟩
    rw [decode, decodePvst_eq sourceMac hvlan, pdu]
    split_ifs <;> rfl

/-! ## The records of captured frames -/

/-- The frames heard on an interface at a time, and the scope under examination. -/
structure BridgeCapture where
  interface : Text
  now : Nat
  scope : Option IpNet
  frames : List BridgeFrame

/-- The facts of a frame. -/
def BridgeFrame.facts (f : BridgeFrame) : List FrameFact :=
  match f.decode with
  | .ok facts => facts
  | _ => []

/-- The evidence a capture gives. -/
def BridgeCapture.records (c : BridgeCapture) : List TopologyEvidence :=
  convert c.interface c.now (c.frames.flatMap BridgeFrame.facts) c.scope

/-- The frames heard. -/
def framesOf (captures : List BridgeCapture) : List BridgeFrame := captures.flatMap BridgeCapture.frames

/-- The evidence of all captures. -/
def recordsOfBridges (captures : List BridgeCapture) : List TopologyEvidence := captures.flatMap BridgeCapture.records

/-- What a record of a BPDU is about. -/
inductive StatedByBpdu (pdu : Bytes) : Fact → Prop where
  | signal : StatedByBpdu pdu (.deviceRoleSignal (.mac (formatMac (bridgeMac pdu))) .spanningTreeBridge)
  | link {bridgeId rootId : Text} {port : Option Text} :
    bridgeIdentity bridgeId = some (.mac (formatMac (bridgeMac pdu))) →
    bridgeIdentity rootId = some (.mac (formatMac (rootMac pdu))) →
    StatedByBpdu pdu (.bridgeLink bridgeId rootId port)
  | vlan {id : UInt16} : StatedByBpdu pdu (.vlan id)

theorem isBpdu_of_pdu {f : BridgeFrame} {pdu : Bytes} (h : f.pdu = some pdu) : IsBpdu pdu := by
  cases f with
  | stp sourceMac body =>
    rw [BridgeFrame.pdu] at h
    split_ifs at h with hpdu
    exact Option.some.inj h ▸ hpdu
  | pvst sourceMac payload =>
    rw [BridgeFrame.pdu] at h
    split_ifs at h with hpdu
    exact Option.some.inj h ▸ hpdu.2.2.2

theorem bridgeIdentity_at {pdu : Bytes} (start : Nat) (h : start + 8 ≤ pdu.length) :
    bridgeIdentity (bridgeIdText ((pdu.drop start).take 8)) = some
    (.mac (formatMac ((pdu.drop (start + 2)).take 6))) := by
  rw [bridgeIdentity_bridgeIdText (by rw [List.length_take, List.length_drop]; omega), List.drop_take, List.drop_drop]

theorem mem_convertBpdu {interface : Text} {now : Nat} {scope : Option IpNet} {sourceMac : Text} {pdu : Bytes}
    {vlan : Option UInt16} (hpdu : IsBpdu pdu) {ev : TopologyEvidence}
    (h : ev ∈ convertFact interface now scope (bpduFact sourceMac pdu vlan)) :
    ev.origin = none ∧ StatedByBpdu pdu ev.fact := by
  have hlen := hpdu.1
  have hbridge := bridgeIdentity_at 17 (show 17 + 8 ≤ pdu.length by omega)
  have hroot := bridgeIdentity_at 5 (show 5 + 8 ≤ pdu.length by omega)
  rw [bpduFact, convertFact] at h
  unfold convertBridge at h
  dsimp only at h
  rw [hbridge, Option.getD_some, List.mem_cons, List.mem_singleton] at h
  rcases h with rfl | rfl
  · exact ⟨rfl, .signal⟩
  · exact ⟨rfl, .link hbridge hroot⟩

section Records

variable {captures : List BridgeCapture}

theorem mem_recordsOfBridges {ev : TopologyEvidence} :
    ev ∈ recordsOfBridges captures ↔
      ∃ c ∈ captures, ∃ f ∈ c.frames, ∃ fact ∈ f.facts, ev ∈ convertFact c.interface c.now c.scope fact := by
  simp only [recordsOfBridges, BridgeCapture.records, List.mem_flatMap, mem_convert]
  constructor
  · rintro ⟨c, hc, fact, ⟨f, hf, hfact⟩, hev⟩
    exact ⟨c, hc, f, hf, fact, hfact, hev⟩
  · rintro ⟨c, hc, f, hf, fact, hfact, hev⟩
    exact ⟨c, hc, fact, ⟨f, hf, hfact⟩, hev⟩

/-- Every record is this vantage's own, and stated by a BPDU that was heard. -/
theorem stated_of_mem {ev : TopologyEvidence} (h : ev ∈ recordsOfBridges captures) :
    ev.origin = none ∧ ∃ f ∈ framesOf captures, ∃ pdu, f.pdu = some pdu ∧ StatedByBpdu pdu ev.fact := by
  obtain ⟨c, hc, f, hf, fact, hfact, hev⟩ := mem_recordsOfBridges.mp h
  have hmem : f ∈ framesOf captures := List.mem_flatMap.mpr ⟨c, hc, hf⟩
  obtain ⟨vlan, hdecode⟩ := f.decode_eq
  rw [BridgeFrame.facts, hdecode] at hfact
  cases hpdu : f.pdu with
  | none =>
    rw [hpdu] at hfact
    cases hfact
  | some pdu =>
    rw [hpdu] at hfact
    rcases List.mem_cons.mp hfact with rfl | htag
    · obtain ⟨horigin, hstated⟩ := mem_convertBpdu (isBpdu_of_pdu hpdu) hev
      exact ⟨horigin, f, hmem, pdu, hpdu, hstated⟩
    · obtain ⟨id, -, rfl⟩ := List.mem_map.mp htag
      rw [convertFact, List.mem_singleton] at hev
      rw [hev]
      exact ⟨rfl, f, hmem, pdu, hpdu, .vlan⟩

/-- Every BPDU that was heard is reported as a link of its two bridges. -/
theorem link_of_heard {f : BridgeFrame} {pdu : Bytes} (hf : f ∈ framesOf captures) (hpdu : f.pdu = some pdu) :
    ∃ ev ∈ recordsOfBridges captures, ev.origin = none ∧ ∃ bridgeId rootId port,
      ev.fact = .bridgeLink bridgeId rootId port ∧ bridgeIdentity bridgeId = some (.mac (formatMac (bridgeMac pdu))) ∧
        bridgeIdentity rootId = some (.mac (formatMac (rootMac pdu))) := by
  obtain ⟨c, hc, hfc⟩ := List.mem_flatMap.mp hf
  obtain ⟨vlan, hdecode⟩ := f.decode_eq
  have hlen := (isBpdu_of_pdu hpdu).1
  have hfact : bpduFact f.sourceMac pdu vlan ∈ f.facts := by
    rw [BridgeFrame.facts, hdecode, hpdu]
    exact List.mem_cons_self
  have hmem : ∀ ev, ev ∈ convertFact c.interface c.now c.scope (bpduFact f.sourceMac pdu vlan) →
      ev ∈ recordsOfBridges captures := fun ev h => mem_recordsOfBridges.mpr ⟨c, hc, f, hfc, _, hfact, h⟩
  rw [bpduFact, convertFact] at hmem
  exact ⟨_, hmem _ (List.mem_cons_of_mem _ List.mem_cons_self), rfl, _, _, _, rfl, bridgeIdentity_at 17 (by omega),
    bridgeIdentity_at 5 (by omega)⟩

/-! ## The switches -/

theorem qualified_of_mem {ev : TopologyEvidence} (h : ev ∈ recordsOfBridges captures) : ev.qualified = ev.fact := by
  rw [TopologyEvidence.qualified, (stated_of_mem h).1]
  rfl

theorem devices_of_mem {ev : TopologyEvidence} (h : ev ∈ recordsOfBridges captures) {key : DeviceKey}
    (hkey : key ∈ ev.devices) :
    ev.fact = .deviceRoleSignal key .spanningTreeBridge ∧ ∃ f ∈ framesOf captures, ∃ mac ∈ f.macs,
      key = .mac (formatMac mac) := by
  obtain ⟨-, f, hf, pdu, hpdu, hstated⟩ := stated_of_mem h
  rw [TopologyEvidence.devices, qualified_of_mem h] at hkey
  generalize ev.fact = fact at hkey hstated ⊢
  cases hstated with
  | signal =>
    rw [List.mem_singleton.mp hkey]
    refine ⟨rfl, f, hf, bridgeMac pdu, ?_, rfl⟩
    rw [BridgeFrame.macs, hpdu]
    exact List.mem_cons_self
  | link => cases hkey
  | vlan => cases hkey

/-- The bridges that the records name are the hardware addresses in the identifiers. -/
theorem bridging_iff {k : DeviceKey} :
    Bridging (recordsOfBridges captures) k ↔ ∃ f ∈ framesOf captures, ∃ mac ∈ f.macs, k = .mac (formatMac mac) := by
  constructor
  · rintro ⟨ev, hev, hk⟩
    obtain ⟨horigin, f, hf, pdu, hpdu, hstated⟩ := stated_of_mem hev
    rw [TopologyEvidence.bridges, qualified_of_mem hev, horigin] at hk
    have hmacs : f.macs = [bridgeMac pdu, rootMac pdu] := by rw [BridgeFrame.macs, hpdu]
    generalize ev.fact = fact at hk hstated
    cases hstated with
    | link hbridge hroot =>
      simp only [Fact.bridges, hbridge, hroot, Option.map_some, Realm.of, qualifyDevice_local, List.mem_cons,
        List.not_mem_nil, or_false] at hk
      rcases hk with rfl | rfl
      · exact ⟨f, hf, bridgeMac pdu, by simp [hmacs], rfl⟩
      · exact ⟨f, hf, rootMac pdu, by simp [hmacs], rfl⟩
    | signal => cases hk
    | vlan => cases hk
  · rintro ⟨f, hf, mac, hmac, rfl⟩
    rw [BridgeFrame.macs] at hmac
    cases hpdu : f.pdu with
    | none =>
      rw [hpdu] at hmac
      cases hmac
    | some pdu =>
      rw [hpdu] at hmac
      obtain ⟨ev, hev, horigin, bridgeId, rootId, port, hfact, hbridge, hroot⟩ := link_of_heard hf hpdu
      refine ⟨ev, hev, ?_⟩
      rw [TopologyEvidence.bridges, qualified_of_mem hev, hfact, horigin]
      simp only [Fact.bridges, hbridge, hroot, Option.map_some, Realm.of, qualifyDevice_local, List.mem_cons,
        List.not_mem_nil, or_false] at hmac ⊢
      rcases hmac with rfl | rfl
      · exact .inl rfl
      · exact .inr rfl

/-- The one signal of a bridge. -/
theorem signalsOf_subset (captures : List BridgeCapture) (k : DeviceKey) :
    signalsOf (recordsOfBridges captures) k ⊆ {.spanningTreeBridge} := by
  intro s hs
  obtain ⟨ev, hev, j, hq, -⟩ := mem_signalsOf.mp hs
  have hdevice : j ∈ ev.devices := by
    rw [TopologyEvidence.devices, hq]
    exact List.mem_cons_self
  rw [qualified_of_mem hev, (devices_of_mem hev hdevice).1] at hq
  cases hq
  exact Finset.mem_singleton_self _

theorem not_claims {slot : Slot} {key : DeviceKey} : ¬Claims (recordsOfBridges captures) slot key := by
  rintro ⟨ev, hev, hclaim⟩
  obtain ⟨-, f, -, pdu, -, hstated⟩ := stated_of_mem hev
  have hq := qualified_of_mem hev
  unfold TopologyEvidence.qualified at hq
  rw [statedClaim, hq] at hclaim
  generalize ev.fact = fact at hclaim hstated
  cases hstated <;> cases hclaim

theorem coherent_records : Coherent (recordsOfBridges captures) where
  claims := fun _ _ _ h => absurd h not_claims
  lookups := fun _ _ _ _ h => absurd h not_claims
  answers := fun ev hev slot key h => absurd ⟨ev, hev, h⟩ not_claims
  domains := by
    intro ev hev key hkey x hx
    obtain ⟨-, f, -, mac, -, rfl⟩ := devices_of_mem hev hkey
    cases hx

theorem scoreRole_bridge : scoreRole {.spanningTreeBridge} = .switch := by decide

/-- Every device the records come to is a switch, and a bridge. -/
theorem kindOfRecords_bridges (k : DeviceKey) :
    kindOfRecords (recordsOfBridges captures) k =
      if Bridging (recordsOfBridges captures) k then some .switch else none := by
  have hunbounded : ¬Bounded (recordsOfBridges captures) k := by
    intro h
    obtain ⟨ev, hev, j, why, hq, -⟩ := bounded_iff.mp h
    have hdevice : j ∈ ev.devices := by
      rw [TopologyEvidence.devices, hq]
      exact List.mem_cons_self
    rw [qualified_of_mem hev, (devices_of_mem hev hdevice).1] at hq
    cases hq
  have hknown : Known (recordsOfBridges captures) k ↔ Bridging (recordsOfBridges captures) k := by
    constructor
    · rintro (h | ⟨ev, hev, j, hj, rfl⟩)
      · exact h
      · obtain ⟨-, f, hf, mac, hmac, rfl⟩ := devices_of_mem hev hj
        rw [deviceOf_mac rfl]
        exact bridging_iff.mpr ⟨f, hf, mac, hmac, rfl⟩
    · exact .inl
  unfold kindOfRecords
  rw [if_neg hunbounded]
  by_cases hbridge : Bridging (recordsOfBridges captures) k
  · rw [if_pos (hknown.mpr hbridge), if_pos hbridge, if_pos hbridge]
    rcases Finset.subset_singleton_iff.mp (signalsOf_subset captures k) with h | h
    · rw [h]
      rfl
    · rw [h, scoreRole_bridge]
      rfl
  · rw [if_neg fun h => hbridge (hknown.mp h), if_neg hbridge]

/-- A bridge that sent a BPDU has shown itself to be one. -/
theorem settled_bridge (k : DeviceKey) : Settled (recordsOfBridges captures) k := by
  rintro ⟨ev, hev, hk⟩
  obtain ⟨hfact, f, -, mac, -, rfl⟩ := devices_of_mem hev hk
  have hsignal : RoleSignal.spanningTreeBridge ∈ signalsOf (recordsOfBridges captures) (.mac (formatMac mac)) :=
    mem_signalsOf.mpr ⟨ev, hev, _, by rw [qualified_of_mem hev, hfact], deviceOf_mac rfl⟩
  rcases Finset.subset_singleton_iff.mp (signalsOf_subset captures (.mac (formatMac mac))) with h | h
  · rw [h] at hsignal
    cases hsignal
  · right
    rw [h, scoreRole_bridge]
    nofun

/-- A spanning-tree record adds no network to any graph. -/
theorem no_network_absorbed {ev : TopologyEvidence} (hev : ev ∈ recordsOfBridges captures) {g : TopologyGraph}
    {net : IpNet} {realm : Realm} (h : .network net realm ∈ (g.absorb ev).nodes) : .network net realm ∈ g.nodes := by
  rcases (mem_nodes_absorb_of_ne (fun _ he => by cases he)).mp h with h | ⟨kind, hplace⟩
  · exact h
  · obtain ⟨-, f, -, pdu, -, hstated⟩ := stated_of_mem hev
    generalize ev.fact = fact at hplace hstated
    cases hstated with
    | signal => cases hplace
    | link => cases hplace
    | vlan => cases List.mem_singleton.mp hplace

theorem kindOf_finalized (captures : List BridgeCapture) (k : DeviceKey) :
    (absorbAll (recordsOfBridges captures)).finalizeRoles.kindOf k =
      if Bridging (recordsOfBridges captures) k then some .switch else none := by
  have hfinished : (absorbAll (recordsOfBridges captures)).finalizeRoles = finished (recordsOfBridges captures) := by
    rw [finished_eq, TopologyGraph.finalizeRoles, TopologyGraph.finalizeRoles, TopologyGraph.merge_merge]
  rw [hfinished, kindOf_finished coherent_records (fun _ _ b _ => settled_bridge b) (fun _ => Iff.rfl),
    kindOfRecords_bridges]

end Records

/-- **One switch per bridge.** An identifier that is printed and read back is the hardware address of its last six
bytes; whatever is heard, the switches are the hardware addresses in the bridge and root identifiers, one each; and
spanning-tree records add no network to any graph. -/
theorem one_switch_per_bridge_mac (captures : List BridgeCapture) :
    (∀ id : Bytes, id.length = 8 → ∃ text, formatBridgeId id = (.ok text : Outcome Unit Text) ∧
      bridgeIdentity text = some (.mac (formatMac (id.drop 2)))) ∧
    (∀ f ∈ framesOf captures, f.decode = .ok f.facts) ∧
    Set.BijOn (fun mac => NodeId.device (.mac (formatMac mac))) {mac | ∃ f ∈ framesOf captures, mac ∈ f.macs}
      {id | ∃ n, (absorbAll (recordsOfBridges captures)).finalizeRoles.nodes.lookup id = some n ∧ n.kind = .switch} ∧
    ∀ g net realm, .network net realm ∈ (run TopologyGraph.absorb g (recordsOfBridges captures)).nodes →
      .network net realm ∈ g.nodes := by
  refine ⟨fun id hid => ⟨_, formatBridgeId_eq hid, bridgeIdentity_bridgeIdText hid⟩, ?_, ⟨?_, ?_, ?_⟩, ?_⟩
  · intro f _
    obtain ⟨vlan, hdecode⟩ := f.decode_eq
    rw [BridgeFrame.facts, hdecode]
  · -- every hardware address is a switch
    rintro mac ⟨f, hf, hmac⟩
    have hkind := kindOf_finalized captures (.mac (formatMac mac))
    rw [if_pos (bridging_iff.mpr ⟨f, hf, mac, hmac, rfl⟩)] at hkind
    exact Option.map_eq_some_iff.mp hkind
  · rintro a - b - hab
    exact formatMac_injective (DeviceKey.mac.inj (NodeId.device.inj hab))
  · -- and every switch is a hardware address
    rintro id ⟨n, hn, hswitch⟩
    have hsorted := sorted_build ((recordsOfBridges captures).map .absorb ++ [GraphOp.finalize])
    rw [build_concat, build_map_absorb] at hsorted
    have hfamily := hsorted.kinds id n hn
    rw [hswitch] at hfamily
    cases id with
    | device k =>
      have hkind := kindOf_finalized captures k
      rw [TopologyGraph.kindOf, hn] at hkind
      split_ifs at hkind with hbridge
      · obtain ⟨f, hf, mac, hmac, rfl⟩ := bridging_iff.mp hbridge
        exact ⟨mac, ⟨f, hf, hmac⟩, rfl⟩
      · cases hkind
    | interface => cases hfamily
    | network => cases hfamily
    | vlan => cases hfamily
    | service => cases hfamily
  · intro g net realm
    have hall : ∀ evs : List TopologyEvidence, (∀ ev ∈ evs, ev ∈ recordsOfBridges captures) → ∀ g,
        .network net realm ∈ (run TopologyGraph.absorb g evs).nodes → .network net realm ∈ g.nodes := by
      intro evs
      induction evs with
      | nil => exact fun _ g h => h
      | cons ev evs ih =>
        intro hevs g h
        exact no_network_absorbed (hevs ev List.mem_cons_self)
          (ih (fun e he => hevs e (List.mem_cons_of_mem _ he)) (g.absorb ev) h)
    exact hall _ (fun _ h => h) g

/-- Two BPDUs of one switch, from different ports and with different priorities, that name one root. -/
def twoPorts : BridgeCapture where
  interface := "eth0"
  now := 0
  scope := none
  frames := [
    .stp "02:00:5e:00:00:03" ([0, 0, 0, 0, 0] ++ [0x80, 0, 2, 0, 0x5e, 0, 0, 9] ++ [0, 0, 0, 4] ++
      [0x80, 0, 2, 0, 0x5e, 0, 0, 2] ++ [0x80, 1] ++ List.replicate 8 0),
    .stp "02:00:5e:00:00:04" ([0, 0, 0, 0, 0] ++ [0x80, 0, 2, 0, 0x5e, 0, 0, 9] ++ [0, 0, 0, 4] ++
      [0x10, 0, 2, 0, 0x5e, 0, 0, 2] ++ [0x80, 2] ++ List.replicate 8 0)]

/-- They are two switches, the sender and the root. -/
theorem one_switch_per_bridge_mac_two_ports :
    {id | ∃ n, (absorbAll (recordsOfBridges [twoPorts])).finalizeRoles.nodes.lookup id = some n ∧ n.kind = .switch} =
      {.device (.mac "02:00:5e:00:00:02"), .device (.mac "02:00:5e:00:00:09")} := by
  have hmacs : {mac | ∃ f ∈ framesOf [twoPorts], mac ∈ f.macs} =
      {[2, 0, 0x5e, 0, 0, 2], [2, 0, 0x5e, 0, 0, 9]} := by
    have hlists : (framesOf [twoPorts]).map BridgeFrame.macs =
        [[[2, 0, 0x5e, 0, 0, 2], [2, 0, 0x5e, 0, 0, 9]], [[2, 0, 0x5e, 0, 0, 2], [2, 0, 0x5e, 0, 0, 9]]] := by decide
    ext mac
    have hmem : (∃ f ∈ framesOf [twoPorts], mac ∈ f.macs) ↔ ∃ l ∈ (framesOf [twoPorts]).map BridgeFrame.macs,
      mac ∈ l := by
      simp
    rw [Set.mem_ofPred_eq, hmem, hlists]
    simp
  rw [← (one_switch_per_bridge_mac [twoPorts]).2.2.1.image_eq, hmacs, Set.image_pair]
  have hsender : formatMac [2, 0, 0x5e, 0, 0, 2] = "02:00:5e:00:00:02".toList := by decide
  have hroot : formatMac [2, 0, 0x5e, 0, 0, 9] = "02:00:5e:00:00:09".toList := by decide
  rw [hsender, hroot]

end Idnx
