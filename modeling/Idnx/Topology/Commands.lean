import Idnx.Topology.Plan

/-!
# The commands of a record, one by one

`Issues` is the plan of a fact as a relation, with one rule for each way a fact issues a command: it files a device,
adds another node, remarks on a node, weighs a signal, links two nodes, notes a tag or a hop, or claims an address.
What holds of every command of a plan is proved by cases on the rules (`mem_planFact_iff`).
-/

namespace Idnx

/-- The devices a fact files something under, as it names them. -/
def Fact.devices : Fact → List DeviceKey
  | .deviceAddress device _ => [device]
  | .deviceHostname device _ => [device]
  | .deviceVendor device _ => [device]
  | .deviceDescription device _ => [device]
  | .deviceRoleSignal device _ => [device]
  | .deviceCapability device _ _ => [device]
  | .gatewayFor device _ => [device]
  | .routesTo device net nextHop =>
    device :: if isTopologyNetwork net then (nextHop.map DeviceKey.address).toList else []
  | .attachedTo device _ => [device]
  | .observedBehind device via => [device, via]
  | .forwardsToward device _ _ _ => [device]
  | .opaqueBoundary device _ => [device]
  | _ => []

/-- The bridges a fact names. -/
def Fact.bridges (realm : Realm) : Fact → List DeviceKey
  | .bridgeLink bridgeId rootId _ =>
    match (bridgeIdentity bridgeId).map (qualifyDevice · realm), (bridgeIdentity rootId).map
      (qualifyDevice · realm) with
    | some bridge, some root => [bridge, root]
    | _, _ => []
  | _ => []

/-- The address a fact claims for its device. -/
def Fact.claimed : Fact → Option IpAddr
  | .deviceAddress _ address => some address
  | _ => none

/-- The network a fact attaches its device to. -/
def Fact.attachment : Fact → Option (DeviceKey × IpNet × Relationship)
  | .gatewayFor device net => some (device, net, .gatewayFor)
  | .routesTo device net _ => some (device, net, .routesTo)
  | .attachedTo device net => some (device, net, .attachedTo)
  | _ => none

/-- What a fact remarks on its device. -/
def Fact.remark : Fact → Option (DeviceKey × Note)
  | .deviceHostname device hostname => some (device, .hostname hostname)
  | .deviceVendor device vendor => some (device, .vendor vendor)
  | .deviceDescription device text => some (device, .description text)
  | .deviceRoleSignal device signal => some (device, .roleSignal signal.describe)
  | .deviceCapability device capability detail =>
    some (device, .capability (match detail with
      | some d => capability.label ++ (" (" : Text) ++ d ++ (")" : Text)
      | none => capability.label))
  | .opaqueBoundary device why => some (device, .boundary why)
  | _ => none

/-- The nodes other than devices that a fact adds. -/
def Fact.places (realm : Realm) : Fact → List (NodeId × NodeKind)
  | .network net => if isTopologyNetwork net then [(.network net (networkRealm net realm), .network)] else []
  | .interfaceNetwork interface net =>
    if isTopologyNetwork net then
      [(.network net (networkRealm net realm), .network), (.interface interface (scopedRealm realm), .interface)]
    else []
  | .vlan id => [(.vlan id (scopedRealm realm), .vlan)]
  | .vlanNetwork tag net =>
    [(.vlan tag (scopedRealm realm), .vlan), (.network net (networkRealm net realm), .network)]
  | .gatewayFor _ net => if isTopologyNetwork net then [(.network net (networkRealm net realm), .network)] else []
  | .routesTo _ net _ => if isTopologyNetwork net then [(.network net (networkRealm net realm), .network)] else []
  | .attachedTo _ net => if isTopologyNetwork net then [(.network net (networkRealm net realm), .network)] else []
  | .service address port _ _ => [(.service address port (addressRealm address realm), .service)]
  | _ => []

/-- The identity that something about `key` is filed under. -/
def fileUnder (owner : Slot → Option DeviceKey) (ev : TopologyEvidence) (fact : Fact) (key : DeviceKey) : DeviceKey :=
  resolveKey owner key fact.claimed (Realm.of ev.origin)

/-- The commands of a fact, each with what makes the fact issue it. -/
inductive Issues (owner : Slot → Option DeviceKey) (ev : TopologyEvidence) : Fact → Command → Prop
  | file {fact : Fact} {key : DeviceKey} : key ∈ fact.devices →
    Issues owner ev fact (.upsert (.device (fileUnder owner ev fact key)) .host)
  | bridge {fact : Fact} {key : DeviceKey} : key ∈ fact.bridges (Realm.of ev.origin) →
    Issues owner ev fact (.upsert (.device key) .switch)
  | place {fact : Fact} {id : NodeId} {kind : NodeKind} : (id, kind) ∈ fact.places (Realm.of ev.origin) →
    Issues owner ev fact (.upsert id kind)
  | holder {name : Text} {address : IpAddr} {key : DeviceKey} : owner (recordSlot ev address) = some key →
    Issues owner ev (.resolvedAs name address) (.upsert (.device key) .host)
  | remark {fact : Fact} {key : DeviceKey} {note : Note} : fact.remark = some (key, note) →
    Issues owner ev fact (.note (.device (fileUnder owner ev fact key)) note)
  | offer {address : IpAddr} {port : UInt16} {protocol : Text} {detail : Option Text} :
    Issues owner ev (.service address port protocol detail)
      (.note (.service address port (addressRealm address (Realm.of ev.origin)))
        (.description (Text.ofNat port.toNat ++ '/' :: protocol ++ (match detail with
          | some d => ' ' :: d
          | none => []))))
  | resolve {name : Text} {address : IpAddr} {key : DeviceKey} : owner (recordSlot ev address) = some key →
    Issues owner ev (.resolvedAs name address) (.note (.device key) (.hostname name))
  | weigh {key : DeviceKey} {signal : RoleSignal} :
    Issues owner ev (.deviceRoleSignal key signal)
      (.weigh (.device (fileUnder owner ev (.deviceRoleSignal key signal) key)) signal)
  | attach {fact : Fact} {key : DeviceKey} {net : IpNet} {rel : Relationship} :
    fact.attachment = some (key, net, rel) → isTopologyNetwork net = true →
    Issues owner ev fact (.link (.device (fileUnder owner ev fact key))
      (.network net (networkRealm net (Realm.of ev.origin))) rel (.fromEvidence ev))
  | plug {interface : Text} {net : IpNet} : isTopologyNetwork net = true →
    Issues owner ev (.interfaceNetwork interface net)
      (.link (.interface interface (scopedRealm (Realm.of ev.origin)))
        (.network net (networkRealm net (Realm.of ev.origin))) .attachedTo (.fromEvidence ev))
  | carry {vlan : UInt16} {net : IpNet} :
    Issues owner ev (.vlanNetwork vlan net)
      (.link (.vlan vlan (scopedRealm (Realm.of ev.origin))) (.network net (networkRealm net (Realm.of ev.origin)))
        .carriesNetwork (.fromEvidence ev))
  | uplink {bridgeId rootId : Text} {port : Option Text} {bridge root : DeviceKey} :
    (bridgeIdentity bridgeId).map (qualifyDevice · (Realm.of ev.origin)) = some bridge →
    (bridgeIdentity rootId).map (qualifyDevice · (Realm.of ev.origin)) = some root → bridge ≠ root →
    Issues owner ev (.bridgeLink bridgeId rootId port)
      (.link (.device bridge) (.device root) .possibleUplink
        { Provenance.fromEvidence ev with
          detail := TopologyGraph.portDetail (Provenance.fromEvidence ev).detail port })
  | forward {key previous : DeviceKey} {toward : IpAddr} {distance : UInt8} :
    resolveKey owner previous none (Realm.of ev.origin) ≠ resolveKey owner key none (Realm.of ev.origin) →
    Issues owner ev (.forwardsToward key toward distance (some previous))
      (.link (.device (resolveKey owner previous none (Realm.of ev.origin)))
        (.device (resolveKey owner key none (Realm.of ev.origin))) .forwardsToward
        ((Provenance.fromEvidence ev).withNote (("hop " : Text) ++ Text.ofNat distance.toNat ++ (" toward " : Text) ++
          toward.toText ++ (" from " : Text) ++ ev.vantage)))
  | behind {key via : DeviceKey} :
    Issues owner ev (.observedBehind key via)
      (.link (.device (resolveKey owner key none (Realm.of ev.origin)))
        (.device (resolveKey owner via none (Realm.of ev.origin))) .observedBehind (.fromEvidence ev))
  | advertise {address : IpAddr} {port : UInt16} {protocol : Text} {detail : Option Text} {key : DeviceKey} :
    owner (recordSlot ev address) = some key →
    Issues owner ev (.service address port protocol detail)
      (.link (.device key) (.service address port (addressRealm address (Realm.of ev.origin))) .advertises
        (.fromEvidence ev))
  | vlanSeen {id : UInt16} :
    Issues owner ev (.vlan id) (.vlanSeen ⟨id, scopedRealm (Realm.of ev.origin)⟩)
  | vlanBound {vlan : UInt16} {net : IpNet} :
    Issues owner ev (.vlanNetwork vlan net) (.vlanBound ⟨vlan, scopedRealm (Realm.of ev.origin)⟩)
  | hop {key : DeviceKey} {toward : IpAddr} {distance : UInt8} {previous : Option DeviceKey} :
    Issues owner ev (.forwardsToward key toward distance previous)
      (.hop distance (.device (resolveKey owner key none (Realm.of ev.origin))))
  | claim {key : DeviceKey} {address : IpAddr} :
    Issues owner ev (.deviceAddress key address)
      (.claim (recordSlot ev address) (resolveKey owner key (some address) (Realm.of ev.origin)))

section Issues

variable {owner : Slot → Option DeviceKey} {ev : TopologyEvidence} {fact : Fact} {c : Command}

theorem resolveKey_next_hop (hop : IpAddr) (realm : Realm) :
    resolveKey owner (.address hop) (some hop) realm = resolveKey owner (.address hop) none realm := by
  unfold resolveKey
  simp only [DeviceKey.address?]
  cases ho : owner (slotIn hop (TopologyGraph.keyZone (.address hop)) realm) <;> rfl

theorem mem_planAttach {id : NodeId} {net : IpNet} {rel : Relationship} :
    c ∈ planAttach ev id net rel ↔ c = .upsert id .host ∨ (isTopologyNetwork net = true ∧
      (c = .upsert (.network net (networkRealm net (Realm.of ev.origin))) .network ∨
        c = .link id (.network net (networkRealm net (Realm.of ev.origin))) rel (.fromEvidence ev))) := by
  unfold planAttach
  split_ifs with hn <;> simp [hn]

/-- The commands of an attachment are issued by the fact that makes it. -/
theorem issues_of_planAttach {key : DeviceKey} {net : IpNet} {rel : Relationship} (hk : key ∈ fact.devices)
    (hf : fact.attachment = some (key, net, rel))
    (hp : isTopologyNetwork net = true → (.network net (networkRealm net (Realm.of ev.origin)), .network) ∈
      fact.places (Realm.of ev.origin))
    (h : c ∈ planAttach ev (.device (fileUnder owner ev fact key)) net rel) : Issues owner ev fact c := by
  rcases mem_planAttach.mp h with rfl | ⟨hn, rfl | rfl⟩
  · exact .file hk
  · exact .place (hp hn)
  · exact .attach hf hn

theorem issues_of_mem (h : c ∈ planFact owner ev fact) : Issues owner ev fact c := by
  cases fact with
  | network net =>
    simp only [planFact, List.mem_ite_nil_right, List.mem_singleton] at h
    obtain ⟨hn, rfl⟩ := h
    exact .place (by simp [Fact.places, hn])
  | interfaceNetwork interface net =>
    simp only [planFact, List.mem_ite_nil_right, List.mem_cons, List.not_mem_nil, or_false] at h
    obtain ⟨hn, rfl | rfl | rfl⟩ := h
    · exact .place (by simp [Fact.places, hn])
    · exact .place (by simp [Fact.places, hn])
    · exact .plug hn
  | vlan id =>
    simp only [planFact, List.mem_cons, List.not_mem_nil, or_false] at h
    rcases h with rfl | rfl
    · exact .place (by simp [Fact.places])
    · exact .vlanSeen
  | vlanNetwork tag net =>
    simp only [planFact, List.mem_cons, List.not_mem_nil, or_false] at h
    rcases h with rfl | rfl | rfl | rfl
    · exact .place (by simp [Fact.places])
    · exact .place (by simp [Fact.places])
    · exact .carry
    · exact .vlanBound
  | deviceAddress key address =>
    simp only [planFact, List.mem_cons, List.not_mem_nil, or_false] at h
    rcases h with rfl | rfl
    · exact .file (by simp [Fact.devices])
    · exact .claim
  | deviceHostname key x | deviceVendor key x | deviceDescription key x | opaqueBoundary key x
  | deviceCapability key x y =>
    simp only [planFact, List.mem_cons, List.not_mem_nil, or_false] at h
    rcases h with rfl | rfl
    · exact .file (by simp [Fact.devices])
    · exact .remark rfl
  | deviceRoleSignal key signal =>
    simp only [planFact, List.cons_append, List.nil_append, List.mem_cons, List.not_mem_nil, or_false] at h
    rcases h with rfl | rfl | rfl
    · exact .file (by simp [Fact.devices])
    · exact .remark rfl
    · exact .weigh
  | gatewayFor key net =>
    exact issues_of_planAttach (by simp [Fact.devices]) rfl (by intro hn; simp [Fact.places, hn]) h
  | attachedTo key net =>
    exact issues_of_planAttach (by simp [Fact.devices]) rfl (by intro hn; simp [Fact.places, hn]) h
  | routesTo key net nextHop =>
    simp only [planFact, List.mem_append] at h
    rcases h with h | h
    · exact issues_of_planAttach (by simp [Fact.devices]) rfl (by intro hn; simp [Fact.places, hn]) h
    · split at h
      · rename_i hop hn
        rw [List.mem_singleton.mp h, resolveKey_next_hop]
        exact .file (by simp [Fact.devices, hn])
      · cases h
  | bridgeLink bridgeId rootId port =>
    simp only [planFact] at h
    split at h
    · rename_i bridge root hb hr
      have hmem : ∀ key, key = bridge ∨ key = root → key ∈ (Fact.bridgeLink bridgeId rootId port).bridges
          (Realm.of ev.origin) := by
        intro key hk
        simp [Fact.bridges, hb, hr, hk]
      simp only [List.mem_append, List.mem_cons, List.not_mem_nil, or_false, List.mem_ite_nil_right] at h
      rcases h with (rfl | rfl) | ⟨hne, rfl⟩
      · exact .bridge (hmem _ (.inl rfl))
      · exact .bridge (hmem _ (.inr rfl))
      · exact .uplink hb hr (fun he => hne (by rw [he]))
    · cases h
  | forwardsToward key toward distance previous =>
    simp only [planFact, List.mem_append, List.mem_cons, List.not_mem_nil, or_false] at h
    rcases h with (rfl | rfl) | h
    · exact .file (by simp [Fact.devices])
    · exact .hop
    · split at h
      · cases h
      · simp only [List.mem_ite_nil_right, List.mem_singleton] at h
        obtain ⟨hne, rfl⟩ := h
        exact .forward (fun he => hne (by rw [he]))
  | observedBehind key via =>
    simp only [planFact, List.mem_cons, List.not_mem_nil, or_false] at h
    rcases h with rfl | rfl | rfl
    · exact .file (by simp [Fact.devices])
    · exact .file (by simp [Fact.devices])
    · exact .behind
  | service address port protocol detail =>
    simp only [planFact, List.mem_append, List.mem_cons, List.not_mem_nil, or_false] at h
    rcases h with (rfl | rfl) | h
    · exact .place (by simp [Fact.places])
    · exact .offer
    · split at h
      · rename_i key ho
        rw [List.mem_singleton.mp h]
        exact .advertise ho
      · cases h
  | resolvedAs name address =>
    simp only [planFact] at h
    split at h
    · rename_i key ho
      simp only [List.mem_cons, List.not_mem_nil, or_false] at h
      rcases h with rfl | rfl
      · exact .holder ho
      · exact .resolve ho
    · cases h

theorem mem_of_issues (h : Issues owner ev fact c) : c ∈ planFact owner ev fact := by
  cases h with
  | @file fact key hk =>
    cases fact with
    | routesTo d net nextHop =>
      cases hn : isTopologyNetwork net <;> cases nextHop <;>
        simp_all [Fact.devices, planFact, mem_planAttach, fileUnder, Fact.claimed, resolveKey_next_hop]
      rcases hk with rfl | rfl <;> simp
    | gatewayFor d net => simp_all [Fact.devices, planFact, mem_planAttach, fileUnder, Fact.claimed]
    | attachedTo d net => simp_all [Fact.devices, planFact, mem_planAttach, fileUnder, Fact.claimed]
    | observedBehind d via =>
      simp only [Fact.devices, List.mem_cons, List.not_mem_nil, or_false] at hk
      rcases hk with rfl | rfl <;> simp [planFact, fileUnder, Fact.claimed]
    | _ => simp_all [Fact.devices, planFact, fileUnder, Fact.claimed]
  | @bridge fact key hk =>
    cases fact with
    | bridgeLink bridgeId rootId port =>
      simp only [Fact.bridges] at hk
      split at hk
      · rename_i b r hb hr
        simp only [List.mem_cons, List.not_mem_nil, or_false] at hk
        rcases hk with rfl | rfl <;> simp [planFact, hb, hr]
      · cases hk
    | _ => cases hk
  | @place fact id kind hp =>
    cases fact <;> simp_all [Fact.places, planFact, mem_planAttach]
  | @remark fact key note hr =>
    cases fact with
    | deviceCapability device capability detail =>
      cases hr
      exact List.mem_cons_of_mem _ List.mem_cons_self
    | _ => simp_all [Fact.remark, planFact, fileUnder, Fact.claimed]
  | @attach fact key net rel hf hn =>
    cases fact <;> simp_all [Fact.attachment, planFact, mem_planAttach, fileUnder, Fact.claimed]
  | holder ho => simp [planFact, ho]
  | resolve ho => simp [planFact, ho]
  | offer => exact List.mem_append_left _ (List.mem_cons_of_mem _ List.mem_cons_self)
  | weigh => simp [planFact, fileUnder, Fact.claimed]
  | plug hn => simp [planFact, hn]
  | carry => simp [planFact]
  | uplink hb hr hne => simp [planFact, hb, hr, hne]
  | forward hne => simp [planFact, hne]
  | behind => simp [planFact]
  | advertise ho => simp [planFact, ho]
  | vlanSeen => simp [planFact]
  | vlanBound => simp [planFact]
  | hop => simp [planFact]
  | claim => simp [planFact]

/-- **The plan of a fact, command by command.** -/
theorem mem_planFact_iff : c ∈ planFact owner ev fact ↔ Issues owner ev fact c := ⟨issues_of_mem, mem_of_issues⟩

/-- Only a fact about a device's address claims one. -/
theorem claim_mem_planFact {slot : Slot} {key : DeviceKey} (h : Command.claim slot key ∈ planFact owner ev fact) :
    ∃ d a, fact = .deviceAddress d a := by
  cases mem_planFact_iff.mp h with
  | claim => exact ⟨_, _, rfl⟩

/-- The nodes that a fact adds besides devices are no devices. -/
theorem place_ne_device {realm : Realm} {id : NodeId} {kind : NodeKind} (h : (id, kind) ∈ fact.places realm)
    (key : DeviceKey) : id ≠ .device key := by
  rintro rfl
  cases fact <;> simp [Fact.places] at h

theorem mem_devices_of_remark {key : DeviceKey} {note : Note} (h : fact.remark = some (key, note)) :
    key ∈ fact.devices := by
  cases fact <;> simp_all [Fact.remark, Fact.devices]

theorem mem_devices_of_attachment {key : DeviceKey} {net : IpNet} {rel : Relationship}
    (h : fact.attachment = some (key, net, rel)) : key ∈ fact.devices := by
  cases fact <;> simp_all [Fact.attachment, Fact.devices]

/-- The addresses a device of a fact is looked up by are addresses of the fact. -/
theorem mem_addresses_of_devices {key : DeviceKey} (hk : key ∈ fact.devices) {x : IpAddr}
    (hx : x ∈ key.addresses ++ fact.claimed.toList) : x ∈ fact.addresses := by
  cases fact with
  | routesTo device net nextHop =>
    cases hn : isTopologyNetwork net <;> cases nextHop <;> simp_all [Fact.devices, Fact.claimed, Fact.addresses]
    rcases hk with rfl | rfl
    · exact .inl hx
    · simp [DeviceKey.addresses, DeviceKey.address?] at hx
      exact .inr hx
  | observedBehind device via =>
    simp only [Fact.devices, List.mem_cons, List.not_mem_nil, or_false] at hk
    rcases hk with rfl | rfl <;> simp_all [Fact.claimed, Fact.addresses]
  | _ => simp_all [Fact.devices, Fact.claimed, Fact.addresses]

end Issues

end Idnx
