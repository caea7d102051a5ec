import Idnx.Topology.Graph

/-!
# Folding evidence into the graph

`qualifyFact` rewrites the identities of a fact into the domain it was observed in, `absorb` folds one record in. The
arm for a device's address settles who holds it (`settleClaim`): a claim may be the only one, supersede an older one,
be superseded by a newer one, give hardware to an address that had none, or put the address in dispute.
-/

namespace Idnx

/-- Rewrites a fact's identities into the domain it was observed in. Local evidence passes through untouched, and so
does every fact the list does not name. -/
def qualifyFact (fact : Fact) (realm : Realm) : Fact :=
  if realm.isLocal then fact
  else
    let q := fun key => qualifyDevice key realm
    match fact with
    | .deviceAddress device address => .deviceAddress (q device) address
    | .deviceHostname device hostname => .deviceHostname (q device) hostname
    | .deviceVendor device vendor => .deviceVendor (q device) vendor
    | .deviceDescription device text => .deviceDescription (q device) text
    | .deviceRoleSignal device signal => .deviceRoleSignal (q device) signal
    | .deviceCapability device capability detail => .deviceCapability (q device) capability detail
    | .gatewayFor device network => .gatewayFor (q device) network
    | .routesTo device network nextHop => .routesTo (q device) network nextHop
    | .vlanNetwork vlan network => .vlanNetwork vlan network
    | .attachedTo device network => .attachedTo (q device) network
    | .observedBehind device via => .observedBehind (q device) (q via)
    | .opaqueBoundary device why => .opaqueBoundary (q device) why
    | .bridgeLink bridgeId rootId port => .bridgeLink bridgeId rootId port
    | other => other

/-- What a claim of `key` on the strength of `source` means for an address that `heldBy` holds since `heldSince`. -/
def resolveClaim (heldBy : Option DeviceKey) (heldSince : Option EvidenceSource) (key : DeviceKey)
    (source : EvidenceSource) : AddressClaim :=
  match heldBy with
  | none => .uncontested
  | some previous =>
    if previous = key then .uncontested
    else if previous.isMac ≠ key.isMac then if key.isMac then .refines else .refined
    else
      let claim := bindingFreshness source
      let held := (heldSince.map bindingFreshness).getD 0
      if claim > held then .supersedes
      else if claim < held then .superseded
      else if claim ≥ freshnessConfirmed then .contested
      else .superseded

namespace TopologyGraph

variable (g : TopologyGraph)

/-- Gives the slot to `key`, whose node takes the address. -/
def takeSlot (slot : Slot) (key : DeviceKey) (source : EvidenceSource) (remote : Bool) : TopologyGraph :=
  { g with
    addressOwner := g.addressOwner.insert slot key
    addressBinding := g.addressBinding.insert slot source }.modifyNode (.device key)
      fun n => n.holdAddress slot.address remote

/-- A claim to a slot in dispute: a dispute does not end because a later claim arrives. -/
def joinDispute (slot : Slot) (key : DeviceKey) (claimants : Finset DeviceKey) (remote : Bool) : TopologyGraph :=
  { g with contestedAddresses := g.contestedAddresses.insert slot (insert key claimants) }.modifyNode (.device key)
    fun n => n.contestAddress slot.address remote

/-- Puts the slot in dispute: ownership is withdrawn rather than reassigned, and both claimants keep the address. -/
def startDispute (slot : Slot) (previous key : DeviceKey) (remote : Bool) : TopologyGraph :=
  let g : TopologyGraph :=
    { g with
      addressOwner := g.addressOwner.erase slot
      addressBinding := g.addressBinding.erase slot
      contestedAddresses := g.contestedAddresses.upd slot fun cs => cs.getD ∅ ∪ {previous, key} }
  (g.modifyNode (.device previous) fun n => n.contestAddress slot.address remote).modifyNode (.device key)
    fun n => n.contestAddress slot.address remote

/-- Carries out a resolution. Only an uncontested claim has no prior holder. -/
def carryOut (slot : Slot) (key : DeviceKey) (source : EvidenceSource) (remote : Bool) (heldBy : Option DeviceKey)
    (resolution : AddressClaim) : TopologyGraph :=
  match resolution, heldBy with
  | .uncontested, _ => g.takeSlot slot key source remote
  | .refines, _ => g.takeSlot slot key source remote
  | .supersedes, some previous =>
    (g.modifyNode (.device previous) fun n => n.supersedeAddress slot.address
      (describeKey key)).takeSlot slot key source
      remote
  | .supersedes, none => g.takeSlot slot key source remote
  | .superseded, some previous =>
    g.modifyNode (.device key) fun n => n.supersedeAddress slot.address (describeKey previous)
  | .superseded, none => g
  | .refined, _ => g.modifyNode (.device key) fun n => n.holdAddress slot.address remote
  | .contested, some previous => g.startDispute slot previous key remote
  | .contested, none => g

/-- Settles the claim of `key` to `slot`, after the node of `key` has been added. -/
def settleClaim (slot : Slot) (key : DeviceKey) (source : EvidenceSource) (remote : Bool) : TopologyGraph :=
  match g.contestedAddresses.lookup slot with
  | some claimants => g.joinDispute slot key claimants remote
  | none =>
    g.carryOut slot key source remote (g.addressOwner.lookup slot)
      (resolveClaim (g.addressOwner.lookup slot) (g.addressBinding.lookup slot) key source)

/-- Adds the node of the device an identity resolves to and changes it by `f`: what the arms for a hostname, a vendor,
a description, a capability and a boundary do. -/
def describeDevice (ev : TopologyEvidence) (device : DeviceKey) (f : Node → Node) : TopologyGraph :=
  let id := NodeId.device (g.canonicalKey device none (Realm.of ev.origin))
  (g.upsert id .host ev.confidence (.fromEvidence ev)).modifyNode id f

/-- Adds a device and a network and links them: what the arms for a gateway and an attachment do. -/
def attachDevice (ev : TopologyEvidence) (device : DeviceKey) (network : IpNet) (relationship : Relationship) :
    TopologyGraph :=
  let realm := Realm.of ev.origin
  let prov := Provenance.fromEvidence ev
  let devId := NodeId.device (g.canonicalKey device none realm)
  let (g, kept) := (g.upsert devId .host ev.confidence prov).upsertNetwork network realm ev.confidence prov
  if !kept then g
  else g.link devId (.network network (networkRealm network realm)) relationship ev.confidence prov

/-- `RoutesTo`: like an attachment, and the next hop becomes a device of its own. -/
def absorbRoutesTo (ev : TopologyEvidence) (device : DeviceKey) (network : IpNet) (nextHop : Option IpAddr) :
    TopologyGraph :=
  let realm := Realm.of ev.origin
  let prov := Provenance.fromEvidence ev
  let devId := NodeId.device (g.canonicalKey device none realm)
  let (g, kept) := (g.upsert devId .host ev.confidence prov).upsertNetwork network realm ev.confidence prov
  if !kept then g
  else
    let g := g.link devId (.network network (networkRealm network realm)) .routesTo ev.confidence prov
    match nextHop with
    | some hop => g.upsert (.device (g.canonicalKey (.address hop) (some hop) realm)) .host ev.confidence prov
    | none => g

/-- `DeviceAddress`. -/
def absorbDeviceAddress (ev : TopologyEvidence) (device : DeviceKey) (address : IpAddr) : TopologyGraph :=
  let realm := Realm.of ev.origin
  let key := g.canonicalKey device (some address) realm
  let g := g.upsert (.device key) .host ev.confidence (.fromEvidence ev)
  g.settleClaim ⟨address, zoneOf address ev.vantage, addressRealm address realm⟩ key ev.source !realm.isLocal

/-- The note that names the port of a bridge link. -/
def portDetail (detail port : Option Text) : Option Text :=
  match port with
  | none => detail
  | some port =>
    some (match detail with
      | some d => d ++ (" (port " : Text) ++ port ++ (")" : Text)
      | none => ("port " : Text) ++ port)

/-- `BridgeLink`: the MAC inside each identifier is the device. -/
def absorbBridgeLink (ev : TopologyEvidence) (bridgeId rootId : Text) (port : Option Text) : TopologyGraph :=
  let realm := Realm.of ev.origin
  let prov := Provenance.fromEvidence ev
  match (bridgeIdentity bridgeId).map (qualifyDevice · realm), (bridgeIdentity rootId).map
    (qualifyDevice · realm) with
  | some bridgeKey, some rootKey =>
    let bridge := NodeId.device bridgeKey
    let root := NodeId.device rootKey
    let g := (g.upsert bridge .switch ev.confidence prov).upsert root .switch ev.confidence prov
    if bridge ≠ root then
      g.link bridge root .possibleUplink ev.confidence { prov with detail := portDetail prov.detail port }
    else g
  | _, _ => g

/-- `ForwardsToward`: an interface answered after the previous one. -/
def absorbForwardsToward (ev : TopologyEvidence) (device : DeviceKey) (toward : IpAddr) (distance : UInt8)
    (previous : Option DeviceKey) : TopologyGraph :=
  let realm := Realm.of ev.origin
  let prov := Provenance.fromEvidence ev
  let id := NodeId.device (g.canonicalKey device none realm)
  let g := g.upsert id .host ev.confidence prov
  let g := { g with egressPath := g.egressPath.insert distance id }
  match previous with
  | none => g
  | some previous =>
    let source := NodeId.device (g.canonicalKey previous none realm)
    if source ≠ id then
      g.link source id .forwardsToward ev.confidence
        (prov.withNote (("hop " : Text) ++ Text.ofNat distance.toNat ++ (" toward " : Text) ++ toward.toText ++
          (" from " : Text) ++ ev.vantage))
    else g

/-- Folds a fact whose identities are qualified into the graph, on the strength of the record `ev`. -/
def absorbFact (ev : TopologyEvidence) (fact : Fact) : TopologyGraph :=
  let realm := Realm.of ev.origin
  let prov := Provenance.fromEvidence ev
  match fact with
  | .network net => (g.upsertNetwork net realm ev.confidence prov).1
  | .interfaceNetwork interface net =>
    let (g, kept) := g.upsertNetwork net realm ev.confidence prov
    if !kept then g
    else
      let ifaceId := NodeId.interface interface (scopedRealm realm)
      (g.upsert ifaceId .interface ev.confidence prov).link ifaceId
        (.network net (networkRealm net realm)) .attachedTo
        ev.confidence prov
  | .vlan id =>
    let g := g.upsert (.vlan id (scopedRealm realm)) .vlan ev.confidence prov
    { g with vlansWithoutPrefix := insert ⟨id, scopedRealm realm⟩ g.vlansWithoutPrefix }
  | .vlanNetwork vlan network =>
    let vlanId := NodeId.vlan vlan (scopedRealm realm)
    let networkId := NodeId.network network (networkRealm network realm)
    let g := (g.upsert vlanId .vlan ev.confidence prov).upsert networkId .network ev.confidence prov
    let g := g.link vlanId networkId .carriesNetwork ev.confidence prov
    { g with vlansWithoutPrefix := g.vlansWithoutPrefix.erase ⟨vlan, scopedRealm realm⟩ }
  | .deviceAddress device address => g.absorbDeviceAddress ev device address
  | .deviceHostname device hostname =>
    g.describeDevice ev device fun n => { n with hostnames := insert hostname n.hostnames }
  | .deviceVendor device vendor =>
    -- a peer fills in a vendor this vantage never learned, and never replaces one established here
    g.describeDevice ev device fun n =>
      if ev.isRemote && (n.vendor.isSome && n.locallyObserved) then n else { n with vendor := some vendor }
  | .deviceDescription device text =>
    g.describeDevice ev device fun n => { n with descriptions := insert text n.descriptions }
  | .deviceRoleSignal device signal =>
    let id := NodeId.device (g.canonicalKey device none realm)
    let g := g.describeDevice ev device fun n => { n with roleSignals := insert signal.describe n.roleSignals }
    { g with roleWeights := g.roleWeights.upd id fun signals => insert signal (signals.getD ∅) }
  | .deviceCapability device capability detail =>
    g.describeDevice ev device fun n =>
      { n with
        capabilities := insert (match detail with
          | some d => capability.label ++ (" (" : Text) ++ d ++ (")" : Text)
          | none => capability.label) n.capabilities }
  | .gatewayFor device network => g.attachDevice ev device network .gatewayFor
  | .routesTo device network nextHop => g.absorbRoutesTo ev device network nextHop
  | .attachedTo device network => g.attachDevice ev device network .attachedTo
  | .bridgeLink bridgeId rootId port => g.absorbBridgeLink ev bridgeId rootId port
  | .forwardsToward device toward distance previous => g.absorbForwardsToward ev device toward distance previous
  | .observedBehind device via =>
    let devId := NodeId.device (g.canonicalKey device none realm)
    let viaId := NodeId.device (g.canonicalKey via none realm)
    ((g.upsert devId .host ev.confidence prov).upsert viaId .host ev.confidence prov).link devId viaId .observedBehind
      ev.confidence prov
  | .opaqueBoundary device why =>
    g.describeDevice ev device fun n =>
      if ev.isRemote && (n.opaqueReason.isSome && n.locallyObserved) then n else { n with opaqueReason := some why }
  | .service address port protocol detail =>
    let id := NodeId.service address port (addressRealm address realm)
    let g := (g.upsert id .service ev.confidence prov).modifyNode id fun n =>
      { n with
        descriptions := insert (Text.ofNat port.toNat ++ '/' :: protocol ++ (match detail with
          | some d => ' ' :: d
          | none => [])) n.descriptions }
    match g.ownerOf address ev.vantage realm with
    | some owner => g.link (.device owner) id .advertises ev.confidence prov
    | none => g
  | .resolvedAs name address =>
    match g.ownerOf address ev.vantage realm with
    | some owner =>
      (g.upsert (.device owner) .host ev.confidence prov).modifyNode (.device owner) fun n =>
        { n with hostnames := insert name n.hostnames }
    | none => g

/-- Absorbs one piece of evidence, in the domain it was observed in. -/
def absorb (ev : TopologyEvidence) : TopologyGraph := g.absorbFact ev (qualifyFact ev.fact (Realm.of ev.origin))

end TopologyGraph

end Idnx
