import Idnx.Lib.Map
import Idnx.Topology.Realm
import Mathlib.Data.Finset.Insert
import Mathlib.Data.Finset.Union

/-!
# The topology graph

The nodes, the edges, and the maps that say which device holds which address. This module has the data types, what can
be done to a node, the lookups that resolve an identity to the device that already holds it (`canonicalKey`), and the
two ways to add to the graph (`upsert`, `link`). `Idnx.Topology.Absorb` folds evidence in, `Idnx.Topology.Passes`
merges identities and assigns roles.
-/

namespace Idnx

/-- Stable identity for a graph node. -/
inductive NodeId where
  | interface (name : Text) (realm : Realm)
  | network (net : IpNet) (realm : Realm)
  | vlan (id : UInt16) (realm : Realm)
  | device (key : DeviceKey)
  | service (address : IpAddr) (port : UInt16) (realm : Realm)
  deriving DecidableEq, Ord, Repr

/-- What a node represents. -/
inductive NodeKind where
  | interface
  | network
  | vlan
  | router
  | switch
  | layer3Switch
  | host
  | service
  | opaqueBoundary
  deriving DecidableEq, Ord, Repr

/-- How two nodes relate. -/
inductive Relationship where
  | attachedTo
  | routesTo
  | gatewayFor
  | advertises
  | carriesNetwork
  | forwardsToward
  | observedBehind
  | possibleUplink
  | natBoundary
  | resolvedAs
  deriving DecidableEq, Ord, Repr

/-- Provenance attached to a node or edge. -/
structure Provenance where
  source : EvidenceSource
  confidence : Confidence
  vantage : Text
  detail : Option Text
  origin : Option PeerOrigin
  deriving DecidableEq, Repr

namespace Provenance

/-- Whether this record came from another machine. -/
def isRemote (p : Provenance) : Bool := p.origin.isSome

/-- The same provenance with an added explanation. -/
def withNote (p : Provenance) (note : Text) : Provenance :=
  { p with
    detail := some (match p.detail with
      | some existing => existing ++ ("; " : Text) ++ note
      | none => note) }

def fromEvidence (ev : TopologyEvidence) : Provenance where
  source := ev.source
  confidence := ev.confidence
  vantage := ev.vantage
  detail := ev.detail
  origin := ev.origin

end Provenance

/-- A node in the topology. `addressProvenance` says of an address whether it was only observed remotely. -/
structure Node where
  id : NodeId
  kind : NodeKind
  addresses : Finset IpAddr
  hostnames : Finset Text
  vendor : Option Text
  descriptions : Finset Text
  roleSignals : Finset Text
  capabilities : Finset Text
  opaqueReason : Option Text
  confidence : Confidence
  provenance : List Provenance
  addressProvenance : List (IpAddr × Bool)
  contestedAddresses : Finset IpAddr
  supersededAddresses : Finset (IpAddr × Text)
  deriving DecidableEq

namespace Node

def new (id : NodeId) (kind : NodeKind) (confidence : Confidence) : Node where
  id := id
  kind := kind
  addresses := ∅
  hostnames := ∅
  vendor := none
  descriptions := ∅
  roleSignals := ∅
  capabilities := ∅
  opaqueReason := none
  confidence := confidence
  provenance := []
  addressProvenance := []
  contestedAddresses := ∅
  supersededAddresses := ∅

/-- Hands an address over to the identity that now answers for it. -/
def supersedeAddress (n : Node) (address : IpAddr) (holder : Text) : Node :=
  { n with
    addresses := n.addresses.erase address
    addressProvenance := n.addressProvenance.filter (fun e => e.1 ≠ address)
    supersededAddresses := insert (address, holder) n.supersededAddresses }

/-- `note_address` on the list of marks: the first mark of the address is weakened, or a mark is added. -/
def noteMark (address : IpAddr) (remote : Bool) : List (IpAddr × Bool) → List (IpAddr × Bool)
  | [] => [(address, remote)]
  | e :: es => if e.1 = address then (e.1, e.2 && remote) :: es else e :: noteMark address remote es

/-- Records how an address of this node came to be known. A local observation outranks a remote one. -/
def noteAddress (n : Node) (address : IpAddr) (remote : Bool) : Node :=
  { n with addressProvenance := noteMark address remote n.addressProvenance }

/-- `addresses.insert` followed by `note_address`. -/
def holdAddress (n : Node) (address : IpAddr) (remote : Bool) : Node :=
  { n with addresses := insert address n.addresses }.noteAddress address remote

/-- The node keeps an address that another claim answered for as well. -/
def contestAddress (n : Node) (address : IpAddr) (remote : Bool) : Node :=
  let n := n.holdAddress address remote
  { n with contestedAddresses := insert address n.contestedAddresses }

/-- One more piece of evidence: the best confidence stays, the provenance grows. -/
def support (n : Node) (confidence : Confidence) (prov : Provenance) : Node :=
  { n with
    confidence := if confidence > n.confidence then confidence else n.confidence
    provenance := n.provenance ++ [prov] }

/-- Addresses of this node that something on this machine actually observed. -/
def locallyObservedAddresses (n : Node) : Finset IpAddr :=
  ((n.addressProvenance.filter fun e => !e.2).map Prod.fst).toFinset

/-- Whether anything on this machine observed this node at all. -/
def locallyObserved (n : Node) : Bool := n.provenance.any fun p => !p.isRemote

end Node

/-- A VLAN together with the switched domain that uses the tag. -/
structure VlanRef where
  id : UInt16
  realm : Realm
  deriving DecidableEq, Ord, Repr

/-- The physical bridge a spanning-tree identifier names: six colon-separated hex octets after the first dot. -/
def bridgeIdentity (bridgeId : Text) : Option DeviceKey :=
  match bridgeId.splitOnce '.' with
  | none => none
  | some (_, mac) =>
    let octets := Text.split ':' mac
    if octets.length ≠ 6 ∨ !octets.all (fun o => o.length == 2 && o.all fun c => (Text.hexDigit c).isSome) then none
    else some (.ofMac mac)

/-- A directed relationship between two nodes. -/
structure Edge where
  source : NodeId
  target : NodeId
  relationship : Relationship
  confidence : Confidence
  provenance : List Provenance
  deriving DecidableEq

/-- One more piece of evidence for an edge. -/
def Edge.support (e : Edge) (confidence : Confidence) (prov : Provenance) : Edge :=
  { e with
    confidence := if confidence > e.confidence then confidence else e.confidence
    provenance := e.provenance ++ [prov] }

/-- The place of an edge in the edge map. -/
structure EdgeKey where
  source : NodeId
  target : NodeId
  relationship : Relationship
  deriving DecidableEq, Ord, Repr

/-- An address within one link, where it needs a zone, and one observation domain. -/
structure Slot where
  address : IpAddr
  zone : Option Text
  realm : Realm
  deriving DecidableEq, Ord, Repr

/-- The topology built from every provider's evidence. -/
structure TopologyGraph where
  nodes : Map NodeId Node
  edges : Map EdgeKey Edge
  addressOwner : Map Slot DeviceKey
  addressBinding : Map Slot EvidenceSource
  contestedAddresses : Map Slot (Finset DeviceKey)
  vlansWithoutPrefix : Finset VlanRef
  egressPath : Map UInt8 NodeId
  roleWeights : Map NodeId (Finset RoleSignal)

/-- How current an address binding is, by how it was established. -/
def bindingFreshness : EvidenceSource → Nat
  | .arpProbe => 2
  | .ndpProbe => 2
  | _ => 1

/-- The rank of a claim backed by a validated reply to a request sent in this run. -/
def freshnessConfirmed : Nat := 2

/-- What happens when a second identity claims an address that is already held. -/
inductive AddressClaim where
  | uncontested
  | supersedes
  | superseded
  | refines
  | refined
  | contested
  deriving DecidableEq, Repr

/-- Names an identity for the record of a superseded address. -/
def describeKey : DeviceKey → Text
  | .mac mac => mac
  | .address a => a.toText
  | .scopedAddress a zone => a.toText ++ '%' :: zone

/-- True when a prefix represents real topology. -/
def isTopologyNetwork (net : IpNet) : Bool :=
  if net.prefixLen = 0 then false
  else
    match net with
    | .v4 a _ => !a.isLoopback && !a.isLinkLocal && !a.isMulticast && !a.isUnspecified
    | .v6 a _ => !a.isLoopback && !a.isMulticast && !a.isUnspecified && !a.isLinkLocal

namespace TopologyGraph

def new : TopologyGraph where
  nodes := ∅
  edges := ∅
  addressOwner := ∅
  addressBinding := ∅
  contestedAddresses := ∅
  vlansWithoutPrefix := ∅
  egressPath := ∅
  roleWeights := ∅

instance : Inhabited TopologyGraph := ⟨new⟩

variable (g : TopologyGraph)

/-! ## Resolving identities -/

/-- Owner of an address with a given zone, within one observation domain. -/
def ownerInRealm (address : IpAddr) (zone : Option Text) (realm : Realm) : Option DeviceKey :=
  g.addressOwner.lookup ⟨address, zone, addressRealm address realm⟩

/-- The zone an address needs: the vantage of the record, where the address is ambiguous without one. -/
def zoneOf (address : IpAddr) (vantage : Text) : Option Text :=
  if requiresZone address then some vantage.toAsciiLowercase else none

/-- Resolves who holds an address, honouring the zone when the address needs one. -/
def ownerOf (address : IpAddr) (vantage : Text) (realm : Realm) : Option DeviceKey :=
  g.ownerInRealm address (zoneOf address vantage) realm

/-- The interface part of the zone an identity carries. -/
def keyZone : DeviceKey → Option Text
  | .scopedAddress _ zone => (splitQualifiedZone zone).1
  | _ => none

/-- Resolves an address-based identity to the device that already holds it: through its own address first, then
through the address the fact is about. -/
def canonicalKey (key : DeviceKey) (address : Option IpAddr) (realm : Realm) : DeviceKey :=
  match key.address? with
  | none => key
  | some addr =>
    match g.ownerInRealm addr (keyZone key) realm with
    | some owner => owner
    | none =>
      match address with
      | none => key
      | some addr => (g.ownerInRealm addr (keyZone key) realm).getD key

/-! ## Adding to the graph -/

/-- `self.nodes.get_mut(&id)`: changes the node if it is there. -/
def modifyNode (id : NodeId) (f : Node → Node) : TopologyGraph := { g with nodes := g.nodes.modify id f }

/-- Creates the node if need be, and adds one piece of evidence to it. -/
def upsert (id : NodeId) (kind : NodeKind) (confidence : Confidence) (prov : Provenance) : TopologyGraph :=
  { g with nodes := g.nodes.upd id fun n => (n.getD (.new id kind confidence)).support confidence prov }

/-- Adds a network, unless it is protocol machinery; says whether it did. -/
def upsertNetwork (net : IpNet) (realm : Realm) (confidence : Confidence) (prov : Provenance) :
    TopologyGraph × Bool :=
  if isTopologyNetwork net then (g.upsert (.network net (networkRealm net realm)) .network confidence prov, true)
  else (g, false)

/-- Creates the edge if need be, and adds one piece of evidence to it. -/
def link (source target : NodeId) (relationship : Relationship) (confidence : Confidence) (prov : Provenance) :
    TopologyGraph :=
  { g with
    edges := g.edges.upd ⟨source, target, relationship⟩ fun e =>
      (e.getD ⟨source, target, relationship, confidence, []⟩).support confidence prov }

/-! ## What stays

`modifyNode` and `upsert` only change the nodes, `link` only the edges. -/

section Frames

variable {g : TopologyGraph} {id a b : NodeId} {kind : NodeKind} {f : Node → Node} {rel : Relationship}
  {c : Confidence} {p : Provenance}

@[simp] theorem modifyNode_edges : (g.modifyNode id f).edges = g.edges := rfl
@[simp] theorem modifyNode_addressOwner : (g.modifyNode id f).addressOwner = g.addressOwner := rfl
@[simp] theorem modifyNode_addressBinding : (g.modifyNode id f).addressBinding = g.addressBinding := rfl
@[simp] theorem modifyNode_contestedAddresses : (g.modifyNode id f).contestedAddresses = g.contestedAddresses := rfl
@[simp] theorem modifyNode_vlansWithoutPrefix : (g.modifyNode id f).vlansWithoutPrefix = g.vlansWithoutPrefix := rfl
@[simp] theorem modifyNode_egressPath : (g.modifyNode id f).egressPath = g.egressPath := rfl
@[simp] theorem modifyNode_roleWeights : (g.modifyNode id f).roleWeights = g.roleWeights := rfl

@[simp] theorem upsert_edges : (g.upsert id kind c p).edges = g.edges := rfl
@[simp] theorem upsert_addressOwner : (g.upsert id kind c p).addressOwner = g.addressOwner := rfl
@[simp] theorem upsert_addressBinding : (g.upsert id kind c p).addressBinding = g.addressBinding := rfl
@[simp] theorem upsert_contestedAddresses : (g.upsert id kind c p).contestedAddresses = g.contestedAddresses := rfl
@[simp] theorem upsert_vlansWithoutPrefix : (g.upsert id kind c p).vlansWithoutPrefix = g.vlansWithoutPrefix := rfl
@[simp] theorem upsert_egressPath : (g.upsert id kind c p).egressPath = g.egressPath := rfl
@[simp] theorem upsert_roleWeights : (g.upsert id kind c p).roleWeights = g.roleWeights := rfl

@[simp] theorem link_nodes : (g.link a b rel c p).nodes = g.nodes := rfl
@[simp] theorem link_addressOwner : (g.link a b rel c p).addressOwner = g.addressOwner := rfl
@[simp] theorem link_addressBinding : (g.link a b rel c p).addressBinding = g.addressBinding := rfl
@[simp] theorem link_contestedAddresses : (g.link a b rel c p).contestedAddresses = g.contestedAddresses := rfl
@[simp] theorem link_vlansWithoutPrefix : (g.link a b rel c p).vlansWithoutPrefix = g.vlansWithoutPrefix := rfl
@[simp] theorem link_egressPath : (g.link a b rel c p).egressPath = g.egressPath := rfl
@[simp] theorem link_roleWeights : (g.link a b rel c p).roleWeights = g.roleWeights := rfl

theorem lookup_modifyNode {j : NodeId} :
    (g.modifyNode id f).nodes.lookup j = if j = id then (g.nodes.lookup id).map f else g.nodes.lookup j :=
  Map.lookup_modify _ _ _ _

theorem lookup_upsert {j : NodeId} :
    (g.upsert id kind c p).nodes.lookup j =
      if j = id then some (((g.nodes.lookup id).getD (.new id kind c)).support c p) else g.nodes.lookup j :=
  Map.lookup_upd _ _ _ _

theorem lookup_link {k : EdgeKey} :
    (g.link a b rel c p).edges.lookup k =
      if k = ⟨a, b, rel⟩ then some (((g.edges.lookup ⟨a, b, rel⟩).getD ⟨a, b, rel, c, []⟩).support c p)
      else g.edges.lookup k :=
  Map.lookup_upd _ _ _ _

end Frames

end TopologyGraph

end Idnx
