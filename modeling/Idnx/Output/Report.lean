import Idnx.Engine.Orchestrator
import Idnx.Output.Safe
import Idnx.Topology.Counts

/-!
# The report of a run

What the renderers are given: the graph, and what each provider, pivot and device task said.
`Idnx.Engine.Orchestrator` keeps of it what the run itself decides (`DiscoveryReport`); here it is whole
(`RunReport`), with the views of the graph the renderers share.
-/

namespace Idnx

/-! ## Where the run was made from -/

inductive VantageKind where
  | wired
  | wireless
  | virtual
  | loopback
  | unknown
  deriving DecidableEq, Repr

def VantageKind.label : VantageKind → Text
  | .wired => "wired"
  | .wireless => "wireless station"
  | .virtual => "virtual/VPN"
  | .loopback => "loopback"
  | .unknown => "unknown"

/-- How strictly active probes were tied to the interface. -/
inductive BindingMode where
  | unbound
  | sourceAddress
  | nativeInterface
  deriving DecidableEq, Repr

def BindingMode.label : BindingMode → Text
  | .unbound => "unbound (ordinary routing)"
  | .sourceAddress => "source-address bound"
  | .nativeInterface => "interface bound"

/-- What this vantage could not observe, stated explicitly. -/
structure VisibilityReport where
  interface : Text
  kind : VantageKind
  blindTo : List Text
  unavailable : List Text
  bindingMode : BindingMode
  observedFrames : Option Nat
  acceptedFacts : Option Nat

/-! ## Reachability of a network -/

structure NetworkReachability where
  responders : List IpAddr
  probed : Finset IpAddr
  notSent : Nat
  reasons : List Text
  discovery : List Text

inductive ReachabilityState where
  | reachable
  | probedUnreachable
  | notEnumerated
  deriving DecidableEq, Repr

def ReachabilityState.wire : ReachabilityState → Text
  | .reachable => "reachable"
  | .probedUnreachable => "probed_unreachable"
  | .notEnumerated => "not_enumerated"

namespace NetworkReachability

variable (r : NetworkReachability)

/-- How many distinct addresses were actually probed. -/
def attempted : Nat := r.probed.card

/-- The state, derived from the evidence rather than asserted alongside it. -/
def state : ReachabilityState :=
  if !r.responders.isEmpty then .reachable else if r.probed.Nonempty then .probedUnreachable else .notEnumerated

/-- The sentence a person reads. -/
def describe : Text :=
  let detail : Text :=
    if r.reasons.isEmpty then [] else (" (" : Text) ++ List.intercalate ("; " : Text) r.reasons ++ (")" : Text)
  match r.state with
  | .reachable =>
    ("reachable; " : Text) ++ Text.ofNat r.responders.length ++ (" of " : Text) ++ Text.ofNat r.attempted ++
      (" address(es) probed answered" : Text) ++ detail
  | .probedUnreachable => Text.ofNat r.attempted ++ (" address(es) probed, none answered" : Text) ++ detail
  | .notEnumerated =>
    ("not enumerated" : Text) ++ detail ++
      if r.notSent > 0 then ("; " : Text) ++ Text.ofNat r.notSent ++
      (" probe(s) never left this machine" : Text) else []

end NetworkReachability

/-! ## What was asked of a device -/

/-- What was probed at one address, and what answered. -/
structure EndpointRecord where
  endpoint : Text
  primary : Bool
  stagesRun : Nat
  tcpAttempted : Nat
  tcpResponsive : List UInt16
  notSent : List (Text × Nat)
  omitted : Option Text

/-- What was attempted against one device, and what came back. -/
structure CoverageRecord where
  device : DeviceKey
  addresses : List Text
  tier : DeviceTier
  discoverySources : List Text
  endpoints : List EndpointRecord
  udpAttempted : List UInt16
  protocolsConfirmed : List Text
  authRequired : List UInt16
  vendorAdapters : List Text
  adapterOutcomes : List Text
  skipped : Option Text
  elapsedMs : Nat

def DeviceTier.label : DeviceTier → Text
  | .establishedPivot => "pivot"
  | .candidate => "candidate"
  | .host => "host"

namespace CoverageRecord

variable (record : CoverageRecord)

/-- Address the full stage set ran against. -/
def primaryEndpoint : Option Text := (record.endpoints.find? (·.primary)).map (·.endpoint)

def tcpAttempted : Nat := (record.endpoints.map (·.tcpAttempted)).sum

def tcpResponsive : List UInt16 := record.endpoints.flatMap (·.tcpResponsive)

/-- Probes that never left this machine. -/
def notSent : Nat := ((record.endpoints.flatMap (·.notSent)).map (·.2)).sum

/-- Local failures, one line each. -/
def localFailures : List Text :=
  record.endpoints.flatMap fun e => e.notSent.map fun (reason, count) =>
    e.endpoint ++ (": " : Text) ++ Text.ofNat count ++ (" probe(s) not sent: " : Text) ++ reason

/-- Highest stage reached at any address. -/
def stagesRun : Nat := (record.endpoints.map (·.stagesRun)).foldl max 0

/-- Exactly what was left out, if anything. -/
def omissions : List Text :=
  record.endpoints.filterMap fun e => e.omitted.map fun reason => e.endpoint ++ (": " : Text) ++ reason

/-- True when the device answered nothing at all despite being asked. -/
def silent : Bool :=
  record.skipped.isNone && record.tcpResponsive.isEmpty && record.authRequired.isEmpty && record.notSent == 0

end CoverageRecord

/-- What one interrogated device disclosed. -/
structure PivotRun where
  address : IpAddr
  runs : List ProviderRun
  networksLearned : List IpNet

/-- A network together with the domain it was observed in. -/
structure NetworkRef where
  net : IpNet
  realm : Realm
  deriving DecidableEq, Ord, Repr

/-- Result of a complete discovery run, in full. -/
structure RunReport where
  graph : TopologyGraph
  scopeRuns : List ScopeRun
  pivotRuns : List PivotRun
  coverage : List CoverageRecord
  visibility : VisibilityReport
  oversizedScopes : List IpNet
  networkReachability : Map NetworkRef NetworkReachability
  converged : Bool

/-! ## Views of the graph -/

namespace TopologyGraph

variable (g : TopologyGraph)

/-- The edges, in the order of the map. -/
def edgeList : List Edge := g.edges.sortedKeys.filterMap fun k => g.edges.lookup k

/-- Every network, named by prefix and by the domain that observed it. -/
def networkRefs : List NetworkRef :=
  ((g.nodeList.filterMap fun n =>
    match n.id with
    | .network net realm => some ⟨net, realm⟩
    | _ => none).insertionSort fun a b =>
      ((compare a.net.toText b.net.toText).then (compare a.realm b.realm)).isLE).destutter (· ≠ ·)

/-- The names of the interfaces attached to a network. -/
def interfacesForNetwork (network : NetworkRef) : List Text :=
  g.edgeList.filterMap fun e =>
    if e.relationship = .attachedTo ∧ e.target = .network network.net network.realm then
      match e.source with
      | .interface name _ => some name
      | _ => none
    else none

variable {g}

theorem mem_nodeList {n : Node} : n ∈ g.nodeList ↔ ∃ id, g.nodes.lookup id = some n := by
  simp only [nodeList, List.mem_filterMap, Map.mem_sortedKeys]
  exact ⟨fun ⟨id, _, hn⟩ => ⟨id, hn⟩, fun ⟨id, hn⟩ => ⟨id, Map.mem_of_lookup hn, hn⟩⟩

/-- The nodes of the list have the keys of the map for identities, each once. -/
theorem map_id_nodeList (h : Sorted g) : g.nodeList.map (·.id) = g.nodes.sortedKeys := by
  have hmem : ∀ id ∈ g.nodes.sortedKeys, id ∈ g.nodes := fun id hid => Map.mem_sortedKeys.mp hid
  unfold nodeList
  generalize g.nodes.sortedKeys = ids at hmem ⊢
  induction ids with
  | nil => rfl
  | cons id ids ih =>
    obtain ⟨n, hn⟩ := Map.mem_iff_lookup.mp (hmem id List.mem_cons_self)
    rw [List.filterMap_cons_some (f := fun id => g.nodes.lookup id) hn, List.map_cons, h.keyed id n hn,
      ih fun j hj => hmem j (List.mem_cons_of_mem _ hj)]

theorem nodup_map_id_nodeList (h : Sorted g) : (g.nodeList.map (·.id)).Nodup := by
  rw [map_id_nodeList h]
  exact Map.sortedKeys_nodup _

theorem mem_networkRefs (h : Sorted g) {ref : NetworkRef} :
    ref ∈ g.networkRefs ↔ .network ref.net ref.realm ∈ g.nodes := by
  rw [networkRefs, mem_destutter_ne, List.mem_insertionSort, List.mem_filterMap]
  constructor
  · rintro ⟨n, hn, hid⟩
    obtain ⟨id, hlookup⟩ := mem_nodeList.mp hn
    cases hk : n.id with
    | network net realm =>
      rw [hk] at hid
      cases hid
      rw [← hk, h.keyed id n hlookup]
      exact Map.mem_of_lookup hlookup
    | _ => simp [hk] at hid
  · intro hmem
    obtain ⟨n, hn⟩ := Map.mem_iff_lookup.mp hmem
    exact ⟨n, mem_nodeList.mpr ⟨_, hn⟩, by rw [h.keyed _ n hn]⟩

theorem nodup_networkRefs (h : Sorted g) : g.networkRefs.Nodup := by
  refine (List.destutter_sublist _ _).nodup ?_
  rw [(List.perm_insertionSort _ _).nodup_iff]
  have hids := nodup_map_id_nodeList h
  rw [List.Nodup, List.pairwise_map] at hids
  refine List.Pairwise.filterMap _ ?_ hids
  intro n n' hne ref href ref' href' he
  subst he
  cases hk : n.id with
  | network net realm =>
    cases hk' : n'.id with
    | network net' realm' =>
      rw [hk] at href
      rw [hk'] at href'
      cases href
      cases href'
      exact hne (hk.trans hk'.symm)
    | _ => simp [hk'] at href'
  | _ => simp [hk] at href

end TopologyGraph

/-- How the names of virtual interfaces begin. -/
def virtualInterfacePrefixes : List Text :=
  (["utun", "tun", "tap", "ppp", "wg", "ipsec", "gpd", "docker", "br-", "veth", "virbr", "vmnet", "vboxnet", "feth",
    "bridge", "cni", "flannel", "kube", "zt", "tailscale", "hyperv", "vEthernet"] : List String).map String.toList

def isVirtualInterface (name : Text) : Bool :=
  virtualInterfacePrefixes.any fun p => name.toAsciiLowercase.startsWith p.toAsciiLowercase

/-- True when a network is reached only through virtual, container or tunnel interfaces. -/
def isVirtualNetwork (interfaces : List Text) : Bool := !interfaces.isEmpty && interfaces.all isVirtualInterface

end Idnx
