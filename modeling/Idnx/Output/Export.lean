import Idnx.Output.Report

/-!
# The exported document

`buildExport` turns a report into the document every structured format is written from: networks, VLANs, devices,
relationships, what was covered, and a summary.
-/

namespace Idnx

/-! ## The records of the document -/

/-- An observation domain, in full. -/
structure DomainExport where
  kind : Text
  peer : Option Text
  vantage : Option Text
  deriving DecidableEq, Repr

namespace DomainExport

def of : Realm → DomainExport
  | .localRealm => ⟨"local", none, none⟩
  | .peerRealm peer vantage => ⟨"peer", some peer, some vantage⟩

/-- Flat form, for the tabular formats. -/
def flat (d : DomainExport) : Text :=
  match d.peer, d.vantage with
  | some peer, some vantage => ("peer:" : Text) ++ peer ++ '/' :: vantage
  | _, _ => d.kind

end DomainExport

/-- One observer of a node. -/
structure ObserverExport where
  kind : Text
  peer : Option Text
  vantage : Option Text
  deriving DecidableEq, Repr

def ObserverExport.of : Option PeerOrigin → ObserverExport
  | none => ⟨"local", none, none⟩
  | some origin => ⟨"peer", some origin.peer, some origin.vantage⟩

structure EvidenceExport where
  source : Text
  confidence : Text
  vantage : Text
  detail : Option Text
  deriving DecidableEq, Repr

structure ReachabilityExport where
  state : Text
  responders : List Text
  attempted : Nat
  notSent : Nat
  reasons : List Text
  discovery : List Text
  note : Text

structure NetworkExport where
  cidr : Text
  kind : Text
  interfaces : List Text
  confidence : Text
  enumerated : Bool
  identityDomain : DomainExport
  observedBy : List ObserverExport
  locallyObserved : Bool
  reachability : Option ReachabilityExport
  evidence : List EvidenceExport

structure VlanExport where
  id : UInt16
  observedIn : DomainExport
  net : Option Text
  evidence : List EvidenceExport
  note : Text

structure DeviceExport where
  id : Text
  kind : Text
  category : Text
  addresses : List Text
  hostnames : List Text
  vendor : Option Text
  descriptions : List Text
  roleEvidence : List Text
  capabilities : List Text
  observedBy : List ObserverExport
  opaqueReason : Option Text
  confidence : Text
  evidence : List EvidenceExport

structure RelationshipExport where
  source : Text
  target : Text
  relationship : Text
  confidence : Text
  evidence : List EvidenceExport

structure ProviderOutcomeExport where
  provider : Text
  facts : Nat
  note : Option Text

/-- What each provider produced for one scope or pivot. -/
structure CoverageExport where
  scope : Text
  providers : List ProviderOutcomeExport
  networksLearned : List Text

structure DeviceCoverageExport where
  device : Text
  addresses : List Text
  primaryAddress : Option Text
  tier : Text
  discoverySources : List Text
  stagesRun : Nat
  tcpAttempted : Nat
  tcpResponsive : List UInt16
  udpAttempted : List UInt16
  protocolsConfirmed : List Text
  authRequired : List UInt16
  vendorAdapters : List Text
  adapterOutcomes : List Text
  notSent : List Text
  omissions : List Text
  skipped : Option Text
  silent : Bool
  elapsedMs : Nat

structure VantageExport where
  interface : Text
  kind : Text
  blindTo : List Text
  unavailable : List Text
  bindingMode : Text
  observedFrames : Option Nat
  acceptedFacts : Option Nat

structure SummaryExport where
  counts : TopologyCounts
  devices : Nat
  nodesByKind : List (Text × Nat)
  observed : Nat
  advertised : Nat
  inferred : Nat
  userSupplied : Nat
  totalNodes : Nat
  converged : Bool

/-- The complete serialised topology. -/
structure TopologyExport where
  tool : Text
  version : Text
  generatedAt : Text
  vantage : VantageExport
  networks : List NetworkExport
  vlans : List VlanExport
  devices : List DeviceExport
  relationships : List RelationshipExport
  coverage : List CoverageExport
  deviceCoverage : List DeviceCoverageExport
  summary : SummaryExport

/-! ## Labels -/

def Confidence.label : Confidence → Text
  | .inferred => "inferred"
  | .advertised => "advertised"
  | .userSupplied => "user-supplied"
  | .observed => "observed"

/-- A machine-readable name. -/
def NodeKind.wire : NodeKind → Text
  | .interface => "interface"
  | .network => "network"
  | .vlan => "vlan"
  | .router => "router"
  | .switch => "switch"
  | .layer3Switch => "layer3_switch"
  | .host => "host"
  | .service => "service"
  | .opaqueBoundary => "opaque_boundary"

def NodeKind.label : NodeKind → Text
  | .layer3Switch => "layer-3 switch"
  | .interface => "interface"
  | .network => "network"
  | .vlan => "vlan"
  | .router => "router"
  | .switch => "switch"
  | .host => "host"
  | .service => "service"
  | .opaqueBoundary => "opaque boundary"

def Relationship.label : Relationship → Text
  | .attachedTo => "attached to"
  | .routesTo => "routes to"
  | .gatewayFor => "gateway for"
  | .advertises => "advertises"
  | .carriesNetwork => "carries"
  | .forwardsToward => "forwards toward"
  | .observedBehind => "observed behind"
  | .possibleUplink => "possible uplink"
  | .natBoundary => "NAT boundary"
  | .resolvedAs => "resolved as"

def DeviceCategory.label : DeviceCategory → Text
  | .opaqueBoundary => "opaque boundary"
  | .router => "router"
  | .switch => "switch"
  | .layer3Switch => "layer-3 switch (bridges and routes)"
  | .forwardingInterface => "forwarding interface (ownership unknown)"
  | .aiSystem => "AI system"
  | .host => "host"

/-! ## The document -/

/-- Everyone who observed a node: the local machine first, then peers in a stable order. -/
def observersOf (n : Node) : List ObserverExport :=
  (keepFirst id (n.provenance.map fun p => ObserverExport.of p.origin) []).insertionSort fun a b =>
    ((compare (a.kind != ("local" : Text)) (b.kind != ("local" : Text))).then
      ((compare a.peer b.peer).then (compare a.vantage b.vantage))).isLE

def EvidenceExport.of (p : Provenance) : EvidenceExport where
  source := p.source.label
  confidence := p.confidence.label
  vantage := p.vantage
  detail := p.detail

/-- The provenance of a node or edge, each observation once. -/
def evidenceOf (provenance : List Provenance) : List EvidenceExport := keepFirst id (provenance.map .of) []

def ReachabilityExport.of (r : NetworkReachability) : ReachabilityExport where
  state := r.state.wire
  responders := r.responders.map IpAddr.toText
  attempted := r.attempted
  notSent := r.notSent
  reasons := r.reasons
  discovery := r.discovery
  note := r.describe

def networkExport (report : RunReport) (ref : NetworkRef) : NetworkExport :=
  let interfaces := report.graph.interfacesForNetwork ref
  let node := report.graph.nodes.lookup (.network ref.net ref.realm)
  { cidr := ref.net.toText
    kind := if isVirtualNetwork interfaces then "virtual" else "physical"
    interfaces
    confidence := (node.map fun n => n.confidence.label).getD Confidence.observed.label
    enumerated := ref.net ∉ report.oversizedScopes
    identityDomain := .of ref.realm
    observedBy := (node.map observersOf).getD []
    locallyObserved := (node.map fun n => n.locallyObserved).getD false
    reachability := (report.networkReachability.lookup ref).map .of
    evidence := (node.map fun n => evidenceOf n.provenance).getD [] }

/-- The devices are the nodes of these kinds. -/
def isDeviceKind : NodeKind → Bool
  | .router | .switch | .layer3Switch | .host | .opaqueBoundary => true
  | _ => false

def deviceExport (n : Node) : DeviceExport where
  id := n.displayName
  kind := n.kind.label
  category := ((categorize n).map DeviceCategory.label).getD []
  addresses := n.addresses.sort.map IpAddr.toText
  hostnames := n.hostnames.sort.map Text.safeText
  vendor := n.vendor.map Text.safeText
  descriptions := n.descriptions.sort.map Text.safeText
  roleEvidence := n.roleSignals.sort.map Text.safeText
  capabilities := n.capabilities.sort.map Text.safeText
  observedBy := observersOf n
  opaqueReason := n.opaqueReason.map Text.safeText
  confidence := n.confidence.label
  evidence := evidenceOf n.provenance

def relationshipExport (g : TopologyGraph) (e : Edge) : RelationshipExport where
  source := nodeLabel g e.source
  target := nodeLabel g e.target
  relationship := e.relationship.label
  confidence := e.confidence.label
  evidence := evidenceOf e.provenance

def unboundVlanExport (vlan : VlanRef) : VlanExport where
  id := vlan.id
  observedIn := .of vlan.realm
  net := none
  evidence := []
  note := "observed on the wire; no prefix evidence"

def boundVlanExport : VlanRef × IpNet × List Provenance → VlanExport
  | (vlan, net, provenance) =>
    { id := vlan.id
      observedIn := .of vlan.realm
      net := some net.toText
      evidence := evidenceOf provenance
      note := "one observation stated both the tag and the prefix" }

/-- The order of VLANs in a set. -/
def VlanRef.rank (vlan : VlanRef) : Nat ×ₗ Nat ×ₗ Text ×ₗ Text :=
  match vlan.realm with
  | .localRealm => toLex (vlan.id.toNat, toLex (0, toLex ([], [])))
  | .peerRealm peer vantage => toLex (vlan.id.toNat, toLex (1, toLex (peer, vantage)))

theorem VlanRef.rank_injective : Function.Injective VlanRef.rank := by
  rintro ⟨a, r⟩ ⟨b, s⟩ h
  cases r <;> cases s <;> simp_all [VlanRef.rank, UInt16.toNat_inj]

instance : LinearOrder VlanRef := LinearOrder.lift' VlanRef.rank VlanRef.rank_injective

instance isTrans_vlan : IsTrans VlanRef (fun a b => a ≤ b) := inferInstance

instance antisymm_vlan : Std.Antisymm (fun a b : VlanRef => a ≤ b) := inferInstance

instance total_vlan : Std.Total (fun a b : VlanRef => a ≤ b) := inferInstance

def providerOutcome (run : ProviderRun) : ProviderOutcomeExport where
  provider := run.provider
  facts := run.evidenceCount
  note := run.note

def scopeCoverage (run : ScopeRun) : CoverageExport where
  scope := (run.scope.map IpNet.toText).getD "local machine"
  providers := run.runs.map providerOutcome
  networksLearned := []

def pivotCoverage (pivot : PivotRun) : CoverageExport where
  scope := pivot.address.toText
  providers := pivot.runs.map providerOutcome
  networksLearned := pivot.networksLearned.map IpNet.toText

def deviceCoverage (record : CoverageRecord) : DeviceCoverageExport where
  device := record.device.toText
  addresses := record.addresses
  primaryAddress := record.primaryEndpoint
  tier := record.tier.label
  discoverySources := record.discoverySources
  stagesRun := record.stagesRun
  tcpAttempted := record.tcpAttempted
  tcpResponsive := record.tcpResponsive
  udpAttempted := record.udpAttempted
  protocolsConfirmed := record.protocolsConfirmed
  authRequired := record.authRequired
  vendorAdapters := record.vendorAdapters
  adapterOutcomes := record.adapterOutcomes
  notSent := record.localFailures
  omissions := record.omissions
  skipped := record.skipped
  silent := record.silent
  elapsedMs := record.elapsedMs

def vantageExport (v : VisibilityReport) : VantageExport where
  interface := v.interface
  kind := v.kind.label
  blindTo := v.blindTo
  unavailable := v.unavailable
  bindingMode := v.bindingMode.label
  observedFrames := v.observedFrames
  acceptedFacts := v.acceptedFacts

/-- The kinds there are nodes of, by their machine-readable names, with how many. -/
def nodesByKind (g : TopologyGraph) : List (Text × Nat) :=
  let kinds : List NodeKind :=
    [.host, .interface, .layer3Switch, .network, .opaqueBoundary, .router, .service, .switch, .vlan]
  (kinds.filter fun kind => g.nodeList.any (·.kind = kind)).map fun kind =>
    (kind.wire, g.nodeList.countP (·.kind = kind))

def summaryExport (report : RunReport) : SummaryExport :=
  let graded (c : Confidence) := report.graph.nodeList.countP (·.confidence = c)
  { counts := report.graph.counts
    devices := report.graph.counts.devices
    nodesByKind := nodesByKind report.graph
    observed := graded .observed
    advertised := graded .advertised
    inferred := graded .inferred
    userSupplied := graded .userSupplied
    totalNodes := report.graph.nodeCount
    converged := report.converged }

/-- Builds the serialisable view of a discovery run, at the given time. -/
def buildExport (report : RunReport) (generatedAt : Text) : TopologyExport where
  tool := "idNX"
  version := "0.3.2"
  generatedAt := generatedAt
  vantage := vantageExport report.visibility
  networks := (report.graph.networkRefs.map (networkExport report)).insertionSort fun a b =>
    ((compare a.cidr b.cidr).then (compare a.identityDomain.flat b.identityDomain.flat)).isLE
  vlans := (report.graph.vlansWithoutPrefix.sort.map unboundVlanExport ++
    report.graph.vlanNetworks.map boundVlanExport).insertionSort fun a b =>
      ((compare a.id b.id).then (compare a.net b.net)).isLE
  devices := ((report.graph.nodeList.filter fun n => isDeviceKind n.kind).map deviceExport).insertionSort fun a b =>
    (compare a.id b.id).isLE
  relationships := (report.graph.edgeList.map (relationshipExport report.graph)).insertionSort fun a b =>
    ((compare a.source b.source).then (compare a.target b.target)).isLE
  coverage := report.scopeRuns.map scopeCoverage ++ report.pivotRuns.map pivotCoverage
  deviceCoverage := report.coverage.map deviceCoverage
  summary := summaryExport report

end Idnx
