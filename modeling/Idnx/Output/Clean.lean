import Idnx.Output.Names
import Idnx.Providers.Passive

/-!
# Control characters in the document

Names, vendors, descriptions, capabilities and reasons are neutralised on their way into the document; identities,
vantages, details, interface names, domains and notes are copied as they are. `export_clean_iff`: no string of the
document holds a control character exactly if none of the copied texts does.
-/

namespace Idnx

/-- No text of the list holds a control character. -/
def AllClean (ts : List Text) : Prop := ∀ t ∈ ts, t.Clean

section AllClean

variable {α : Type} {ts us : List Text} {t : Text}

@[simp] theorem allClean_nil : AllClean [] := fun _ h => nomatch h

@[simp] theorem allClean_cons : AllClean (t :: ts) ↔ t.Clean ∧ AllClean ts := List.forall_mem_cons

@[simp] theorem allClean_append : AllClean (ts ++ us) ↔ AllClean ts ∧ AllClean us := List.forall_mem_append

@[simp] theorem allClean_flatMap {l : List α} {f : α → List Text} :
    AllClean (l.flatMap f) ↔ ∀ a ∈ l, AllClean (f a) :=
  List.forall_mem_flatMap

theorem allClean_map {l : List α} {f : α → Text} : AllClean (l.map f) ↔ ∀ a ∈ l, (f a).Clean := List.forall_mem_map

end AllClean

/-! ## The strings of the document -/

def DomainExport.texts (d : DomainExport) : List Text := d.kind :: (d.peer.toList ++ d.vantage.toList)

def ObserverExport.texts (o : ObserverExport) : List Text := o.kind :: (o.peer.toList ++ o.vantage.toList)

def EvidenceExport.texts (e : EvidenceExport) : List Text := e.source :: e.confidence :: e.vantage :: e.detail.toList

def ReachabilityExport.texts (r : ReachabilityExport) : List Text :=
  r.state :: r.note :: (r.responders ++ r.reasons ++ r.discovery)

def NetworkExport.texts (n : NetworkExport) : List Text :=
  n.cidr :: n.kind :: n.confidence :: (n.interfaces ++ n.identityDomain.texts ++
    n.observedBy.flatMap ObserverExport.texts ++ n.reachability.toList.flatMap ReachabilityExport.texts ++
    n.evidence.flatMap EvidenceExport.texts)

def VlanExport.texts (v : VlanExport) : List Text :=
  v.note :: (v.observedIn.texts ++ v.net.toList ++ v.evidence.flatMap EvidenceExport.texts)

def DeviceExport.texts (d : DeviceExport) : List Text :=
  d.id :: d.kind :: d.category :: d.confidence :: (d.addresses ++ d.hostnames ++ d.vendor.toList ++ d.descriptions ++
    d.roleEvidence ++ d.capabilities ++ d.observedBy.flatMap ObserverExport.texts ++ d.opaqueReason.toList ++
      d.evidence.flatMap EvidenceExport.texts)

def RelationshipExport.texts (r : RelationshipExport) : List Text :=
  r.source :: r.target :: r.relationship :: r.confidence :: r.evidence.flatMap EvidenceExport.texts

def CoverageExport.texts (c : CoverageExport) : List Text :=
  c.scope :: ((c.providers.flatMap fun p => p.provider :: p.note.toList) ++ c.networksLearned)

def DeviceCoverageExport.texts (c : DeviceCoverageExport) : List Text :=
  c.device :: c.tier :: (c.addresses ++ c.primaryAddress.toList ++ c.discoverySources ++ c.protocolsConfirmed ++
    c.vendorAdapters ++ c.adapterOutcomes ++ c.notSent ++ c.omissions ++ c.skipped.toList)

def VantageExport.texts (v : VantageExport) : List Text :=
  v.interface :: v.kind :: v.bindingMode :: (v.blindTo ++ v.unavailable)

/-- Every string of the document. -/
def TopologyExport.texts (doc : TopologyExport) : List Text :=
  doc.tool :: doc.version :: doc.generatedAt :: (doc.vantage.texts ++ doc.networks.flatMap NetworkExport.texts ++
    doc.vlans.flatMap VlanExport.texts ++ doc.devices.flatMap DeviceExport.texts ++
    doc.relationships.flatMap RelationshipExport.texts ++ doc.coverage.flatMap CoverageExport.texts ++
    doc.deviceCoverage.flatMap DeviceCoverageExport.texts ++ doc.summary.nodesByKind.map Prod.fst)

/-! ## The texts that are copied -/

def Realm.copied : Realm → List Text
  | .localRealm => []
  | .peerRealm peer vantage => [peer, vantage]

/-- Of an observation: where it was made, and what it says. -/
def Provenance.copied (p : Provenance) : List Text := p.vantage :: p.detail.toList

/-- Of an observer: a peer and its vantage. -/
def Provenance.observer (p : Provenance) : List Text :=
  p.origin.toList.flatMap fun origin => [origin.peer, origin.vantage]

def DeviceKey.copied : DeviceKey → List Text
  | .mac text => [text]
  | .address _ => []
  | .scopedAddress _ zone => [zone]

/-- Of an identity: the name of an interface, and the text or zone of a device. -/
def NodeId.copied : NodeId → List Text
  | .interface name _ => [name]
  | .device key => key.copied
  | _ => []

/-- Of the name of a node: its identity, if it has neither hostname nor address. -/
def Node.copiedName (n : Node) : List Text := if n.hostnames = ∅ ∧ n.addresses = ∅ then n.id.copied else []

def copiedLabel (g : TopologyGraph) (id : NodeId) : List Text :=
  match g.nodes.lookup id with
  | some n => n.copiedName
  | none => id.copied

def EndpointRecord.copied (e : EndpointRecord) : List Text :=
  (e.notSent.flatMap fun (reason, _) => [e.endpoint, reason]) ++ e.omitted.toList.flatMap fun reason =>
  [e.endpoint, reason]

def CoverageRecord.copied (c : CoverageRecord) : List Text :=
  c.device.copied ++ c.addresses ++ c.primaryEndpoint.toList ++ c.discoverySources ++ c.protocolsConfirmed ++
    c.vendorAdapters ++ c.adapterOutcomes ++ c.endpoints.flatMap EndpointRecord.copied ++ c.skipped.toList

def VisibilityReport.copied (v : VisibilityReport) : List Text := v.interface :: (v.blindTo ++ v.unavailable)

/-- The texts of a report that go into the document as they are. -/
def RunReport.copied (report : RunReport) : List Text :=
  let g := report.graph
  report.visibility.copied ++
    (g.networkRefs.flatMap fun ref => g.interfacesForNetwork ref ++ ref.realm.copied ++
      ((g.nodes.lookup (.network ref.net ref.realm)).toList.flatMap fun n =>
        n.provenance.flatMap fun p => p.observer ++ p.copied) ++
      (report.networkReachability.lookup ref).toList.flatMap fun r => r.reasons ++ r.discovery) ++
    (g.vlansWithoutPrefix.sort.flatMap fun vlan => vlan.realm.copied) ++
    (g.vlanNetworks.flatMap fun bound => bound.1.realm.copied ++ bound.2.2.flatMap Provenance.copied) ++
    ((g.nodeList.filter fun n => isDeviceKind n.kind).flatMap fun n => n.copiedName ++
      n.provenance.flatMap fun p => p.observer ++ p.copied) ++
    (g.edgeList.flatMap fun e => copiedLabel g e.source ++ copiedLabel g e.target ++
      e.provenance.flatMap Provenance.copied) ++
    ((report.scopeRuns.flatMap (·.runs) ++ report.pivotRuns.flatMap (·.runs)).flatMap fun run =>
      run.provider :: run.note.toList) ++
    report.coverage.flatMap CoverageRecord.copied

/-! ## Which of them matter -/

section Records

theorem allClean_domain {r : Realm} : AllClean (DomainExport.of r).texts ↔ AllClean r.copied := by
  cases r <;> simp [DomainExport.of, DomainExport.texts, Realm.copied, Text.isControl]

theorem clean_label_source (s : EvidenceSource) : s.label.Clean := by cases s <;> decide

theorem clean_label_confidence (c : Confidence) : c.label.Clean := by cases c <;> decide

theorem clean_label_kind (k : NodeKind) : k.label.Clean := by cases k <;> decide

theorem clean_wire_kind (k : NodeKind) : k.wire.Clean := by cases k <;> decide

theorem clean_label_relationship (r : Relationship) : r.label.Clean := by cases r <;> decide

theorem clean_label_category (c : DeviceCategory) : c.label.Clean := by cases c <;> decide

theorem clean_label_tier (t : DeviceTier) : t.label.Clean := by cases t <;> decide

theorem allClean_observers {n : Node} : AllClean ((observersOf n).flatMap ObserverExport.texts) ↔
    AllClean (n.provenance.flatMap Provenance.observer) := by
  have hone : ∀ o : Option PeerOrigin, AllClean (ObserverExport.of o).texts ↔
      AllClean (o.toList.flatMap fun origin => [origin.peer, origin.vantage]) := by
    intro o
    cases o <;> simp [ObserverExport.of, ObserverExport.texts, Text.isControl]
  simp only [observersOf, allClean_flatMap, List.mem_insertionSort, mem_keepFirst_id, List.forall_mem_map, hone,
    Provenance.observer]

theorem allClean_evidence {provenance : List Provenance} :
    AllClean ((evidenceOf provenance).flatMap EvidenceExport.texts) ↔
    AllClean (provenance.flatMap Provenance.copied) := by
  simp [evidenceOf, allClean_flatMap, mem_keepFirst_id, EvidenceExport.of, EvidenceExport.texts, Provenance.copied,
    clean_label_source, clean_label_confidence]

theorem clean_intercalate {sep : Text} (hsep : sep.Clean) {ts : List Text} (h : AllClean ts) :
    Text.Clean (List.intercalate sep ts) := by
  induction ts with
  | nil => exact Text.clean_nil
  | cons t ts ih =>
    rw [allClean_cons] at h
    cases ts with
    | nil => simpa using h.1
    | cons u us =>
      rw [List.intercalate_cons_cons, Text.clean_append, Text.clean_append]
      exact ⟨⟨h.1, hsep⟩, ih h.2⟩

/-- The sentence about a network says nothing that its reasons do not. -/
theorem clean_describe {r : NetworkReachability} (h : AllClean r.reasons) : r.describe.Clean := by
  have hdetail : Text.Clean (if r.reasons.isEmpty then ([] : Text) else
      (" (" : Text) ++ List.intercalate ("; " : Text) r.reasons ++ (")" : Text)) := by
    split_ifs
    · exact Text.clean_nil
    · rw [Text.clean_append, Text.clean_append]
      exact ⟨⟨by decide, clean_intercalate (by decide) h⟩, by decide⟩
  unfold NetworkReachability.describe
  dsimp only
  split
  · simp only [Text.clean_append, Text.clean_ofNat, hdetail, and_true]
    decide
  · simp only [Text.clean_append, Text.clean_ofNat, hdetail, and_true, true_and]
    decide
  · rw [Text.clean_append, Text.clean_append]
    refine ⟨⟨by decide, hdetail⟩, ?_⟩
    split_ifs
    · simp only [Text.clean_append, Text.clean_ofNat, and_true]
      decide
    · exact Text.clean_nil

theorem allClean_reachability {r : NetworkReachability} :
    AllClean (ReachabilityExport.of r).texts ↔ AllClean (r.reasons ++ r.discovery) := by
  have hstate : r.state.wire.Clean := by cases r.state <;> decide
  have haddresses : AllClean (r.responders.map IpAddr.toText) := allClean_map.mpr fun a _ => Text.clean_address a
  simp only [ReachabilityExport.of, ReachabilityExport.texts, allClean_cons, allClean_append, hstate, haddresses,
    true_and]
  exact ⟨fun h => h.2, fun h => ⟨clean_describe h.1, h⟩⟩

theorem clean_key {key : DeviceKey} : key.toText.Clean ↔ AllClean key.copied := by
  have hpercent : Text.isControl '%' = false := rfl
  cases key <;> simp [DeviceKey.toText, DeviceKey.copied, Text.clean_address, hpercent]

theorem clean_label_id {id : NodeId} : id.label.Clean ↔ AllClean id.copied := by
  cases id with
  | interface name r => simp [NodeId.label_interface, NodeId.copied]
  | network net r => simp [NodeId.label_network, NodeId.copied, Text.clean_net]
  | vlan tag r => simp [NodeId.label_vlan, NodeId.copied, Text.clean_ofNat, Text.isControl]
  | device key => exact clean_key
  | service a port r => simp [NodeId.label_service, NodeId.copied, Text.clean_address, Text.clean_ofNat, Text.isControl]

/-- A name is clean unless it is taken from the identity. -/
theorem clean_displayName {n : Node} : n.displayName.Clean ↔ AllClean n.copiedName := by
  unfold Node.displayName Node.copiedName
  cases hhost : n.hostnames.sort.head? with
  | some name =>
    have hne : n.hostnames ≠ ∅ := by
      rintro hempty
      simp [hempty] at hhost
    simp [hne, Text.clean_safeText]
  | none =>
    rw [List.head?_eq_none_iff] at hhost
    have hempty : n.hostnames = ∅ := by rw [← Finset.sort_toFinset n.hostnames (· ≤ ·), hhost]; rfl
    cases haddr : n.addresses.sort.head? with
    | some address =>
      have hne : n.addresses ≠ ∅ := by
        rintro hnone
        simp [hnone] at haddr
      simp [hne, Text.clean_address]
    | none =>
      rw [List.head?_eq_none_iff] at haddr
      have hnone : n.addresses = ∅ := by rw [← Finset.sort_toFinset n.addresses (· ≤ ·), haddr]; rfl
      simp [hempty, hnone, clean_label_id]

theorem clean_nodeLabel {g : TopologyGraph} {id : NodeId} : (nodeLabel g id).Clean ↔ AllClean (copiedLabel g id) := by
  unfold nodeLabel copiedLabel
  cases g.nodes.lookup id with
  | none => exact clean_label_id
  | some n => exact clean_displayName

/-- What is copied of the observations behind a node, in its observers and in its evidence. -/
theorem allClean_observations {n : Node} :
    AllClean ((observersOf n).flatMap ObserverExport.texts) ∧
      AllClean ((evidenceOf n.provenance).flatMap EvidenceExport.texts) ↔
      AllClean (n.provenance.flatMap fun p => p.observer ++ p.copied) := by
  rw [allClean_observers, allClean_evidence]
  simp only [allClean_flatMap, allClean_append]
  exact ⟨fun h p hp => ⟨h.1 p hp, h.2 p hp⟩, fun h => ⟨fun p hp => (h p hp).1, fun p hp => (h p hp).2⟩⟩

theorem allClean_network {report : RunReport} {ref : NetworkRef} :
    AllClean (networkExport report ref).texts ↔
      AllClean (report.graph.interfacesForNetwork ref ++ ref.realm.copied ++
        ((report.graph.nodes.lookup (.network ref.net ref.realm)).toList.flatMap fun n =>
          n.provenance.flatMap fun p => p.observer ++ p.copied) ++
        (report.networkReachability.lookup ref).toList.flatMap fun r => r.reasons ++ r.discovery) := by
  have hkind : Text.Clean (if isVirtualNetwork (report.graph.interfacesForNetwork ref) then "virtual".toList
      else "physical".toList) := by
    split_ifs <;> decide
  have hreach : AllClean ((((report.networkReachability.lookup ref).map .of).toList).flatMap ReachabilityExport.texts) ↔
      AllClean ((report.networkReachability.lookup ref).toList.flatMap fun r => r.reasons ++ r.discovery) := by
    cases report.networkReachability.lookup ref with
    | none => simp
    | some r => simpa using allClean_reachability
  unfold networkExport NetworkExport.texts
  simp only [allClean_cons, allClean_append, Text.clean_net, hkind, allClean_domain, hreach, true_and]
  cases report.graph.nodes.lookup (.network ref.net ref.realm) with
  | none => simp [clean_label_confidence]
  | some n =>
    simp only [Option.map_some, Option.getD_some, Option.toList_some, List.flatMap_singleton, clean_label_confidence,
      true_and, ← allClean_observations]
    tauto

theorem allClean_device {n : Node} : AllClean (deviceExport n).texts ↔
    AllClean (n.copiedName ++ n.provenance.flatMap fun p => p.observer ++ p.copied) := by
  have hsafe : ∀ ts : Finset Text, AllClean (ts.sort.map Text.safeText) :=
    fun ts => allClean_map.mpr fun t _ => Text.clean_safeText t
  have hoption : ∀ t : Option Text, AllClean (t.map Text.safeText).toList := by
    intro t
    cases t <;> simp [Text.clean_safeText]
  have haddresses : AllClean (n.addresses.sort.map IpAddr.toText) := allClean_map.mpr fun a _ => Text.clean_address a
  have hcategory : Text.Clean (((categorize n).map DeviceCategory.label).getD []) := by
    cases categorize n <;> simp [clean_label_category]
  simp only [deviceExport, DeviceExport.texts, allClean_cons, allClean_append, clean_displayName, hsafe, hoption,
    haddresses, hcategory, clean_label_kind, clean_label_confidence, true_and, and_true, ← allClean_observations]

theorem allClean_relationship {g : TopologyGraph} {e : Edge} : AllClean (relationshipExport g e).texts ↔
    AllClean (copiedLabel g e.source ++ copiedLabel g e.target ++ e.provenance.flatMap Provenance.copied) := by
  simp only [relationshipExport, RelationshipExport.texts, allClean_cons, allClean_append, clean_nodeLabel,
    clean_label_relationship, clean_label_confidence, true_and, allClean_evidence, and_assoc]

theorem allClean_endpoints {c : CoverageRecord} : AllClean c.localFailures ∧ AllClean c.omissions ↔
    AllClean (c.endpoints.flatMap EndpointRecord.copied) := by
  have hfailures : AllClean c.localFailures ↔ ∀ e ∈ c.endpoints, ∀ failure ∈ e.notSent, e.endpoint.Clean ∧
      Text.Clean failure.1 := by
    have htexts : Text.Clean ": ".toList ∧ Text.Clean " probe(s) not sent: ".toList := by decide
    simp only [CoverageRecord.localFailures, allClean_flatMap, allClean_map, Text.clean_append, htexts.1, htexts.2,
      Text.clean_ofNat, and_true]
  have homissions : AllClean c.omissions ↔ ∀ e ∈ c.endpoints, ∀ reason ∈ e.omitted.toList, e.endpoint.Clean ∧
      Text.Clean reason := by
    have htext : Text.Clean ": ".toList := by decide
    unfold CoverageRecord.omissions AllClean
    simp only [List.mem_filterMap, Option.map_eq_some_iff, Option.mem_toList]
    constructor
    · intro h e he reason hreason
      have hclean := h _ ⟨e, he, reason, hreason, rfl⟩
      rw [Text.clean_append, Text.clean_append] at hclean
      exact ⟨hclean.1.1, hclean.2⟩
    · rintro h _ ⟨e, he, reason, hreason, rfl⟩
      rw [Text.clean_append, Text.clean_append]
      exact ⟨⟨(h e he reason hreason).1, htext⟩, (h e he reason hreason).2⟩
  rw [hfailures, homissions]
  simp only [EndpointRecord.copied, allClean_flatMap, allClean_append, allClean_cons, allClean_nil, and_true]
  exact ⟨fun h e he => ⟨h.1 e he, h.2 e he⟩, fun h => ⟨fun e he => (h e he).1, fun e he => (h e he).2⟩⟩

theorem allClean_coverage {c : CoverageRecord} : AllClean (deviceCoverage c).texts ↔ AllClean c.copied := by
  simp only [deviceCoverage, DeviceCoverageExport.texts, CoverageRecord.copied, allClean_cons, allClean_append,
    clean_key, clean_label_tier, true_and, ← allClean_endpoints]
  tauto

theorem allClean_runs {scope : Text} {learned : List IpNet} (hscope : scope.Clean) {runs : List ProviderRun} :
    AllClean (CoverageExport.mk scope (runs.map providerOutcome) (learned.map IpNet.toText)).texts ↔
      AllClean (runs.flatMap fun run => run.provider :: run.note.toList) := by
  have hlearned : AllClean (learned.map IpNet.toText) := allClean_map.mpr fun net _ => Text.clean_net net
  simp only [CoverageExport.texts, allClean_cons, allClean_append, hscope, hlearned, allClean_flatMap,
    List.forall_mem_map, providerOutcome, true_and, and_true]

/-- Records that are sorted and written out one by one are clean if what is copied into each of them is. -/
theorem allClean_sorted {α β : Type} {l : List α} {f : α → β} {texts : β → List Text} {copied : α → List Text}
    (le : β → β → Prop) [DecidableRel le] (h : ∀ a ∈ l, AllClean (texts (f a)) ↔ AllClean (copied a)) :
    AllClean (((l.map f).insertionSort le).flatMap texts) ↔ AllClean (l.flatMap copied) := by
  simp only [allClean_flatMap, List.mem_insertionSort, List.forall_mem_map]
  exact forall₂_congr h

theorem allClean_vlans {g : TopologyGraph} :
    AllClean (((g.vlansWithoutPrefix.sort.map unboundVlanExport ++ g.vlanNetworks.map boundVlanExport).insertionSort
        fun a b => ((compare a.id b.id).then (compare a.net b.net)).isLE).flatMap VlanExport.texts) ↔
      AllClean (g.vlansWithoutPrefix.sort.flatMap fun vlan => vlan.realm.copied) ∧
        AllClean (g.vlanNetworks.flatMap fun bound => bound.1.realm.copied ++
        bound.2.2.flatMap Provenance.copied) := by
  have hunbound : ∀ vlan, AllClean (unboundVlanExport vlan).texts ↔ AllClean vlan.realm.copied := by
    intro vlan
    have hnote : Text.Clean "observed on the wire; no prefix evidence".toList := by decide
    simp only [unboundVlanExport, VlanExport.texts, allClean_cons, allClean_append, allClean_domain, hnote, true_and,
      Option.toList_none, List.flatMap_nil, allClean_nil, and_true]
  have hbound : ∀ bound, AllClean (boundVlanExport bound).texts ↔
      AllClean (bound.1.realm.copied ++ bound.2.2.flatMap Provenance.copied) := by
    rintro ⟨vlan, net, provenance⟩
    have hnote : Text.Clean "one observation stated both the tag and the prefix".toList := by decide
    simp only [boundVlanExport, VlanExport.texts, allClean_cons, allClean_append, allClean_domain, hnote, true_and,
      Option.toList_some, allClean_nil, Text.clean_net, and_true, allClean_evidence]
  simp only [allClean_flatMap, List.mem_insertionSort, List.forall_mem_append, List.forall_mem_map, hunbound, hbound]

end Records

/-- **Exactly the copied texts decide whether the document holds control characters.** Of everything in a report,
hostnames, vendors, descriptions, role evidence, capabilities and reasons of a device, and all that is printed from
addresses, prefixes and numbers, is always clean. -/
theorem export_clean_iff (report : RunReport) (generatedAt : Text) :
    (∀ t ∈ (buildExport report generatedAt).texts, t.Clean) ↔ ∀ t ∈ generatedAt :: report.copied, t.Clean := by
  change AllClean _ ↔ AllClean _
  have hnamed : Text.Clean "idNX".toList ∧ Text.Clean "0.3.2".toList := by decide
  have hvantage : AllClean (vantageExport report.visibility).texts ↔ AllClean report.visibility.copied := by
    have hkind : report.visibility.kind.label.Clean := by cases report.visibility.kind <;> decide
    have hmode : report.visibility.bindingMode.label.Clean := by cases report.visibility.bindingMode <;> decide
    simp only [vantageExport, VantageExport.texts, VisibilityReport.copied, allClean_cons, hkind, hmode, true_and]
  have hcoverage : AllClean ((report.scopeRuns.map scopeCoverage ++ report.pivotRuns.map pivotCoverage).flatMap
      CoverageExport.texts) ↔ AllClean ((report.scopeRuns.flatMap (·.runs) ++
      report.pivotRuns.flatMap (·.runs)).flatMap
        fun run => run.provider :: run.note.toList) := by
    have hscopes : ∀ run, AllClean (scopeCoverage run).texts ↔
        AllClean (run.runs.flatMap fun r => r.provider :: r.note.toList) := by
      intro run
      have hscope : Text.Clean ((run.scope.map IpNet.toText).getD "local machine".toList) := by
        cases run.scope with
        | none => decide
        | some net => exact Text.clean_net net
      exact @allClean_runs _ [] hscope run.runs
    have hpivots : ∀ pivot, AllClean (pivotCoverage pivot).texts ↔
        AllClean (pivot.runs.flatMap fun r => r.provider :: r.note.toList) :=
      fun pivot => allClean_runs (Text.clean_address pivot.address)
    rw [List.flatMap_append, List.flatMap_append, allClean_append, allClean_append, List.flatMap_assoc,
      List.flatMap_assoc, allClean_flatMap, allClean_flatMap, allClean_flatMap, allClean_flatMap]
    simp only [List.forall_mem_map, hscopes, hpivots]
  have hdevices : AllClean ((report.coverage.map deviceCoverage).flatMap DeviceCoverageExport.texts) ↔
      AllClean (report.coverage.flatMap CoverageRecord.copied) := by
    simp only [allClean_flatMap, List.forall_mem_map, allClean_coverage]
  have hkinds : AllClean ((nodesByKind report.graph).map Prod.fst) := by
    simp only [nodesByKind, List.map_map, allClean_map, Function.comp_apply]
    exact fun kind _ => clean_wire_kind kind
  unfold buildExport TopologyExport.texts RunReport.copied
  dsimp only
  simp only [allClean_cons, allClean_append, hnamed.1, hnamed.2, hvantage, true_and,
    allClean_sorted _ fun ref _ => allClean_network, allClean_vlans, allClean_sorted _ fun n _ => allClean_device,
    allClean_sorted _ fun e _ => allClean_relationship, hcoverage, hdevices, summaryExport, hkinds, and_true,
    and_assoc]

/-- An LLDP frame of a device whose chassis identifier, of the kind that is locally assigned, is a terminal escape
sequence; it has a port and a description, and no name. -/
def escapingFrame : Bytes :=
  [0x01, 0x80, 0xC2, 0x00, 0x00, 0x0E, 0x02, 0x00, 0x5E, 0x00, 0x00, 0x01, 0x88, 0xCC] ++
    [0x02, 0x05, 0x07, 0x1B, 0x5B, 0x32, 0x4A] ++ [0x04, 0x02, 0x05, 0x70] ++ [0x0C, 0x01, 0x64] ++ [0x00, 0x00]

/-- The neighbour of that frame. -/
def escapingNeighbor : LldpNeighbor :=
  { chassisId := ['\x1b', '[', '2', 'J'], portId := "p", systemName := none, systemDescription := some "d",
    managementIp := none, capabilities := [] }

/-- What a run makes of it. -/
def escapingReport : RunReport :=
  reportOf (build ((convertUnscoped "eth0" 0 [.linkLayerNeighbor escapingNeighbor]).map .absorb))

/-- The escape sequence is the identity of the device in the document. -/
theorem escape_in_export :
    decodeFrame escapingFrame = (.ok [.linkLayerNeighbor escapingNeighbor] : Outcome Unit _) ∧
      (∃ d ∈ (buildExport escapingReport []).devices, d.id = ['\x1b', '[', '2', 'j']) ∧
      ¬∀ t ∈ (buildExport escapingReport []).texts, t.Clean := by
  have hnode : (escapingReport.graph.nodes.lookup (.device (.mac ['\x1b', '[', '2', 'j']))).map
      (fun n => (n.id, n.kind, n.hostnames, n.addresses)) =
        some (.device (.mac ['\x1b', '[', '2', 'j']), .host, ∅, ∅) := by decide
  obtain ⟨n, hn, htraits⟩ := Option.map_eq_some_iff.mp hnode
  simp only [Prod.mk.injEq] at htraits
  obtain ⟨hid, hkind, hhosts, haddresses⟩ := htraits
  have hname : (deviceExport n).id = ['\x1b', '[', '2', 'j'] := by
    simp [deviceExport, Node.displayName, hhosts, haddresses, hid, NodeId.label_device, DeviceKey.toText]
  have hdevice : deviceExport n ∈ (buildExport escapingReport []).devices := by
    refine (List.mem_insertionSort _).mpr (List.mem_map_of_mem (List.mem_filter.mpr ?_))
    exact ⟨TopologyGraph.mem_nodeList.mpr ⟨_, hn⟩, by rw [hkind]; rfl⟩
  refine ⟨by decide, ⟨_, hdevice, hname⟩, fun h => ?_⟩
  have htext : ['\x1b', '[', '2', 'j'] ∈ (buildExport escapingReport []).texts := by
    unfold TopologyExport.texts
    simp only [List.mem_cons, List.mem_append, List.mem_flatMap]
    exact .inr (.inr (.inr (.inl (.inl (.inl (.inl (.inr
      ⟨_, hdevice, by rw [← hname]; exact List.mem_cons_self⟩)))))))
  exact absurd (h _ htext '\x1b' List.mem_cons_self) (by decide)

end Idnx
