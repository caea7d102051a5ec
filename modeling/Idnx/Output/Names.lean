import Idnx.Output.Export

/-!
# Nodes and their names in the document

A relationship names its ends by what they are called (`nodeLabel`), which leaves out the domain of an identity and
prefers a name the device chose. `export_apart_iff`: exactly when different ends are still told apart and each end
that is a device or a network is one entry of the document.
-/

namespace Idnx

/-! ## Only devices have names and addresses -/

/-- A node that is no device has neither hostnames nor addresses. -/
def Plainly (g : TopologyGraph) : Prop :=
  ∀ id n, g.nodes.lookup id = some n → (n.hostnames.Nonempty ∨ n.addresses.Nonempty) → id.family = .device

theorem family_of_hostname {owner : Slot → Option DeviceKey} {ev : TopologyEvidence} {fact : Fact} {id : NodeId}
    {name : Text} (h : .note id (.hostname name) ∈ planFact owner ev fact) : id.family = .device := by
  cases mem_planFact_iff.mp h with
  | remark => rfl
  | resolve => rfl

namespace Plainly

variable {g : TopologyGraph}

theorem exec {ev : TopologyEvidence} {owner : Slot → Option DeviceKey} {c : Command} (hc : c ∈ plan owner ev)
    (h : Plainly g) : Plainly (exec ev g c) := by
  intro id n hn hnamed
  by_cases hdevice : id.family = .device
  · exact hdevice
  have hne : ∀ k, id ≠ .device k := by
    rintro k rfl
    exact hdevice rfl
  cases c with
  | upsert j kind =>
    rw [Idnx.exec, TopologyGraph.lookup_upsert] at hn
    split_ifs at hn with hid
    · subst hid
      cases hn
      cases hold : g.nodes.lookup id with
      | none =>
        rw [hold] at hnamed
        simp [Node.support, Node.new] at hnamed
      | some n₀ =>
        rw [hold] at hnamed
        exact h id n₀ hold hnamed
    · exact h id n hn hnamed
  | note j note =>
    rw [Idnx.exec, TopologyGraph.lookup_modifyNode] at hn
    split_ifs at hn with hid
    · subst hid
      obtain ⟨n₀, hn₀, rfl⟩ := Option.map_eq_some_iff.mp hn
      refine h id n₀ hn₀ ?_
      cases note with
      | hostname name => exact absurd (family_of_hostname hc) hdevice
      | vendor v =>
        rw [Note.write] at hnamed
        split_ifs at hnamed <;> exact hnamed
      | boundary why =>
        rw [Note.write] at hnamed
        split_ifs at hnamed <;> exact hnamed
      | _ => exact hnamed
    · exact h id n hn hnamed
  | claim slot key =>
    rw [Idnx.exec, TopologyGraph.lookup_settleClaim_of_ne hne] at hn
    exact h id n hn hnamed
  | _ => exact h id n hn hnamed

theorem merge (h : Plainly g) : Plainly g.mergeAddressIdentities.1 := by
  intro id n hn hnamed
  have hjoin : ∀ t s : Node, ((foldNode t s).hostnames.Nonempty ∨ (foldNode t s).addresses.Nonempty) ↔
      (t.hostnames.Nonempty ∨ t.addresses.Nonempty) ∨ (s.hostnames.Nonempty ∨ s.addresses.Nonempty) := by
    intro t s
    rw [foldNode_eq]
    simp only [Finset.union_nonempty]
    tauto
  obtain ⟨i, n₀, rfl, hn₀, hnamed₀⟩ := (TopologyGraph.exists_node_merge
    (Φ := fun n => n.hostnames.Nonempty ∨ n.addresses.Nonempty) hjoin).mp ⟨n, hn, hnamed⟩
  rw [family_renameNode]
  exact h i n₀ hn₀ hnamed₀

theorem rekind (changes : List (NodeId × (NodeKind → NodeKind))) (h : Plainly g) : Plainly (g.rekind changes) := by
  induction changes generalizing g with
  | nil => exact h
  | cons c cs ih =>
    refine ih ?_
    intro id n hn hnamed
    rw [TopologyGraph.lookup_modifyNode] at hn
    split_ifs at hn with hid
    · subst hid
      obtain ⟨n₀, hn₀, rfl⟩ := Option.map_eq_some_iff.mp hn
      exact h _ n₀ hn₀ hnamed
    · exact h id n hn hnamed

end Plainly

theorem plainly_build (ops : List GraphOp) : Plainly (build ops) := by
  refine run_induction (P := fun _ g => Plainly g) GraphOp.apply ?_ (fun h op hP => ?_) ops
  · intro id n hn
    cases hn
  · cases op with
    | absorb ev =>
      rw [GraphOp.apply, absorb_eq_plan]
      exact foldl_exec_inv (fun c hc g hg => hg.exec hc) hP
    | merge => exact hP.merge
    | finalize => exact (hP.merge.rekind _).rekind _

/-! ## What the ends are called -/

/-- Which end of an edge. -/
inductive EdgeSide where
  | source
  | target

def Edge.side (e : Edge) : EdgeSide → NodeId
  | .source => e.source
  | .target => e.target

def RelationshipExport.side (r : RelationshipExport) : EdgeSide → Text
  | .source => r.source
  | .target => r.target

/-- The identity is a node of the graph and an end of some edge. -/
def EndNode (g : TopologyGraph) (id : NodeId) : Prop := id ∈ g.nodes ∧ ∃ e ∈ g.edgeList, ∃ side, e.side side = id

/-- The document tells the nodes of the relationships apart: different ends have different texts, and an end that is a
device or a network is one entry of the document. -/
structure KeepsApart (report : RunReport) (doc : TopologyExport) : Prop where
  relationships : doc.relationships.Perm (report.graph.edgeList.map (relationshipExport report.graph))
  texts : ∀ e ∈ report.graph.edgeList, ∀ f ∈ report.graph.edgeList, ∀ s t : EdgeSide, e.side s ∈ report.graph.nodes →
    f.side t ∈ report.graph.nodes → e.side s ≠ f.side t →
    (relationshipExport report.graph e).side s ≠ (relationshipExport report.graph f).side t
  devices : ∀ e ∈ report.graph.edgeList, ∀ s key, e.side s = .device key → .device key ∈ report.graph.nodes →
    doc.devices.countP (fun d => d.id = (relationshipExport report.graph e).side s) = 1
  networks : ∀ e ∈ report.graph.edgeList, ∀ s net realm, e.side s = .network net realm →
    .network net realm ∈ report.graph.nodes →
    doc.networks.countP (fun n => n.cidr = (relationshipExport report.graph e).side s ∧
    n.identityDomain = .of realm) = 1

/-- The nodes of the relationships have names of their own: none is told from another by its domain alone, no device
shares its display name with another one, and no name is that of an end of another family. -/
structure NamedApart (g : TopologyGraph) : Prop where
  interfaces : ∀ name r r', EndNode g (.interface name r) → EndNode g (.interface name r') → r = r'
  networks : ∀ net r r', EndNode g (.network net r) → EndNode g (.network net r') → r = r'
  vlans : ∀ tag r r', EndNode g (.vlan tag r) → EndNode g (.vlan tag r') → r = r'
  services : ∀ a port r r', EndNode g (.service a port r) → EndNode g (.service a port r') → r = r'
  devices : ∀ k n k' n', EndNode g (.device k) → g.nodes.lookup (.device k) = some n →
    g.nodes.lookup (.device k') = some n' → n.displayName = n'.displayName → k = k'
  deviceNames : ∀ k n id, EndNode g (.device k) → g.nodes.lookup (.device k) = some n → EndNode g id →
    id.family ≠ .device → n.displayName ≠ id.label
  interfaceNames : ∀ name r id, EndNode g (.interface name r) → EndNode g id → id.family ≠ .device →
    id.family ≠ .interface → name ≠ id.label

section Labels

variable {g : TopologyGraph}

theorem side_relationshipExport (e : Edge) (s : EdgeSide) :
    (relationshipExport g e).side s = nodeLabel g (e.side s) := by
  cases s <;> rfl

theorem displayName_of_plain {n : Node} (h : ¬(n.hostnames.Nonempty ∨ n.addresses.Nonempty)) :
    n.displayName = n.id.label := by
  rw [not_or, Finset.not_nonempty_iff_eq_empty, Finset.not_nonempty_iff_eq_empty] at h
  simp [Node.displayName, h.1, h.2]

/-- A node that is no device is called by its identity. -/
theorem nodeLabel_of_not_device (hsorted : Sorted g) (hplain : Plainly g) {id : NodeId} (hid : id.family ≠ .device) :
    nodeLabel g id = id.label := by
  unfold nodeLabel
  cases hn : g.nodes.lookup id with
  | none => rfl
  | some n =>
    dsimp only
    rw [displayName_of_plain fun hnamed => hid (hplain id n hn hnamed), hsorted.keyed id n hn]

theorem vlan_label_inj {tag tag' : UInt16} {r r' : Realm}
    (h : (NodeId.vlan tag r).label = (NodeId.vlan tag' r').label) :
    tag = tag' :=
  UInt16.toNat_inj.mp (Text.ofNat_inj (List.append_cancel_left h))

theorem service_label_inj {a a' : IpAddr} {port port' : UInt16} {r r' : Realm}
    (h : (NodeId.service a port r).label = (NodeId.service a' port' r').label) : a = a' ∧ port = port' := by
  -- the port is what follows the last colon
  have hcolon : ∀ n, ':' ∉ Text.ofNat n := fun n hmem => (forall_mem_ofNat n _ hmem).2.2 rfl
  have hback := congrArg List.reverse h
  simp only [NodeId.label_service, List.reverse_append, List.reverse_cons, List.append_assoc,
    List.singleton_append] at hback
  have hcut := congrArg (Text.splitOnce ':') hback
  rw [Text.splitOnce_append (by simpa using hcolon _), Text.splitOnce_append (by simpa using hcolon _),
    Option.some.injEq, Prod.mk.injEq, List.reverse_inj, List.reverse_inj] at hcut
  exact ⟨IpAddr.toText_inj hcut.2, UInt16.toNat_inj.mp (Text.ofNat_inj hcut.1)⟩

theorem forall_mem_service_label (a : IpAddr) (port : UInt16) (r : Realm) :
    ∀ c ∈ (NodeId.service a port r).label, c ∈ addressChars := by
  simp only [NodeId.label_service, List.forall_mem_append, List.forall_mem_cons]
  exact ⟨a.forall_mem_toText, by decide, fun c hc => (forall_mem_ofNat _ c hc).1⟩

theorem slash_mem_network_label (net : IpNet) (r : Realm) : '/' ∈ (NodeId.network net r).label := by
  simp [NodeId.label_network, IpNet.toText]

/-- The names of networks, VLANs and services are never confused. -/
theorem network_label_ne_vlan (net : IpNet) (tag : UInt16) (r r' : Realm) :
    (NodeId.network net r).label ≠ (NodeId.vlan tag r').label := by
  intro h
  have hmem : 'V' ∈ net.toText := by
    rw [show net.toText = (NodeId.vlan tag r').label from h]
    exact List.mem_append_left _ (by decide)
  exact absurd (net.forall_mem_toText 'V' hmem) (by decide)

theorem network_label_ne_service (net : IpNet) (a : IpAddr) (port : UInt16) (r r' : Realm) :
    (NodeId.network net r).label ≠ (NodeId.service a port r').label := by
  intro h
  exact absurd (forall_mem_service_label a port r' '/' (h ▸ slash_mem_network_label net r)) (by decide)

theorem vlan_label_ne_service (tag : UInt16) (a : IpAddr) (port : UInt16) (r r' : Realm) :
    (NodeId.vlan tag r).label ≠ (NodeId.service a port r').label := by
  intro h
  have hmem : 'V' ∈ (NodeId.service a port r').label := by
    rw [← h]
    exact List.mem_append_left _ (by decide)
  exact absurd (forall_mem_service_label a port r' 'V' hmem) (by decide)

/-- Ends that are no devices are told apart by what their identities are called. -/
theorem NamedApart.eq_of_label (h : NamedApart g) {a b : NodeId} (ha : EndNode g a) (hb : EndNode g b)
    (hfa : a.family ≠ .device) (hfb : b.family ≠ .device) (he : a.label = b.label) : a = b := by
  cases a with
  | device k => exact absurd rfl hfa
  | interface name r =>
    cases b with
    | device k => exact absurd rfl hfb
    | interface name' r' =>
      obtain rfl : name = name' := he
      rw [h.interfaces name r r' ha hb]
    | network net r' => exact absurd he (h.interfaceNames name r _ ha hb hfb nofun)
    | vlan tag r' => exact absurd he (h.interfaceNames name r _ ha hb hfb nofun)
    | service a port r' => exact absurd he (h.interfaceNames name r _ ha hb hfb nofun)
  | network net r =>
    cases b with
    | device k => exact absurd rfl hfb
    | interface name r' => exact absurd he.symm (h.interfaceNames name r' _ hb ha hfa nofun)
    | network net' r' =>
      obtain rfl := IpNet.toText_inj he
      rw [h.networks net r r' ha hb]
    | vlan tag r' => exact absurd he (network_label_ne_vlan net tag r r')
    | service a port r' => exact absurd he (network_label_ne_service net a port r r')
  | vlan tag r =>
    cases b with
    | device k => exact absurd rfl hfb
    | interface name r' => exact absurd he.symm (h.interfaceNames name r' _ hb ha hfa nofun)
    | network net r' => exact absurd he.symm (network_label_ne_vlan net tag r' r)
    | vlan tag' r' =>
      obtain rfl := vlan_label_inj he
      rw [h.vlans tag r r' ha hb]
    | service a port r' => exact absurd he (vlan_label_ne_service tag a port r r')
  | service addr port r =>
    cases b with
    | device k => exact absurd rfl hfb
    | interface name r' => exact absurd he.symm (h.interfaceNames name r' _ hb ha hfa nofun)
    | network net r' => exact absurd he.symm (network_label_ne_service net addr port r' r)
    | vlan tag r' => exact absurd he.symm (vlan_label_ne_service tag addr port r' r)
    | service addr' port' r' =>
      obtain ⟨rfl, rfl⟩ := service_label_inj he
      rw [h.services addr port r r' ha hb]

/-- Different ends are called differently exactly if they are named apart. -/
theorem NamedApart.eq_of_nodeLabel (hsorted : Sorted g) (hplain : Plainly g) (h : NamedApart g) {a b : NodeId}
    (ha : EndNode g a) (hb : EndNode g b) (he : nodeLabel g a = nodeLabel g b) : a = b := by
  have hname : ∀ {k n}, g.nodes.lookup (.device k) = some n → nodeLabel g (.device k) = n.displayName := by
    intro k n hn
    rw [nodeLabel, hn]
  by_cases hfa : a.family = .device
  · cases a with
    | device k =>
      obtain ⟨n, hn⟩ := Map.mem_iff_lookup.mp ha.1
      rw [hname hn] at he
      by_cases hfb : b.family = .device
      · cases b with
        | device k' =>
          obtain ⟨n', hn'⟩ := Map.mem_iff_lookup.mp hb.1
          rw [hname hn'] at he
          rw [h.devices k n k' n' ha hn hn' he]
        | _ => cases hfb
      · rw [nodeLabel_of_not_device hsorted hplain hfb] at he
        exact absurd he (h.deviceNames k n b ha hn hb hfb)
    | _ => cases hfa
  · rw [nodeLabel_of_not_device hsorted hplain hfa] at he
    by_cases hfb : b.family = .device
    · cases b with
      | device k =>
        obtain ⟨n, hn⟩ := Map.mem_iff_lookup.mp hb.1
        rw [hname hn] at he
        exact absurd he.symm (h.deviceNames k n a hb hn ha hfa)
      | _ => cases hfb
    · rw [nodeLabel_of_not_device hsorted hplain hfb] at he
      exact h.eq_of_label ha hb hfa hfb he

end Labels

/-! ## One entry each -/

section Entries

variable {α : Type} {p : α → Bool} {l : List α} {a : α}

theorem countP_eq_one_iff (hnodup : l.Nodup) (ha : a ∈ l) (hp : p a = true) :
    l.countP p = 1 ↔ ∀ b ∈ l, p b = true → b = a := by
  rw [List.countP_eq_length_filter, List.length_eq_one_iff]
  have hmem : a ∈ l.filter p := List.mem_filter.mpr ⟨ha, hp⟩
  constructor
  · rintro ⟨c, hc⟩ b hb hpb
    have hbc : b ∈ l.filter p := List.mem_filter.mpr ⟨hb, hpb⟩
    rw [hc, List.mem_singleton] at hmem hbc
    rw [hmem, hbc]
  · intro hall
    refine ⟨a, ?_⟩
    refine (List.perm_singleton.mp ?_)
    refine (List.perm_ext_iff_of_nodup (hnodup.filter p) (List.nodup_singleton a)).mpr fun b => ?_
    rw [List.mem_singleton]
    constructor
    · intro hb
      exact hall b (List.mem_filter.mp hb).1 (List.mem_filter.mp hb).2
    · rintro rfl
      exact hmem

end Entries

section Document

variable {report : RunReport} {generatedAt : Text}

theorem isDeviceKind_iff {kind : NodeKind} : isDeviceKind kind = true ↔ kind.family = .device := by
  cases kind <;> simp [isDeviceKind, NodeKind.family]

theorem countP_devices (name : Text) :
    (buildExport report generatedAt).devices.countP (fun d => d.id = name) =
      (report.graph.nodeList.filter fun n => isDeviceKind n.kind).countP fun n => n.displayName = name := by
  unfold buildExport
  dsimp only
  rw [(List.perm_insertionSort _ _).countP_eq, List.countP_map]
  rfl

theorem countP_networks (cidr : Text) (domain : DomainExport) :
    (buildExport report generatedAt).networks.countP (fun n => n.cidr = cidr ∧ n.identityDomain = domain) =
      report.graph.networkRefs.countP fun ref => ref.net.toText = cidr ∧ DomainExport.of ref.realm = domain := by
  unfold buildExport
  dsimp only
  rw [(List.perm_insertionSort _ _).countP_eq, List.countP_map]
  rfl

/-- A network of the graph is one entry of the document, by its prefix and its domain. -/
theorem countP_networks_eq_one (hsorted : Sorted report.graph) {net : IpNet} {realm : Realm}
    (hmem : .network net realm ∈ report.graph.nodes) :
    (buildExport report generatedAt).networks.countP
      (fun n => n.cidr = net.toText ∧ n.identityDomain = .of realm) = 1 := by
  have hdomain : ∀ r r' : Realm, DomainExport.of r = .of r' → r = r' := by
    intro r r' h
    cases r <;> cases r' <;> simp_all [DomainExport.of]
  rw [countP_networks]
  refine (countP_eq_one_iff (a := ⟨net, realm⟩) (TopologyGraph.nodup_networkRefs hsorted)
    ((TopologyGraph.mem_networkRefs hsorted).mpr hmem) (by simp)).mpr ?_
  rintro ⟨net', realm'⟩ - h
  rw [decide_eq_true_eq] at h
  obtain rfl := IpNet.toText_inj h.1
  obtain rfl := hdomain _ _ h.2
  rfl

/-- A device of the graph is one entry of the document exactly if no other device has its name. -/
theorem countP_devices_eq_one_iff (hsorted : Sorted report.graph) {k : DeviceKey} {n : Node}
    (hn : report.graph.nodes.lookup (.device k) = some n) :
    (buildExport report generatedAt).devices.countP (fun d => d.id = n.displayName) = 1 ↔
      ∀ k' n', report.graph.nodes.lookup (.device k') = some n' → n.displayName = n'.displayName → k = k' := by
  have hnodup : (report.graph.nodeList.filter fun n => isDeviceKind n.kind).Nodup :=
    ((TopologyGraph.nodup_map_id_nodeList hsorted).of_map _).filter _
  have hmem : ∀ {key n'}, report.graph.nodes.lookup (.device key) = some n' →
      n' ∈ report.graph.nodeList.filter fun n => isDeviceKind n.kind := by
    intro key n' hn'
    exact List.mem_filter.mpr
      ⟨TopologyGraph.mem_nodeList.mpr ⟨_, hn'⟩, isDeviceKind_iff.mpr (hsorted.kinds _ n' hn')⟩
  rw [countP_devices, countP_eq_one_iff hnodup (hmem hn) (by simp)]
  constructor
  · intro h k' n' hn' hname
    have heq := h n' (hmem hn') (by simp [hname])
    have hids := (hsorted.keyed _ n hn).symm.trans ((congrArg Node.id heq).symm.trans (hsorted.keyed _ n' hn'))
    exact NodeId.device.inj hids
  · intro h n' hn' hname
    obtain ⟨hlist, hkind⟩ := List.mem_filter.mp hn'
    obtain ⟨id, hid⟩ := TopologyGraph.mem_nodeList.mp hlist
    have hfamily := (hsorted.kinds id n' hid).symm.trans (isDeviceKind_iff.mp hkind)
    cases id with
    | device k' =>
      have hk := h k' n' hid (by simpa using Eq.symm (by simpa using hname))
      subst hk
      rw [hn] at hid
      cases hid
      rfl
    | _ => cases hfamily

end Document

/-- **Exports keep distinct nodes distinct exactly if the names of the nodes do.** Different nodes that are ends of
relationships have different texts there, and each of them that is a device or a network is one entry of the document,
exactly if none is told from another by its domain alone, no device shares its display name with another one, and no
name is that of an end of another family. -/
theorem export_apart_iff (ops : List GraphOp) (report : RunReport) (hgraph : report.graph = build ops)
    (generatedAt : Text) : KeepsApart report (buildExport report generatedAt) ↔ NamedApart report.graph := by
  have hsorted : Sorted report.graph := hgraph ▸ sorted_build ops
  have hplain : Plainly report.graph := hgraph ▸ plainly_build ops
  have hname : ∀ {k n}, report.graph.nodes.lookup (.device k) = some n →
      nodeLabel report.graph (.device k) = n.displayName := by
    intro k n hn
    rw [nodeLabel, hn]
  constructor
  · intro h
    -- the ends are told apart by what they are called
    have hends : ∀ {a b}, EndNode report.graph a → EndNode report.graph b →
        nodeLabel report.graph a = nodeLabel report.graph b → a = b := by
      rintro a b ⟨ha, e, he, s, rfl⟩ ⟨hb, f, hf, t, rfl⟩ hlabel
      by_contra hne
      have htexts := h.texts e he f hf s t ha hb hne
      rw [side_relationshipExport, side_relationshipExport] at htexts
      exact htexts hlabel
    have hlabels : ∀ {a b : NodeId}, EndNode report.graph a → EndNode report.graph b → a.family ≠ .device →
        b.family ≠ .device → a.label = b.label → a = b := by
      intro a b ha hb hfa hfb hlabel
      refine hends ha hb ?_
      rw [nodeLabel_of_not_device hsorted hplain hfa, nodeLabel_of_not_device hsorted hplain hfb, hlabel]
    refine ⟨?_, ?_, ?_, ?_, ?_, ?_, ?_⟩
    · intro name r r' ha hb
      exact (NodeId.interface.inj (hlabels ha hb nofun nofun rfl)).2
    · intro net r r' ha hb
      exact (NodeId.network.inj (hlabels ha hb nofun nofun rfl)).2
    · intro tag r r' ha hb
      exact (NodeId.vlan.inj (hlabels ha hb nofun nofun rfl)).2
    · intro a port r r' ha hb
      exact (NodeId.service.inj (hlabels ha hb nofun nofun rfl)).2.2
    · rintro k n k' n' ⟨ha, e, he, s, hs⟩ hn hn' hnames
      have hone := h.devices e he s k hs ha
      rw [side_relationshipExport, hs, hname hn] at hone
      exact (countP_devices_eq_one_iff hsorted hn).mp hone k' n' hn' hnames
    · intro k n id ha hn hb hfb hnames
      have heq := hends ha hb (by rw [hname hn, nodeLabel_of_not_device hsorted hplain hfb, hnames])
      exact hfb (heq ▸ rfl)
    · intro name r id ha hb hfb hfi hnames
      have heq := hlabels ha hb nofun hfb hnames
      exact hfi (heq ▸ rfl)
  · intro h
    refine ⟨List.perm_insertionSort _ _, ?_, ?_, ?_⟩
    · intro e he f hf s t ha hb hne
      rw [side_relationshipExport, side_relationshipExport]
      intro hlabel
      exact hne (h.eq_of_nodeLabel hsorted hplain ⟨ha, e, he, s, rfl⟩ ⟨hb, f, hf, t, rfl⟩ hlabel)
    · intro e he s k hs hmem
      obtain ⟨n, hn⟩ := Map.mem_iff_lookup.mp hmem
      rw [side_relationshipExport, hs, hname hn, countP_devices_eq_one_iff hsorted hn]
      exact fun k' n' hn' hnames => h.devices k n k' n' ⟨hmem, e, he, s, hs⟩ hn hn' hnames
    · intro e he s net realm hs hmem
      have hother : (NodeId.network net realm).family ≠ .device := nofun
      rw [side_relationshipExport, hs, nodeLabel_of_not_device hsorted hplain hother]
      exact countP_networks_eq_one hsorted hmem

/-- A report of nothing but a graph. -/
def reportOf (g : TopologyGraph) : RunReport where
  graph := g
  scopeRuns := []
  pivotRuns := []
  coverage := []
  visibility :=
    { interface := "eth0", kind := .wired, blindTo := [], unavailable := [], bindingMode := .unbound,
      observedFrames := none, acceptedFacts := none }
  oversizedScopes := []
  networkReachability := ∅
  converged := true

/-- An interface on a network, seen here or by a peer. -/
def attachment (origin : Option PeerOrigin) : GraphOp :=
  .absorb { fact := .interfaceNetwork "eth0" (.v4 (.new 10 0 0 0) 24), source := .interfaceAddress, confidence := .observed,
            vantage := "eth0", observedAt := 0, origin := origin }

/-- An interface and its network are told apart. -/
theorem export_apart_iff_one_site :
    KeepsApart (reportOf (build [attachment none])) (buildExport (reportOf (build [attachment none])) []) := by
  have hends : ∀ id, EndNode (build [attachment none]) id →
      id = .interface "eth0" .localRealm ∨ id = .network (.v4 (.new 10 0 0 0) 24) .localRealm := by
    rintro id ⟨-, e, he, s, rfl⟩
    have hedges : ∀ e ∈ (build [attachment none]).edgeList, e.source = .interface "eth0" .localRealm ∧
        e.target = .network (.v4 (.new 10 0 0 0) 24) .localRealm := by decide
    cases s with
    | source => exact .inl (hedges e he).1
    | target => exact .inr (hedges e he).2
  have hone : ∀ {a b}, EndNode (build [attachment none]) a → EndNode (build [attachment none]) b →
      a.family = b.family → a = b := by
    intro a b ha hb hfamily
    rcases hends a ha with rfl | rfl
    · rcases hends b hb with rfl | rfl
      · rfl
      · cases hfamily
    · rcases hends b hb with rfl | rfl
      · cases hfamily
      · rfl
  refine (export_apart_iff [attachment none] _ rfl []).mpr ⟨?_, ?_, ?_, ?_, ?_, ?_, ?_⟩
  · exact fun name r r' h h' => (NodeId.interface.inj (hone h h' rfl)).2
  · exact fun net r r' h h' => (NodeId.network.inj (hone h h' rfl)).2
  · exact fun tag r r' h h' => (NodeId.vlan.inj (hone h h' rfl)).2
  · exact fun a port r r' h h' => (NodeId.service.inj (hone h h' rfl)).2.2
  · intro k n k' n' h
    rcases hends _ h with h | h <;> cases h
  · intro k n id h
    rcases hends _ h with h | h <;> cases h
  · intro name r id h h' hdevice hinterface
    rcases hends _ h with h | h <;> cases h
    rcases hends _ h' with rfl | rfl
    · exact absurd rfl hinterface
    · decide

/-- The same private prefix on this machine's network and on a peer's, and two devices that call themselves alike. -/
def twoSites : List GraphOp :=
  let named (mac : Text) : List GraphOp :=
    [.absorb { fact := .deviceHostname (.mac mac) "nas", source := .mdns, confidence := .advertised, vantage := "eth0",
               observedAt := 0 },
     .absorb { fact := .attachedTo (.mac mac) (.v4 (.new 10 0 0 0) 24), source := .snmp, confidence := .advertised,
               vantage := "eth0", observedAt := 0 }]
  [attachment none, attachment (some ⟨"0a", "eth0", 1, 0⟩)] ++ named "00:11:22:33:44:55" ++ named "00:11:22:33:44:66"

theorem nodeLabel_of_hostname {g : TopologyGraph} {id : NodeId} {name : Text}
    (h : (g.nodes.lookup id).map (·.hostnames) = some {name}) : nodeLabel g id = name.safeText := by
  obtain ⟨n, hn, hnames⟩ := Option.map_eq_some_iff.mp h
  simp [nodeLabel, hn, Node.displayName, hnames]

/-- Both are fused: the two networks have one text in the relationships, and so have the two devices. -/
theorem fused_in_relationships :
    ¬KeepsApart (reportOf (build twoSites)) (buildExport (reportOf (build twoSites)) []) ∧
      ∃ e ∈ (build twoSites).edgeList, ∃ f ∈ (build twoSites).edgeList,
        e.source = .device (.mac "00:11:22:33:44:55") ∧ f.source = .device (.mac "00:11:22:33:44:66") ∧
          (relationshipExport (build twoSites) e).source = (relationshipExport (build twoSites) f).source := by
  have hedge : ∀ id, (∃ e ∈ (build twoSites).edgeList, e.target = id) → id ∈ (build twoSites).nodes →
      ∃ e ∈ (build twoSites).edgeList, e.side .target = id ∧ e.side .target ∈ (build twoSites).nodes := by
    rintro id ⟨e, he, rfl⟩ hmem
    exact ⟨e, he, rfl, hmem⟩
  constructor
  · intro h
    obtain ⟨e, he, hse, hme⟩ := hedge (.network (.v4 (.new 10 0 0 0) 24) .localRealm) (by decide)
      (by decide)
    obtain ⟨f, hf, hsf, hmf⟩ := hedge (.network (.v4 (.new 10 0 0 0) 24) (.peerRealm "0a" "eth0")) (by decide)
      (by decide)
    refine h.texts e he f hf .target .target hme hmf (by rw [hse, hsf]; decide) ?_
    rw [side_relationshipExport, side_relationshipExport, hse, hsf]
    have hlabel : ∀ realm, nodeLabel (build twoSites) (.network (.v4 (.new 10 0 0 0) 24) realm) =
        (IpNet.v4 (.new 10 0 0 0) 24).toText :=
      fun realm => nodeLabel_of_not_device (sorted_build twoSites) (plainly_build twoSites) nofun
    exact (hlabel _).trans (hlabel _).symm
  · have hsource : ∀ id, (∃ e ∈ (build twoSites).edgeList, e.source = id) →
        ((build twoSites).nodes.lookup id).map (·.hostnames) = some {("nas" : Text)} →
        ∃ e ∈ (build twoSites).edgeList, e.source = id ∧
          (relationshipExport (build twoSites) e).source = Text.safeText "nas" := by
      rintro id ⟨e, he, rfl⟩ hnames
      exact ⟨e, he, rfl, nodeLabel_of_hostname hnames⟩
    obtain ⟨e, he, hse, hte⟩ := hsource (.device (.mac "00:11:22:33:44:55")) (by decide) (by decide)
    obtain ⟨f, hf, hsf, htf⟩ := hsource (.device (.mac "00:11:22:33:44:66")) (by decide) (by decide)
    exact ⟨e, he, f, hf, hse, hsf, hte.trans htf.symm⟩

end Idnx
