import Idnx.Topology.Networks

/-!
# Kinds, categories and counts

What a node is follows from its identity: an interface, a network, a tag and a service keep the kind they were added
with, and a device is only ever given another kind of device. So every device has one category and no other node has
any, and the counts shown to the operator add up to the nodes of the graph.

* `sorted_build`: no operation takes a node out of the family of its identity;
* `counts_agree`: the categories and the counts of every reachable graph.
-/

namespace Idnx

/-! ## Families -/

/-- The kinds of identity a node can have. -/
inductive NodeFamily where
  | interface
  | network
  | vlan
  | device
  | service
  deriving DecidableEq, Repr

def NodeId.family : NodeId → NodeFamily
  | .interface _ _ => .interface
  | .network _ _ => .network
  | .vlan _ _ => .vlan
  | .device _ => .device
  | .service _ _ _ => .service

def NodeKind.family : NodeKind → NodeFamily
  | .interface => .interface
  | .network => .network
  | .vlan => .vlan
  | .service => .service
  | .router | .switch | .layer3Switch | .host | .opaqueBoundary => .device

/-! ## Categories and counts -/

/-- How a device is presented to the operator. -/
inductive DeviceCategory where
  | opaqueBoundary
  | router
  | switch
  | layer3Switch
  | forwardingInterface
  | aiSystem
  | host
  deriving DecidableEq, Repr

/-- Whether this node was observed forwarding traffic, read from the text of the signal. -/
def forwardsTraffic (n : Node) : Bool := RoleSignal.observedForwarding.describe ∈ n.roleSignals

/-- The labels that qualify a device as an AI system. -/
def aiCapabilityLabels : List Text := ["AI runtime", "AI agent", "MCP server"]

def hasConfirmedAi (n : Node) : Bool :=
  decide (∃ capability ∈ n.capabilities, aiCapabilityLabels.any fun label => Text.startsWith capability label)

/-- Places a device in its category. -/
def categorize (n : Node) : Option DeviceCategory :=
  match n.kind with
  | .opaqueBoundary => some .opaqueBoundary
  | .router => some .router
  | .switch => some .switch
  | .layer3Switch => some .layer3Switch
  | .host =>
    some (if forwardsTraffic n then .forwardingInterface else if hasConfirmedAi n then .aiSystem else .host)
  | .interface | .network | .vlan | .service => none

/-- How much there is of everything, and of nodes in all. -/
structure TopologyCounts where
  routers : Nat := 0
  switches : Nat := 0
  layer3Switches : Nat := 0
  opaqueBoundaries : Nat := 0
  forwardingInterfaces : Nat := 0
  aiSystems : Nat := 0
  otherHosts : Nat := 0
  networks : Nat := 0
  vlans : Nat := 0
  services : Nat := 0
  interfaces : Nat := 0
  graphNodes : Nat := 0
  deriving DecidableEq, Repr

namespace TopologyCounts

def devices (c : TopologyCounts) : Nat :=
  c.routers + c.switches + c.layer3Switches + c.opaqueBoundaries + c.forwardingInterfaces + c.aiSystems + c.otherHosts

/-- The counts with one more node. -/
def count (c : TopologyCounts) (n : Node) : TopologyCounts :=
  match n.kind with
  | .network => { c with networks := c.networks + 1 }
  | .vlan => { c with vlans := c.vlans + 1 }
  | .service => { c with services := c.services + 1 }
  | .interface => { c with interfaces := c.interfaces + 1 }
  | _ =>
    match categorize n with
    | some .router => { c with routers := c.routers + 1 }
    | some .switch => { c with switches := c.switches + 1 }
    | some .layer3Switch => { c with layer3Switches := c.layer3Switches + 1 }
    | some .opaqueBoundary => { c with opaqueBoundaries := c.opaqueBoundaries + 1 }
    | some .forwardingInterface => { c with forwardingInterfaces := c.forwardingInterfaces + 1 }
    | some .aiSystem => { c with aiSystems := c.aiSystems + 1 }
    | some .host => { c with otherHosts := c.otherHosts + 1 }
    | none => c

/-- The total for a family. -/
def ofFamily (c : TopologyCounts) : NodeFamily → Nat
  | .interface => c.interfaces
  | .network => c.networks
  | .vlan => c.vlans
  | .device => c.devices
  | .service => c.services

end TopologyCounts

namespace TopologyGraph

def nodeCount (g : TopologyGraph) : Nat := g.nodes.keys.length

/-- Counts for presentation. -/
def counts (g : TopologyGraph) : TopologyCounts := g.nodeList.foldl .count { graphNodes := g.nodes.keys.length }

end TopologyGraph

/-! ## Counting, node by node -/

theorem categorize_isSome (n : Node) : (categorize n).isSome = true ↔ n.kind.family = .device := by
  unfold categorize
  cases n.kind <;> simp [NodeKind.family]

/-- A node is counted once, in the family of its kind. -/
theorem TopologyCounts.ofFamily_count (c : TopologyCounts) (n : Node) (family : NodeFamily) :
    (c.count n).ofFamily family = c.ofFamily family + if n.kind.family = family then 1 else 0 := by
  unfold TopologyCounts.count categorize
  cases hk : n.kind with
  | host =>
    simp only []
    split_ifs <;> cases family <;> simp_all [NodeKind.family, TopologyCounts.ofFamily,
      TopologyCounts.devices] <;> omega
  | _ => cases family <;> simp_all [NodeKind.family, TopologyCounts.ofFamily, TopologyCounts.devices] <;> omega

theorem TopologyCounts.ofFamily_foldl (ns : List Node) (c : TopologyCounts) (family : NodeFamily) :
    (ns.foldl .count c).ofFamily family = c.ofFamily family + ns.countP (·.kind.family = family) := by
  induction ns generalizing c with
  | nil => rfl
  | cons n ns ih =>
    rw [List.foldl_cons, ih, TopologyCounts.ofFamily_count, List.countP_cons]
    simp only [decide_eq_true_eq]
    omega

/-- Everything is in one family. -/
theorem length_eq_families (ids : List NodeId) :
    ids.countP (·.family = .device) + ids.countP (·.family = .network) + ids.countP (·.family = .vlan) +
      ids.countP (·.family = .service) + ids.countP (·.family = .interface) = ids.length := by
  induction ids with
  | nil => rfl
  | cons id ids ih =>
    simp only [List.countP_cons, List.length_cons, decide_eq_true_eq]
    cases id.family <;> simp only [reduceCtorEq, if_true, if_false] <;> omega

/-! ## Every node keeps its family -/

/-- Every node is filed under its own identity and has a kind that goes with it; only devices are weighed or end
visibility. -/
structure Sorted (g : TopologyGraph) : Prop where
  keyed : ∀ id n, g.nodes.lookup id = some n → n.id = id
  kinds : ∀ id n, g.nodes.lookup id = some n → n.kind.family = id.family
  reasons : ∀ id n, g.nodes.lookup id = some n → n.opaqueReason.isSome = true → id.family = .device
  weights : ∀ id ∈ g.roleWeights, id.family = .device

section Commands

variable {owner : Slot → Option DeviceKey} {ev : TopologyEvidence} {fact : Fact}

/-- A fact adds nodes of the kind of their identity. -/
theorem family_of_upsert {id : NodeId} {kind : NodeKind} (h : .upsert id kind ∈ planFact owner ev fact) :
    kind.family = id.family := by
  cases mem_planFact_iff.mp h with
  | file => rfl
  | bridge => rfl
  | holder => rfl
  | place hp =>
    cases fact <;> simp only [Fact.places, List.mem_ite_nil_right, List.mem_cons, List.not_mem_nil, or_false,
      Prod.mk.injEq] at hp
    all_goals grind [NodeKind.family, NodeId.family]

/-- Only devices are called boundaries. -/
theorem family_of_boundary {id : NodeId} {why : Text} (h : .note id (.boundary why) ∈ planFact owner ev fact) :
    id.family = .device := by
  cases mem_planFact_iff.mp h with
  | remark => rfl

theorem family_of_weigh {id : NodeId} {signal : RoleSignal} (h : .weigh id signal ∈ planFact owner ev fact) :
    id.family = .device := by
  cases mem_planFact_iff.mp h with
  | weigh => rfl

end Commands

/-- A node is renamed within its family. -/
theorem family_renameNode {g : TopologyGraph} (id : NodeId) : (renameNode g.merges id).family = id.family := by
  by_cases hid : id ∈ g.absorbedIds
  · obtain ⟨key, owner, rfl, ha⟩ := TopologyGraph.mem_absorbedIds.mp hid
    rw [TopologyGraph.renameNode_absorbed ha]
    rfl
  · rw [TopologyGraph.renameNode_of_not_absorbed hid]

namespace Sorted

variable {g : TopologyGraph}

theorem exec {ev : TopologyEvidence} {owner : Slot → Option DeviceKey} {c : Command} (hc : c ∈ plan owner ev)
    (h : Sorted g) : Sorted (exec ev g c) where
  keyed := by
    intro id n hn
    rcases origin_exec (π := Node.id) (fun _ _ _ => rfl) Mark.apply_id
      (fun _ note _ n => Note.write_id _ n note) hn with
      ⟨n₀, hn₀, hid⟩ | ⟨-, kind, -, hid⟩
    · rw [hid]
      exact h.keyed id n₀ hn₀
    · exact hid
  kinds := by
    intro id n hn
    rcases origin_exec (π := Node.kind) (fun _ _ _ => rfl) (fun _ _ _ m => by cases m <;> rfl)
      (fun _ note _ n => Note.write_kind _ n note) hn with ⟨n₀, hn₀, hk⟩ | ⟨-, kind, rfl, hk⟩
    · rw [hk]
      exact h.kinds id n₀ hn₀
    · rw [hk]
      exact family_of_upsert hc
  reasons := by
    intro id n hn hr
    by_cases hb : ∃ j why, c = .note j (.boundary why)
    · obtain ⟨j, why, rfl⟩ := hb
      by_cases hj : id = j
      · rw [hj]
        exact family_of_boundary hc
      · rw [Idnx.exec, TopologyGraph.lookup_modifyNode, if_neg hj] at hn
        exact h.reasons id n hn hr
    · have hnote : ∀ j note, c = .note j note → ∀ n, (note.write ev.isRemote n).opaqueReason = n.opaqueReason := by
        rintro j note rfl n
        exact Note.write_opaqueReason _ n fun why he => hb ⟨j, why, by rw [he]⟩
      rcases origin_exec (π := Node.opaqueReason) (fun _ _ _ => rfl) (fun _ _ _ m => by cases m <;> rfl) hnote hn with
        ⟨n₀, hn₀, hreason⟩ | ⟨-, kind, -, hreason⟩
      · exact h.reasons id n₀ hn₀ (hreason ▸ hr)
      · rw [hreason] at hr
        cases hr
  weights := by
    intro id hid
    cases c with
    | weigh j signal =>
      rcases Map.mem_upd.mp hid with rfl | hid
      · exact family_of_weigh hc
      · exact h.weights id hid
    | claim slot key =>
      rw [Idnx.exec, settleClaim_roleWeights] at hid
      exact h.weights id hid
    | _ => exact h.weights id hid

theorem absorb (h : Sorted g) (ev : TopologyEvidence) : Sorted (g.absorb ev) := by
  rw [absorb_eq_plan]
  exact foldl_exec_inv (fun c hc g hg => hg.exec hc) h

theorem merge (h : Sorted g) : Sorted g.mergeAddressIdentities.1 := by
  -- the node a merge leaves at `id` has every trait of the node that was there and that folding does not touch
  have hstays : ∀ {Φ : Node → Prop}, (∀ t s, Φ (foldNode t s) ↔ Φ t) → ∀ {id n},
      g.mergeAddressIdentities.1.nodes.lookup id = some n → (∀ n₀, g.nodes.lookup id = some n₀ → Φ n₀) → Φ n := by
    intro Φ hjoin id n hn hΦ
    obtain ⟨hmem, hna⟩ := TopologyGraph.mem_nodes_merge.mp (Map.mem_of_lookup hn)
    obtain ⟨n₀, hn₀⟩ := Map.mem_iff_lookup.mp hmem
    obtain ⟨n', hn', h'⟩ := (TopologyGraph.exists_node_merge_of_stays hjoin hna hmem).mpr ⟨n₀, hn₀, hΦ n₀ hn₀⟩
    rw [hn] at hn'
    cases hn'
    exact h'
  refine ⟨?_, ?_, ?_, ?_⟩
  · intro id n hn
    exact hstays (Φ := fun n => n.id = id) (fun t s => by rw [foldNode_eq]) hn (h.keyed id)
  · intro id n hn
    exact hstays (Φ := fun n => n.kind.family = id.family) (fun t s => by rw [foldNode_eq]) hn (h.kinds id)
  · intro id n hn hr
    have hjoin : ∀ t s : Node, (foldNode t s).opaqueReason.isSome = true ↔
        t.opaqueReason.isSome = true ∨ s.opaqueReason.isSome = true := by
      intro t s
      rw [foldNode_eq]
      cases t.opaqueReason <;> simp
    obtain ⟨i, n₀, rfl, hn₀, hr₀⟩ := (TopologyGraph.exists_node_merge (Φ := fun n => n.opaqueReason.isSome = true)
      hjoin).mp ⟨n, hn, hr⟩
    rw [family_renameNode]
    exact h.reasons i n₀ hn₀ hr₀
  · intro id hid
    obtain ⟨signals, hs⟩ := Map.mem_iff_lookup.mp hid
    rw [TopologyGraph.mergeAddressIdentities_eq] at hs
    obtain ⟨i, v, rfl, hv, -⟩ := (TopologyGraph.exists_relocateAll_iff_rename (Φ := fun _ => True) (by simp)).mp
      ⟨signals, hs, trivial⟩
    rw [family_renameNode]
    exact h.weights i (Map.mem_of_lookup hv)

/-- Devices can be given other kinds of device. -/
theorem rekind {changes : List (NodeId × (NodeKind → NodeKind))}
    (hc : ∀ c ∈ changes, c.1.family = .device ∧ ∀ k : NodeKind, k.family = .device → (c.2 k).family = .device)
    (h : Sorted g) : Sorted (g.rekind changes) := by
  induction changes generalizing g with
  | nil => exact h
  | cons c cs ih =>
    refine ih (fun d hd => hc d (List.mem_cons_of_mem _ hd)) ?_
    obtain ⟨hdevice, hkind⟩ := hc c List.mem_cons_self
    -- the node at `id` is the one that was there, or that one with another kind of device
    have hback : ∀ {id n}, (g.modifyNode c.1 fun n => { n with kind := c.2 n.kind }).nodes.lookup id = some n →
        ∃ n₀, g.nodes.lookup id = some n₀ ∧ (n = n₀ ∨ (id = c.1 ∧ n = { n₀ with kind := c.2 n₀.kind })) := by
      intro id n hn
      rw [TopologyGraph.lookup_modifyNode] at hn
      split_ifs at hn with hid
      · subst hid
        obtain ⟨n₀, hn₀, rfl⟩ := Option.map_eq_some_iff.mp hn
        exact ⟨n₀, hn₀, .inr ⟨rfl, rfl⟩⟩
      · exact ⟨n, hn, .inl rfl⟩
    refine ⟨?_, ?_, ?_, h.weights⟩
    · intro id n hn
      obtain ⟨n₀, hn₀, rfl | ⟨-, rfl⟩⟩ := hback hn
      · exact h.keyed id n hn₀
      · exact h.keyed id n₀ hn₀
    · intro id n hn
      obtain ⟨n₀, hn₀, rfl | ⟨rfl, rfl⟩⟩ := hback hn
      · exact h.kinds id n hn₀
      · rw [hdevice]
        exact hkind _ ((h.kinds _ n₀ hn₀).trans hdevice)
    · intro id n hn hr
      obtain ⟨n₀, hn₀, rfl | ⟨-, rfl⟩⟩ := hback hn
      · exact h.reasons id n hn₀ hr
      · exact h.reasons id n₀ hn₀ hr

theorem finalize (h : Sorted g) : Sorted g.finalizeRoles := by
  have hroles : Sorted (g.mergeAddressIdentities.1.rekind
      (g.mergeAddressIdentities.1.roleWeights.entries.map fun e =>
      (e.1, TopologyGraph.roleKind (scoreRole e.2)))) := by
    refine h.merge.rekind ?_
    intro c hc
    obtain ⟨e, he, rfl⟩ := List.mem_map.mp hc
    refine ⟨h.merge.weights e.1 (AList.mem_keys.mpr (List.mem_map_of_mem he)), fun k hk => ?_⟩
    unfold TopologyGraph.roleKind
    cases scoreRole e.2 <;> first | rfl | exact hk
  refine hroles.rekind ?_
  intro c hc
  obtain ⟨e, he, rfl⟩ := List.mem_map.mp hc
  obtain ⟨he, hr⟩ := List.mem_filter.mp he
  have hlookup := Option.mem_def.mp (AList.mem_lookup_iff.mpr he)
  refine ⟨?_, fun _ _ => rfl⟩
  show e.2.id.family = .device
  rw [hroles.keyed e.1 e.2 hlookup]
  exact hroles.reasons e.1 e.2 hlookup hr

end Sorted

/-- **No operation takes a node out of its family.** -/
theorem sorted_build (ops : List GraphOp) : Sorted (build ops) := by
  refine run_induction (P := fun _ g => Sorted g) GraphOp.apply ?_ (fun h op hP => ?_) ops
  · refine ⟨?_, ?_, ?_, ?_⟩
    · intro id n hn; cases hn
    · intro id n hn; cases hn
    · intro id n hn; cases hn
    · intro id hid; cases hid
  · cases op with
    | absorb ev => exact hP.absorb ev
    | merge => exact hP.merge
    | finalize => exact hP.finalize

/-! ## The counts of every graph -/

/-- The nodes of a family, by their kinds or by their identities. -/
theorem countP_nodeList {g : TopologyGraph} (h : Sorted g) (family : NodeFamily) :
    g.nodeList.countP (·.kind.family = family) = g.nodes.keys.countP (·.family = family) := by
  have hperm : g.nodes.keys.countP (·.family = family) = g.nodes.sortedKeys.countP (·.family = family) :=
    ((List.perm_insertionSort _ g.nodes.keys).countP_eq _).symm
  rw [hperm, TopologyGraph.nodeList]
  have hmem : ∀ id ∈ g.nodes.sortedKeys, id ∈ g.nodes := fun id hid => Map.mem_sortedKeys.mp hid
  generalize g.nodes.sortedKeys = ids at hmem
  induction ids with
  | nil => rfl
  | cons id ids ih =>
    obtain ⟨n, hn⟩ := Map.mem_iff_lookup.mp (hmem id List.mem_cons_self)
    rw [List.filterMap_cons_some (f := fun id => g.nodes.lookup id) hn, List.countP_cons, List.countP_cons,
      h.kinds id n hn, ih fun j hj => hmem j (List.mem_cons_of_mem _ hj)]

/-- Kinds, categories and counts go with the identities of the nodes. -/
structure CountsAgree (g : TopologyGraph) : Prop where
  kind : ∀ id n, g.nodes.lookup id = some n → n.kind.family = id.family
  device : ∀ key n, g.nodes.lookup (.device key) = some n → ∃! category, categorize n = some category
  other : ∀ id n, g.nodes.lookup id = some n → (∀ key, id ≠ .device key) → categorize n = none
  total : g.counts.devices + g.counts.networks + g.counts.vlans + g.counts.services + g.counts.interfaces =
    g.nodeCount
  devices : g.counts.devices = g.nodes.keys.countP (·.family = .device)

/-- **The summary is a partition of the graph, after every run.** -/
theorem counts_agree (ops : List GraphOp) : CountsAgree (build ops) := by
  have h := sorted_build ops
  have hcount : ∀ family, (build ops).counts.ofFamily family = (build ops).nodes.keys.countP (·.family = family) := by
    intro family
    rw [TopologyGraph.counts, TopologyCounts.ofFamily_foldl, countP_nodeList h]
    cases family <;> exact Nat.zero_add _
  refine ⟨h.kinds, ?_, ?_, ?_, hcount .device⟩
  · intro key n hn
    obtain ⟨category, hc⟩ := Option.isSome_iff_exists.mp ((categorize_isSome n).mpr (h.kinds _ n hn))
    refine ⟨category, hc, ?_⟩
    intro other ho
    rw [hc] at ho
    exact (Option.some.inj ho).symm
  · intro id n hn hid
    rw [← Option.not_isSome_iff_eq_none, categorize_isSome, h.kinds id n hn]
    cases id with
    | device key => exact absurd rfl (hid key)
    | _ => simp [NodeId.family]
  · have hlen := length_eq_families (build ops).nodes.keys
    have hd := hcount .device
    have hn := hcount .network
    have hv := hcount .vlan
    have hs := hcount .service
    have hi := hcount .interface
    simp only [TopologyCounts.ofFamily] at hd hn hv hs hi
    unfold TopologyGraph.nodeCount
    omega

end Idnx
