import Idnx.Topology.Absorb
import Idnx.Topology.Role
import Idnx.Lib.Run

/-!
# Merging identities and assigning roles

`mergeAddressIdentities` folds every address-keyed device into the MAC-keyed device that owns its address: the nodes
are folded (`foldNode`), the role weights moved, and every edge that named the absorbed identity is re-pointed
(`repointEdge`). `finalizeRoles` merges once more, scores roles, and marks the boundaries.

A run is a sequence of `GraphOp`s on the empty graph (`build`).
-/

namespace Idnx

/-- The slot in which the merge pass looks up the owner of an address-based identity. -/
def identitySlot (key : DeviceKey) : Option Slot :=
  match key.address? with
  | some address => some ⟨address, TopologyGraph.keyZone key, addressRealm address (realmOfKey key)⟩
  | none => none

/-- Folds the absorbed node `source` into `target`. -/
def foldNode (target source : Node) : Node :=
  let target := { target with addresses := target.addresses ∪ source.addresses }
  let target := source.addressProvenance.foldl (fun t e => t.noteAddress e.1 e.2) target
  { target with
    hostnames := target.hostnames ∪ source.hostnames
    descriptions := target.descriptions ∪ source.descriptions
    roleSignals := target.roleSignals ∪ source.roleSignals
    capabilities := target.capabilities ∪ source.capabilities
    provenance := target.provenance ++ source.provenance
    vendor := if target.vendor.isNone then source.vendor else target.vendor
    opaqueReason := if target.opaqueReason.isNone then source.opaqueReason else target.opaqueReason
    confidence := if source.confidence > target.confidence then source.confidence else target.confidence }

/-- The two ends of an edge with `old` replaced by `new`. -/
def Edge.repoint (e : Edge) (old new : NodeId) : Edge :=
  { e with
    source := if e.source = old then new else e.source
    target := if e.target = old then new else e.target }

/-- Re-points one edge of the map from `old` to `new`: a self-edge goes, an edge that is there already takes the
provenance over. -/
def repointEdge (old new : NodeId) (edges : Map EdgeKey Edge) (key : EdgeKey) : Map EdgeKey Edge :=
  match edges.lookup key with
  | none => edges
  | some edge =>
    let edges : Map EdgeKey Edge := AList.erase key edges
    let edge := edge.repoint old new
    if edge.source = edge.target then edges
    else
      Map.upd edges ⟨edge.source, edge.target, edge.relationship⟩ fun
        | some existing => { existing with provenance := existing.provenance ++ edge.provenance }
        | none => edge

/-- The edges that name `old`, in the order of the map. -/
def affectedEdges (edges : Map EdgeKey Edge) (old : NodeId) : List EdgeKey :=
  edges.sortedKeys.filter fun k => k.source = old ∨ k.target = old

/-- Re-points every edge that referenced the absorbed identity. -/
def repointEdges (old new : NodeId) (edges : Map EdgeKey Edge) : Map EdgeKey Edge :=
  (affectedEdges edges old).foldl (repointEdge old new) edges

/-- Gives the signals weighed for `old` to `new`. -/
def moveWeights (old new : NodeId) (weights : Map NodeId (Finset RoleSignal)) : Map NodeId (Finset RoleSignal) :=
  match weights.lookup old with
  | some signals => Map.upd (AList.erase old weights) new fun existing => existing.getD ∅ ∪ signals
  | none => weights

namespace TopologyGraph

variable (g : TopologyGraph)

/-- The MAC-keyed device an identity is to be merged into. -/
def mergeTarget (key : DeviceKey) : Option DeviceKey :=
  match identitySlot key with
  | none => none
  | some slot =>
    match g.addressOwner.lookup slot with
    | some owner => if owner.isMac then some owner else none
    | none => none

/-- The merges to make, in the order of the node map. -/
def plannedMerges : List (DeviceKey × DeviceKey) :=
  g.nodes.sortedKeys.filterMap fun
    | .device key => (g.mergeTarget key).map fun owner => (key, owner)
    | _ => none

/-- One merge: the graph and the aliases found so far. -/
def mergeOne (acc : TopologyGraph × List (DeviceKey × DeviceKey)) (merge : DeviceKey × DeviceKey) :
    TopologyGraph × List (DeviceKey × DeviceKey) :=
  let (g, aliases) := acc
  let old := NodeId.device merge.1
  let new := NodeId.device merge.2
  if old = new ∨ new ∉ g.nodes then acc
  else
    match g.nodes.lookup old with
    | none => acc
    | some source =>
      let nodes : Map NodeId Node := AList.erase old g.nodes
      ({ g with
          nodes := nodes.modify new fun target => foldNode target source
          roleWeights := moveWeights old new g.roleWeights
          edges := repointEdges old new g.edges },
        aliases ++ [merge])

/-- Folds address-keyed device nodes into the MAC-keyed node that owns the address. Returns the aliases it created,
absorbed identity first. -/
def mergeAddressIdentities : TopologyGraph × List (DeviceKey × DeviceKey) := g.plannedMerges.foldl mergeOne (g, [])

/-- The kind of a node after its role has been scored. -/
def roleKind (role : DeviceRole) (kind : NodeKind) : NodeKind :=
  match role with
  | .router => .router
  | .switch => .switch
  | .layer3Switch => .layer3Switch
  | .host => kind

/-- Gives each node of the list that is there the kind computed from its kind. -/
def rekind (changes : List (NodeId × (NodeKind → NodeKind))) : TopologyGraph :=
  changes.foldl (fun g change => g.modifyNode change.1 fun n => { n with kind := change.2 n.kind }) g

/-- Applies role scoring to every device node, and marks every device that terminates visibility as a boundary. -/
def finalizeRoles : TopologyGraph :=
  let g := g.mergeAddressIdentities.1
  let g := g.rekind (g.roleWeights.entries.map fun e => (e.1, roleKind (scoreRole e.2)))
  g.rekind ((g.nodes.entries.filter fun e => e.2.opaqueReason.isSome).map fun e => (e.2.id, fun _ => .opaqueBoundary))

/-! ## What the passes leave alone

A merge only touches the nodes, the edges and the role weights, the assignment of roles only the nodes. -/

section Frames

variable {g} {β : Type} (π : TopologyGraph → β)

theorem mergeOne_frame (h : ∀ g n r e, π { g with nodes := n, roleWeights := r, edges := e } = π g)
    (acc : TopologyGraph × List (DeviceKey × DeviceKey)) (m : DeviceKey × DeviceKey) :
    π (mergeOne acc m).1 = π acc.1 := by
  obtain ⟨g, aliases⟩ := acc
  simp only [mergeOne]
  split_ifs
  · rfl
  · split
    · rfl
    · exact h g _ _ _

theorem mergeAddressIdentities_frame (h : ∀ g n r e, π { g with nodes := n, roleWeights := r, edges := e } = π g) :
    π g.mergeAddressIdentities.1 = π g := by
  unfold mergeAddressIdentities
  generalize g.plannedMerges = ms
  suffices ∀ acc : TopologyGraph × List (DeviceKey × DeviceKey),
    π (ms.foldl mergeOne acc).1 = π acc.1 from this (g, [])
  induction ms with
  | nil => intro acc; rfl
  | cons m ms ih => intro acc; rw [List.foldl_cons, ih, mergeOne_frame π h]

theorem rekind_frame (h : ∀ g n, π { g with nodes := n } = π g) (changes : List (NodeId × (NodeKind → NodeKind)))
    (g : TopologyGraph) : π (g.rekind changes) = π g := by
  induction changes generalizing g with
  | nil => rfl
  | cons x xs ih => exact (ih _).trans (h g _)

/-- All that happens to a node is that its kind changes. -/
theorem lookup_rekind (changes : List (NodeId × (NodeKind → NodeKind))) (g : TopologyGraph) (id : NodeId) :
    ∃ f : NodeKind → NodeKind,
      (g.rekind changes).nodes.lookup id = (g.nodes.lookup id).map fun n => { n with kind := f n.kind } := by
  induction changes generalizing g with
  | nil => exact ⟨fun k => k, by simp [rekind]⟩
  | cons c cs ih =>
    obtain ⟨f, hf⟩ := ih (g.modifyNode c.1 fun n => { n with kind := c.2 n.kind })
    have hcons : g.rekind (c :: cs) = (g.modifyNode c.1 fun n => { n with kind := c.2 n.kind }).rekind cs := rfl
    rw [hcons, hf, lookup_modifyNode]
    split_ifs with hid
    · subst hid
      exact ⟨fun k => f (c.2 k), by rw [Option.map_map]; rfl⟩
    · exact ⟨f, rfl⟩

/-- Scoring roles changes nothing but nodes. -/
theorem finalizeRoles_frame (h : ∀ g n, π { g with nodes := n } = π g) :
    π g.finalizeRoles = π g.mergeAddressIdentities.1 := by
  unfold finalizeRoles
  simp only []
  rw [rekind_frame π h, rekind_frame π h]

end Frames

end TopologyGraph

/-! ## Runs -/

/-- What is done to a graph over its life. -/
inductive GraphOp where
  | absorb (ev : TopologyEvidence)
  | merge
  | finalize

namespace GraphOp

/-- One operation. -/
def apply (g : TopologyGraph) : GraphOp → TopologyGraph
  | .absorb ev => g.absorb ev
  | .merge => g.mergeAddressIdentities.1
  | .finalize => g.finalizeRoles

end GraphOp

/-- The graph after a run from the empty graph. -/
def build (ops : List GraphOp) : TopologyGraph := run GraphOp.apply .new ops

/-- The graph after absorbing a list of records into the empty graph. -/
def absorbAll (evs : List TopologyEvidence) : TopologyGraph := run TopologyGraph.absorb .new evs

theorem build_map_absorb (evs : List TopologyEvidence) : build (evs.map .absorb) = absorbAll evs := by
  simp only [build, absorbAll, run, List.foldl_map]
  rfl

theorem build_concat (ops : List GraphOp) (op : GraphOp) : build (ops ++ [op]) = op.apply (build ops) :=
  run_concat _ _ _ _

end Idnx
