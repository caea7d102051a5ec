import Idnx.Lib.Relocate
import Idnx.Topology.Slots

/-!
# What a merge does

The merge pass relocates: the nodes and the role weights of the absorbed identities join those of the devices that own
their addresses, and every edge goes where the renaming of its two ends takes it (`mergeAddressIdentities_eq`). From
there every question about the result is a question about what went into it:

* `exists_node_merge`, `lookup_node_of_untouched`: the nodes;
* `exists_edge_merge`: the edges.
-/

namespace Idnx

namespace TopologyGraph

variable (g : TopologyGraph)

/-- The next merge pass absorbs `key` into `owner`: both are devices of the graph, and `owner` is the hardware that
holds the address `key` stands for. -/
def Absorbed (key owner : DeviceKey) : Prop :=
  .device key ∈ g.nodes ∧ g.mergeTarget key = some owner ∧ .device owner ∈ g.nodes

instance (key owner : DeviceKey) : Decidable (g.Absorbed key owner) := inferInstanceAs (Decidable (_ ∧ _))

/-- The merges the pass carries out. -/
def merges : List (DeviceKey × DeviceKey) := g.plannedMerges.filter fun m => .device m.2 ∈ g.nodes

/-- Where the pass takes a node. -/
def destination : NodeId → Option NodeId
  | .device key => (g.mergeTarget key).map .device
  | _ => none

/-- The identities that go. -/
def absorbedIds : List NodeId := g.merges.map fun m => .device m.1

variable {g} {key owner : DeviceKey}

/-- Only address-based identities are merged, and only into hardware. -/
theorem isMac_of_mergeTarget (h : g.mergeTarget key = some owner) : key.isMac = false ∧ owner.isMac = true := by
  unfold mergeTarget at h
  cases key with
  | mac m => cases h
  | address a =>
    refine ⟨rfl, ?_⟩
    dsimp only [identitySlot, DeviceKey.address?] at h
    split at h
    · split_ifs at h with hm
      cases h; exact hm
    · cases h
  | scopedAddress a z =>
    refine ⟨rfl, ?_⟩
    dsimp only [identitySlot, DeviceKey.address?] at h
    split at h
    · split_ifs at h with hm
      cases h; exact hm
    · cases h

theorem mem_plannedMerges : (key, owner) ∈ g.plannedMerges ↔ .device key ∈ g.nodes ∧
    g.mergeTarget key = some owner := by
  unfold plannedMerges
  rw [List.mem_filterMap]
  constructor
  · rintro ⟨id, hid, h⟩
    rw [Map.mem_sortedKeys] at hid
    cases id with
    | device k =>
      simp only [Option.map_eq_some_iff, Prod.mk.injEq] at h
      obtain ⟨o, ho, rfl, rfl⟩ := h
      exact ⟨hid, ho⟩
    | _ => cases h
  · rintro ⟨hk, ht⟩
    exact ⟨.device key, Map.mem_sortedKeys.mpr hk, by simp [ht]⟩

theorem mem_merges : (key, owner) ∈ g.merges ↔ g.Absorbed key owner := by
  unfold merges Absorbed
  rw [List.mem_filter, mem_plannedMerges]
  simp [and_assoc]

theorem plannedMerges_nodup (g : TopologyGraph) : (g.plannedMerges.map Prod.fst).Nodup := by
  unfold plannedMerges
  rw [List.map_filterMap]
  refine List.Nodup.filterMap ?_ (Map.sortedKeys_nodup g.nodes)
  intro a b c ha hb
  cases a with
  | device j =>
    cases b with
    | device k =>
      simp only [Option.mem_def, Option.map_map, Option.map_eq_some_iff, Function.comp_apply] at ha hb
      obtain ⟨_, -, rfl⟩ := ha
      obtain ⟨_, -, rfl⟩ := hb
      rfl
    | _ => cases hb
  | _ => cases ha

theorem merges_nodup (g : TopologyGraph) : (g.merges.map Prod.fst).Nodup :=
  (g.plannedMerges_nodup).sublist (List.filter_sublist.map _)

theorem absorbedIds_nodup (g : TopologyGraph) : g.absorbedIds.Nodup := by
  have h := g.merges_nodup.map (f := NodeId.device) (fun a b h => by cases h; rfl)
  rwa [List.map_map] at h

theorem mem_absorbedIds {id : NodeId} : id ∈ g.absorbedIds ↔ ∃ key owner, id = .device key ∧
    g.Absorbed key owner := by
  unfold absorbedIds
  rw [List.mem_map]
  constructor
  · rintro ⟨⟨k, o⟩, hm, rfl⟩
    exact ⟨k, o, rfl, mem_merges.mp hm⟩
  · rintro ⟨k, o, rfl, hm⟩
    exact ⟨(k, o), mem_merges.mpr hm, rfl⟩

/-- Hardware is never absorbed. -/
theorem mac_not_absorbed (h : key.isMac = true) : .device key ∉ g.absorbedIds := by
  rw [mem_absorbedIds]
  rintro ⟨k, o, he, -, ht, -⟩
  cases he
  rw [(isMac_of_mergeTarget ht).1] at h
  cases h

theorem destination_not_absorbed {a b : NodeId} (h : g.destination a = some b) : b ∉ g.absorbedIds := by
  cases a with
  | device k =>
    simp only [destination, Option.map_eq_some_iff] at h
    obtain ⟨o, ht, rfl⟩ := h
    exact mac_not_absorbed (isMac_of_mergeTarget ht).2
  | _ => cases h

/-! ## The pass as a relocation -/

/-- The edges after the ends named in `ms` have been re-pointed. -/
def repointAll (ms : List (DeviceKey × DeviceKey)) (edges : Map EdgeKey Edge) : Map EdgeKey Edge :=
  ms.foldl (fun edges m => repointEdges (.device m.1) (.device m.2) edges) edges

/-- One merge that is carried out. -/
theorem mergeOne_of_mem {g₀ : TopologyGraph} {aliases : List (DeviceKey × DeviceKey)} {m : DeviceKey × DeviceKey}
    (ht : g₀.mergeTarget m.1 = some m.2) (hk : .device m.1 ∈ g.nodes) (ho : .device m.2 ∈ g.nodes) :
    mergeOne (g, aliases) m =
      ({ g with
          nodes := Map.relocate foldNode id g₀.destination g.nodes (.device m.1)
          roleWeights := Map.relocate (· ∪ ·) id g₀.destination g.roleWeights (.device m.1)
          edges := repointEdges (.device m.1) (.device m.2) g.edges }, aliases ++ [m]) := by
  obtain ⟨k, o⟩ := m
  obtain ⟨hkm, hom⟩ := isMac_of_mergeTarget ht
  have hne : k ≠ o := fun he => by rw [he, hom] at hkm; cases hkm
  have hdest : g₀.destination (.device k) = some (.device o) := by simp [destination, ht]
  obtain ⟨source, hs⟩ := Map.mem_iff_lookup.mp hk
  obtain ⟨target, htgt⟩ := Map.mem_iff_lookup.mp ho
  have hnodes : Map.modify (AList.erase (.device k) g.nodes : Map NodeId Node) (.device o)
    (fun t => foldNode t source) =
      Map.relocate foldNode id g₀.destination g.nodes (.device k) := by
    have ht' : AList.lookup (.device o) (AList.erase (.device k) g.nodes) = some target := by
      rw [Map.lookup_erase_ite, if_neg (by simp [Ne.symm hne]), htgt]
    simp only [Map.relocate, hs, hdest, Map.modify, Map.upd, ht']
  have hweights : moveWeights (.device k) (.device o) g.roleWeights =
      Map.relocate (· ∪ ·) id g₀.destination g.roleWeights (.device k) := by
    unfold moveWeights Map.relocate
    cases hw : g.roleWeights.lookup (.device k) with
    | none => rfl
    | some signals =>
      simp only [hdest, Map.upd]
      cases AList.lookup (.device o) (AList.erase (.device k) g.roleWeights) <;> simp
  simp only [mergeOne]
  rw [if_neg (by simp [hne, ho]), hs]
  dsimp only
  rw [hnodes, hweights]

theorem mem_relocate_nodes {g₀ : TopologyGraph} {m : DeviceKey × DeviceKey} {id : NodeId}
    (ht : g₀.mergeTarget m.1 = some m.2) (ho : .device m.2 ∈ g.nodes) (hid : id ≠ .device m.1) :
    id ∈ Map.relocate foldNode (fun n => n) g₀.destination g.nodes (.device m.1) ↔ id ∈ g.nodes := by
  have hdest : g₀.destination (.device m.1) = some (.device m.2) := by simp [destination, ht]
  by_cases hd : id = .device m.2
  · subst hd
    rw [Map.mem_iff_lookup, Map.lookup_relocate_dest hdest hid]
    simp only [ho, iff_true]
    obtain ⟨t, htgt⟩ := Map.mem_iff_lookup.mp ho
    cases AList.lookup (.device m.1) g.nodes with
    | none => exact ⟨t, htgt⟩
    | some v => exact ⟨_, rfl⟩
  · rw [Map.mem_iff_lookup, Map.mem_iff_lookup, Map.lookup_relocate_of_ne hid]
    rw [hdest]
    simpa using Ne.symm hd

/-- A run of merges, each into a device that is there or not. -/
theorem foldl_mergeOne {g₀ : TopologyGraph} {ms aliases : List (DeviceKey × DeviceKey)}
    (hnd : (ms.map Prod.fst).Nodup) (ht : ∀ m ∈ ms, g₀.mergeTarget m.1 = some m.2)
    (hk : ∀ m ∈ ms, .device m.1 ∈ g.nodes) :
    ms.foldl mergeOne (g, aliases) =
      let done := ms.filter fun m => .device m.2 ∈ g.nodes
      let gone := done.map fun m => NodeId.device m.1
      ({ g with
          nodes := Map.relocateAll foldNode id g₀.destination gone g.nodes
          roleWeights := Map.relocateAll (· ∪ ·) id g₀.destination gone g.roleWeights
          edges := repointAll done g.edges }, aliases ++ done) := by
  induction ms generalizing g aliases with
  | nil => simp [Map.relocateAll, repointAll]
  | cons m ms ih =>
    have htm := ht m List.mem_cons_self
    obtain ⟨hmac, -⟩ := isMac_of_mergeTarget htm
    simp only [List.map_cons, List.nodup_cons] at hnd
    have ht' : ∀ i ∈ ms, g₀.mergeTarget i.1 = some i.2 := fun i hi => ht i (List.mem_cons_of_mem _ hi)
    have hk' : ∀ i ∈ ms, .device i.1 ∈ g.nodes := fun i hi => hk i (List.mem_cons_of_mem _ hi)
    by_cases ho : .device m.2 ∈ g.nodes
    · rw [List.foldl_cons, mergeOne_of_mem htm (hk m List.mem_cons_self) ho]
      -- the merge took one address-based identity away, and no other node
      have hsame : ∀ id : NodeId, id ≠ .device m.1 →
          (id ∈ Map.relocate foldNode (fun n => n) g₀.destination g.nodes (.device m.1) ↔ id ∈ g.nodes) :=
        fun id hid => mem_relocate_nodes htm ho hid
      have hfilter : (ms.filter fun i => .device i.2 ∈
          Map.relocate foldNode (fun n => n) g₀.destination g.nodes (.device m.1)) =
            ms.filter fun i => .device i.2 ∈ g.nodes := by
        refine List.filter_congr fun i hi => ?_
        have hne : NodeId.device i.2 ≠ .device m.1 := by
          intro he
          rw [← NodeId.device.inj he, (isMac_of_mergeTarget (ht' i hi)).2] at hmac
          cases hmac
        exact decide_eq_decide.mpr (hsame _ hne)
      rw [ih hnd.2 ht' ?_]
      · simp only [List.filter_cons, ho, decide_true, if_true, List.map_cons]
        rw [show (fun n : Node => n) = id from rfl] at hfilter
        rw [hfilter]
        simp [Map.relocateAll, repointAll]
      · intro i hi
        refine (hsame _ ?_).mpr (hk' i hi)
        intro he
        exact hnd.1 (NodeId.device.inj he ▸ List.mem_map_of_mem hi)
    · have hskip : mergeOne (g, aliases) m = (g, aliases) := by simp [mergeOne, ho]
      rw [List.foldl_cons, hskip, ih hnd.2 ht' hk']
      simp [ho]

/-- **The merge pass as a relocation.** -/
theorem mergeAddressIdentities_eq (g : TopologyGraph) :
    g.mergeAddressIdentities =
      ({ g with
          nodes := Map.relocateAll foldNode id g.destination g.absorbedIds g.nodes
          roleWeights := Map.relocateAll (· ∪ ·) id g.destination g.absorbedIds g.roleWeights
          edges := repointAll g.merges g.edges }, g.merges) := by
  unfold mergeAddressIdentities
  rw [foldl_mergeOne g.plannedMerges_nodup (fun m hm => (mem_plannedMerges.mp hm).2)
    (fun m hm => (mem_plannedMerges.mp hm).1)]
  rfl

end TopologyGraph

/-! ## Folding two nodes -/

section Fold

variable {a x : IpAddr} {r : Bool} {marks : List (IpAddr × Bool)}

theorem mem_keys_noteMark : a ∈ (Node.noteMark x r marks).map Prod.fst ↔ a ∈ marks.map Prod.fst ∨ a = x := by
  induction marks with
  | nil => simp [Node.noteMark]
  | cons e es ih =>
    unfold Node.noteMark
    split_ifs with he
    · subst he
      simp only [List.map_cons, List.mem_cons]
      tauto
    · simp only [List.map_cons, List.mem_cons, ih]
      tauto

/-- A local mark stays, and a local note leaves one. -/
theorem mem_noteMark_false : (a, false) ∈ Node.noteMark x r marks ↔ (a, false) ∈ marks ∨ (a = x ∧ r = false) := by
  induction marks with
  | nil => simp [Node.noteMark, eq_comm]
  | cons e es ih =>
    obtain ⟨y, b⟩ := e
    unfold Node.noteMark
    split_ifs with he
    · subst he
      simp only [List.mem_cons, Prod.mk.injEq]
      cases b <;> cases r <;> simp <;> tauto
    · simp only [List.mem_cons, ih, Prod.mk.injEq]
      tauto

theorem mem_locallyObservedAddresses {n : Node} : a ∈ n.locallyObservedAddresses ↔
    (a, false) ∈ n.addressProvenance := by
  unfold Node.locallyObservedAddresses
  simp only [List.mem_toFinset, List.mem_map, List.mem_filter]
  constructor
  · rintro ⟨⟨y, b⟩, ⟨hm, hb⟩, rfl⟩
    cases b
    · exact hm
    · cases hb
  · intro h
    exact ⟨(a, false), ⟨h, rfl⟩, rfl⟩

/-- The marks of one list noted on another. -/
def noteMarks (marks notes : List (IpAddr × Bool)) : List (IpAddr × Bool) :=
  notes.foldl (fun l e => Node.noteMark e.1 e.2 l) marks

theorem mem_keys_noteMarks {notes : List (IpAddr × Bool)} :
    a ∈ (noteMarks marks notes).map Prod.fst ↔ a ∈ marks.map Prod.fst ∨ a ∈ notes.map Prod.fst := by
  induction notes generalizing marks with
  | nil => simp [noteMarks]
  | cons e es ih =>
    have h := @ih (Node.noteMark e.1 e.2 marks)
    rw [mem_keys_noteMark] at h
    refine h.trans ?_
    simp only [List.map_cons, List.mem_cons]
    tauto

theorem mem_noteMarks_false {notes : List (IpAddr × Bool)} :
    (a, false) ∈ noteMarks marks notes ↔ (a, false) ∈ marks ∨ (a, false) ∈ notes := by
  induction notes generalizing marks with
  | nil => simp [noteMarks]
  | cons e es ih =>
    obtain ⟨y, b⟩ := e
    have h := @ih (Node.noteMark y b marks)
    rw [mem_noteMark_false] at h
    refine h.trans ?_
    simp only [List.mem_cons, Prod.mk.injEq, eq_comm (a := false)]
    tauto

/-- Folding, field by field. -/
theorem foldNode_eq (t s : Node) :
    foldNode t s =
      { t with
        addresses := t.addresses ∪ s.addresses
        addressProvenance := noteMarks t.addressProvenance s.addressProvenance
        hostnames := t.hostnames ∪ s.hostnames
        descriptions := t.descriptions ∪ s.descriptions
        roleSignals := t.roleSignals ∪ s.roleSignals
        capabilities := t.capabilities ∪ s.capabilities
        provenance := t.provenance ++ s.provenance
        vendor := if t.vendor.isNone then s.vendor else t.vendor
        opaqueReason := if t.opaqueReason.isNone then s.opaqueReason else t.opaqueReason
        confidence := if s.confidence > t.confidence then s.confidence else t.confidence } := by
  have hnote : ∀ (es : List (IpAddr × Bool)) (n : Node), es.foldl (fun n e => n.noteAddress e.1 e.2) n =
      { n with addressProvenance := noteMarks n.addressProvenance es } := by
    intro es
    induction es with
    | nil => intro n; rfl
    | cons e es ih => intro n; rw [List.foldl_cons, ih]; rfl
  unfold foldNode
  simp only [hnote]

end Fold

/-- The renaming of nodes that a list of aliases stands for. -/
def renameNode (aliases : List (DeviceKey × DeviceKey)) : NodeId → NodeId :=
  rename (aliases.map fun m => (.device m.1, .device m.2))

/-- An edge key with both ends renamed. -/
def EdgeKey.rename (aliases : List (DeviceKey × DeviceKey)) (k : EdgeKey) : EdgeKey :=
  ⟨renameNode aliases k.source, renameNode aliases k.target, k.relationship⟩

/-! ## The nodes -/

namespace TopologyGraph

variable {g : TopologyGraph}

theorem renameNode_absorbed {key owner : DeviceKey} (h : g.Absorbed key owner) :
    renameNode g.merges (.device key) = .device owner := by
  have hmem : (NodeId.device key, renameNode g.merges (.device key)) ∈
      g.merges.map fun m => (NodeId.device m.1, NodeId.device m.2) :=
    rename_of_mem ⟨(.device key, .device owner), List.mem_map_of_mem (mem_merges.mpr h), rfl⟩
  obtain ⟨⟨k, o⟩, hm, he⟩ := List.mem_map.mp hmem
  simp only [Prod.mk.injEq, NodeId.device.injEq] at he
  obtain ⟨rfl, he⟩ := he
  have ho : some o = some owner := (mem_merges.mp hm).2.1.symm.trans h.2.1
  rw [← he, Option.some.inj ho]

theorem renameNode_of_not_absorbed {id : NodeId} (h : id ∉ g.absorbedIds) : renameNode g.merges id = id := by
  refine rename_of_not_mem ?_
  intro a ha he
  obtain ⟨⟨k, o⟩, hm, rfl⟩ := List.mem_map.mp ha
  exact h (mem_absorbedIds.mpr ⟨k, o, he.symm, mem_merges.mp hm⟩)

/-- A survivor is not renamed. -/
theorem renameNode_eq_self {id : NodeId} : renameNode g.merges id = id ↔ id ∉ g.absorbedIds := by
  refine ⟨fun h hid => ?_, renameNode_of_not_absorbed⟩
  obtain ⟨k, o, rfl, ha⟩ := mem_absorbedIds.mp hid
  rw [renameNode_absorbed ha] at h
  obtain ⟨hk, ho⟩ := isMac_of_mergeTarget ha.2.1
  rw [← NodeId.device.inj h, ho] at hk
  cases hk

theorem renameNode_not_absorbed (g : TopologyGraph) (id : NodeId) : renameNode g.merges id ∉ g.absorbedIds := by
  by_cases hid : id ∈ g.absorbedIds
  · obtain ⟨k, o, rfl, ha⟩ := mem_absorbedIds.mp hid
    rw [renameNode_absorbed ha]
    exact mac_not_absorbed (isMac_of_mergeTarget ha.2.1).2
  · rwa [renameNode_of_not_absorbed hid]

/-- Relocating along the merges is renaming. -/
theorem absorbed_destination_iff {i j : NodeId} :
    i ∈ g.absorbedIds ∧ g.destination i = some j ↔ i ∈ g.absorbedIds ∧ renameNode g.merges i = j := by
  constructor
  · rintro ⟨hi, hd⟩
    obtain ⟨k, o, rfl, ha⟩ := mem_absorbedIds.mp hi
    refine ⟨hi, ?_⟩
    simp only [destination, ha.2.1, Option.map_some, Option.some.injEq] at hd
    rw [renameNode_absorbed ha, hd]
  · rintro ⟨hi, rfl⟩
    obtain ⟨k, o, rfl, ha⟩ := mem_absorbedIds.mp hi
    refine ⟨hi, ?_⟩
    rw [renameNode_absorbed ha]
    simp [destination, ha.2.1]

/-- **A property that folding splits** holds of a node after the merge exactly when it holds of a node that was merged
into it. -/
theorem exists_relocateAll_iff_rename {V : Type} {join : V → V → V} {Φ : V → Prop}
    (hjoin : ∀ t v, Φ (join t v) ↔ Φ t ∨ Φ v) {m : Map NodeId V} {j : NodeId} :
    (∃ v, (Map.relocateAll join id g.destination g.absorbedIds m).lookup j = some v ∧ Φ v) ↔
      ∃ i v, renameNode g.merges i = j ∧ m.lookup i = some v ∧ Φ v := by
  rw [Map.exists_relocateAll hjoin (fun v => show Φ (id v) ↔ Φ v from Iff.rfl) g.absorbedIds_nodup
    (fun k _ i hi hd => destination_not_absorbed hd hi)]
  constructor
  · rintro (⟨i, hi, hd, v, hv, hΦ⟩ | ⟨hj, v, hv, hΦ⟩)
    · exact ⟨i, v, (absorbed_destination_iff.mp ⟨hi, hd⟩).2, hv, hΦ⟩
    · exact ⟨j, v, renameNode_of_not_absorbed hj, hv, hΦ⟩
  · rintro ⟨i, v, hr, hv, hΦ⟩
    by_cases hi : i ∈ g.absorbedIds
    · exact .inl ⟨i, hi, (absorbed_destination_iff.mpr ⟨hi, hr⟩).2, v, hv, hΦ⟩
    · rw [renameNode_of_not_absorbed hi] at hr
      subst hr
      exact .inr ⟨hi, v, hv, hΦ⟩

theorem exists_node_merge {Φ : Node → Prop} (hjoin : ∀ t s, Φ (foldNode t s) ↔ Φ t ∨ Φ s) {j : NodeId} :
    (∃ n, g.mergeAddressIdentities.1.nodes.lookup j = some n ∧ Φ n) ↔
      ∃ i n, renameNode g.merges i = j ∧ g.nodes.lookup i = some n ∧ Φ n := by
  rw [mergeAddressIdentities_eq]
  exact exists_relocateAll_iff_rename hjoin

/-- A node that is neither absorbed nor absorbs is as it was. -/
theorem lookup_node_of_untouched {j : NodeId} (hj : j ∉ g.absorbedIds)
    (hd : ∀ i ∈ g.absorbedIds, renameNode g.merges i ≠ j) :
    g.mergeAddressIdentities.1.nodes.lookup j = g.nodes.lookup j := by
  rw [mergeAddressIdentities_eq]
  exact Map.lookup_relocateAll_of_untouched hj fun i hi he => hd i hi (absorbed_destination_iff.mp ⟨hi, he⟩).2

/-- A property that folding leaves with the survivor. -/
theorem exists_node_merge_of_stays {Φ : Node → Prop} (hjoin : ∀ t s, Φ (foldNode t s) ↔ Φ t) {j : NodeId}
    (hj : j ∉ g.absorbedIds) (hmem : j ∈ g.nodes) :
    (∃ n, g.mergeAddressIdentities.1.nodes.lookup j = some n ∧ Φ n) ↔ ∃ n, g.nodes.lookup j = some n ∧ Φ n := by
  rw [mergeAddressIdentities_eq]
  exact Map.exists_relocateAll_of_stays hjoin hmem hj

theorem mem_nodes_merge {j : NodeId} :
    j ∈ g.mergeAddressIdentities.1.nodes ↔ j ∈ g.nodes ∧ j ∉ g.absorbedIds := by
  have h := exists_node_merge (g := g) (Φ := fun _ => True) (by simp) (j := j)
  rw [Map.mem_iff_lookup]
  simp only [and_true] at h
  rw [h]
  constructor
  · rintro ⟨i, n, rfl, hn⟩
    refine ⟨?_, g.renameNode_not_absorbed i⟩
    by_cases hi : i ∈ g.absorbedIds
    · obtain ⟨k, o, rfl, ha⟩ := mem_absorbedIds.mp hi
      rw [renameNode_absorbed ha]
      exact ha.2.2
    · rw [renameNode_of_not_absorbed hi]
      exact Map.mem_of_lookup hn
  · rintro ⟨hj, hna⟩
    obtain ⟨n, hn⟩ := Map.mem_iff_lookup.mp hj
    exact ⟨j, n, renameNode_of_not_absorbed hna, hn⟩

/-- Assigning kinds changes nothing of a node but its kind. -/
theorem exists_node_rekind {Φ : Node → Prop} (hkind : ∀ n kind, Φ { n with kind := kind } ↔ Φ n)
    {changes : List (NodeId × (NodeKind → NodeKind))} {j : NodeId} :
    (∃ n, (g.rekind changes).nodes.lookup j = some n ∧ Φ n) ↔ ∃ n, g.nodes.lookup j = some n ∧ Φ n := by
  obtain ⟨f, hf⟩ := lookup_rekind changes g j
  rw [hf]
  cases g.nodes.lookup j with
  | none => simp
  | some n => simp [hkind]

theorem exists_node_finalizeRoles {Φ : Node → Prop} (hkind : ∀ n kind, Φ { n with kind := kind } ↔ Φ n) {j : NodeId} :
    (∃ n, g.finalizeRoles.nodes.lookup j = some n ∧ Φ n) ↔
      ∃ n, g.mergeAddressIdentities.1.nodes.lookup j = some n ∧ Φ n := by
  unfold finalizeRoles
  rw [exists_node_rekind hkind, exists_node_rekind hkind]

/-- Assigning roles takes away no node that the merge leaves. -/
theorem mem_nodes_finalizeRoles {j : NodeId} : j ∈ g.finalizeRoles.nodes ↔ j ∈ g.mergeAddressIdentities.1.nodes := by
  have h := exists_node_finalizeRoles (g := g) (Φ := fun _ => True) (by simp) (j := j)
  simpa only [Map.mem_iff_lookup, and_true] using h

theorem mergeTarget_merge : g.mergeAddressIdentities.1.mergeTarget = g.mergeTarget := by
  have hframe : g.mergeAddressIdentities.1.addressOwner = g.addressOwner :=
    mergeAddressIdentities_frame (·.addressOwner) (fun _ _ _ _ => rfl)
  funext key
  unfold mergeTarget
  rw [hframe]

/-- After a merge there is nothing left to merge. -/
theorem not_absorbed_merge : ¬ g.mergeAddressIdentities.1.Absorbed key owner := by
  rintro ⟨hkey, ht, howner⟩
  rw [mergeTarget_merge] at ht
  obtain ⟨hkey, hna⟩ := mem_nodes_merge.mp hkey
  exact hna (mem_absorbedIds.mpr ⟨key, owner, rfl, hkey, ht, (mem_nodes_merge.mp howner).1⟩)

/-- **A second merge finds nothing to do.** -/
theorem merge_merge_eq : g.mergeAddressIdentities.1.mergeAddressIdentities = (g.mergeAddressIdentities.1, []) := by
  have hnone : g.mergeAddressIdentities.1.merges = [] := by
    rw [List.eq_nil_iff_forall_not_mem]
    intro m hm
    exact not_absorbed_merge (mem_merges.mp hm)
  rw [mergeAddressIdentities_eq g.mergeAddressIdentities.1, absorbedIds, hnone]
  rfl

theorem merge_merge : g.mergeAddressIdentities.1.mergeAddressIdentities.1 = g.mergeAddressIdentities.1 := by
  rw [merge_merge_eq]

end TopologyGraph

/-! ## The edges -/

/-- The place of an edge, by its own ends. -/
def Edge.key (e : Edge) : EdgeKey := ⟨e.source, e.target, e.relationship⟩

/-- Every edge is filed under its own ends. -/
def EdgesKeyed (edges : Map EdgeKey Edge) : Prop := ∀ k e, edges.lookup k = some e → e.key = k

/-- An edge key with `old` replaced by `new`. -/
def EdgeKey.repoint (k : EdgeKey) (old new : NodeId) : EdgeKey :=
  ⟨if k.source = old then new else k.source, if k.target = old then new else k.target, k.relationship⟩

/-- Where an edge goes when `old` becomes `new`: nowhere if it would join a node to itself. -/
def EdgeKey.destination (old new : NodeId) (k : EdgeKey) : Option EdgeKey :=
  if (k.repoint old new).source = (k.repoint old new).target then none else some (k.repoint old new)

/-- An edge that takes over the provenance of another. -/
def Edge.join (t e : Edge) : Edge := { t with provenance := t.provenance ++ e.provenance }

section Edges

variable {edges : Map EdgeKey Edge} {old new : NodeId}

theorem Edge.repoint_key (e : Edge) : (e.repoint old new).key = e.key.repoint old new := rfl

theorem repointEdge_eq (h : EdgesKeyed edges) (k : EdgeKey) :
    repointEdge old new edges k =
      Map.relocate Edge.join (fun e => e.repoint old new) (EdgeKey.destination old new) edges k := by
  unfold repointEdge Map.relocate
  cases he : edges.lookup k with
  | none => rfl
  | some e =>
    have hk : e.key = k := h k e he
    have hr : (e.repoint old new).key = k.repoint old new := by rw [Edge.repoint_key, hk]
    have hs : (e.repoint old new).source = (k.repoint old new).source := congrArg EdgeKey.source hr
    have ht : (e.repoint old new).target = (k.repoint old new).target := congrArg EdgeKey.target hr
    have hrel : (e.repoint old new).relationship = (k.repoint old new).relationship :=
      congrArg EdgeKey.relationship hr
    simp only [hs, ht, hrel, EdgeKey.destination]
    split_ifs with hself
    · rfl
    · simp only [Map.upd]
      cases AList.lookup (k.repoint old new) (AList.erase k edges) <;> rfl

theorem edgesKeyed_relocate (h : EdgesKeyed edges) (k : EdgeKey) :
    EdgesKeyed (Map.relocate Edge.join (fun e => e.repoint old new) (EdgeKey.destination old new) edges k) := by
  intro j e he
  unfold Map.relocate at he
  split at he
  · exact h j e he
  · rename_i v hv
    split at he
    · rw [Map.lookup_erase_ite] at he
      split_ifs at he
      exact h j e he
    · rename_i k' hk'
      rw [Map.lookup_upd] at he
      split_ifs at he with hj
      · subst hj
        have hjk : k.repoint old new = j := by
          unfold EdgeKey.destination at hk'
          split_ifs at hk'
          exact Option.some.inj hk'
        rw [Map.lookup_erase_ite] at he
        split_ifs at he
        · cases he
          rw [Edge.repoint_key, h k v hv, hjk]
        · cases ht : AList.lookup j edges with
          | none =>
            rw [ht] at he
            cases he
            rw [Edge.repoint_key, h k v hv, hjk]
          | some t =>
            rw [ht] at he
            cases he
            exact h j t ht
      · rw [Map.lookup_erase_ite] at he
        split_ifs at he
        exact h j e he

theorem foldl_repointEdge_eq (h : EdgesKeyed edges) (ks : List EdgeKey) :
    ks.foldl (repointEdge old new) edges =
        Map.relocateAll Edge.join (fun e => e.repoint old new) (EdgeKey.destination old new) ks edges ∧
      EdgesKeyed (ks.foldl (repointEdge old new) edges) := by
  induction ks generalizing edges with
  | nil => exact ⟨rfl, h⟩
  | cons k ks ih =>
    rw [List.foldl_cons, repointEdge_eq h k]
    exact ih (edgesKeyed_relocate h k)

theorem mem_affectedEdges {k : EdgeKey} :
    k ∈ affectedEdges edges old ↔ k ∈ edges ∧ (k.source = old ∨ k.target = old) := by
  unfold affectedEdges
  rw [List.mem_filter, Map.mem_sortedKeys]
  simp

theorem EdgeKey.repoint_of_not_mem {k : EdgeKey} (h : ¬(k.source = old ∨ k.target = old)) :
    k.repoint old new = k := by
  simp only [not_or] at h
  simp [EdgeKey.repoint, h.1, h.2]

theorem EdgeKey.repoint_ends (hne : old ≠ new) (k : EdgeKey) :
    ¬((k.repoint old new).source = old ∨ (k.repoint old new).target = old) := by
  simp only [EdgeKey.repoint]
  rintro (h | h)
  · split_ifs at h with hs
    · exact hne h.symm
    · exact hs h
  · split_ifs at h with hs
    · exact hne h.symm
    · exact hs h

/-- **One merge, asked about a property that joining edges splits.** -/
theorem exists_repointEdges {Φ : Edge → Prop} (hjoin : ∀ t e, Φ (t.join e) ↔ Φ t ∨ Φ e)
    (hrepoint : ∀ e, Φ (e.repoint old new) ↔ Φ e) (h : EdgesKeyed edges) (hne : old ≠ new) {j : EdgeKey} :
    (∃ e, (repointEdges old new edges).lookup j = some e ∧ Φ e) ↔
      ∃ i e, i.repoint old new = j ∧ (i = j ∨ j.source ≠ j.target) ∧ edges.lookup i = some e ∧ Φ e := by
  have hdest : ∀ {k i : EdgeKey}, EdgeKey.destination old new k = some i →
      k.repoint old new = i ∧ i.source ≠ i.target := by
    intro k i hd
    unfold EdgeKey.destination at hd
    split_ifs at hd with hs
    cases hd
    exact ⟨rfl, hs⟩
  have hnd : (affectedEdges edges old).Nodup := (Map.sortedKeys_nodup edges).filter _
  unfold repointEdges
  rw [(foldl_repointEdge_eq h _).1, Map.exists_relocateAll hjoin hrepoint hnd]
  · constructor
    · rintro (⟨i, hi, hd, e, he, hΦ⟩ | ⟨hj, e, he, hΦ⟩)
      · exact ⟨i, e, (hdest hd).1, .inr (hdest hd).2, he, hΦ⟩
      · refine ⟨j, e, EdgeKey.repoint_of_not_mem fun hold => ?_, .inl rfl, he, hΦ⟩
        exact hj (mem_affectedEdges.mpr ⟨Map.mem_of_lookup he, hold⟩)
    · rintro ⟨i, e, hr, hs, he, hΦ⟩
      by_cases hi : i.source = old ∨ i.target = old
      · have hij : i ≠ j := by
          rintro rfl
          exact EdgeKey.repoint_ends hne i (hr.symm ▸ hi)
        have hself : j.source ≠ j.target := by
          rcases hs with rfl | hs
          · exact absurd rfl hij
          · exact hs
        refine .inl ⟨i, mem_affectedEdges.mpr ⟨Map.mem_of_lookup he, hi⟩, ?_, e, he, hΦ⟩
        simp [EdgeKey.destination, hr, hself]
      · rw [EdgeKey.repoint_of_not_mem hi] at hr
        subst hr
        exact .inr ⟨fun hm => hi (mem_affectedEdges.mp hm).2, e, he, hΦ⟩
  · intro k _ i hi hd
    exact EdgeKey.repoint_ends hne k ((hdest hd).1 ▸ (mem_affectedEdges.mp hi).2)

theorem edgesKeyed_repointEdges (h : EdgesKeyed edges) : EdgesKeyed (repointEdges old new edges) :=
  (foldl_repointEdge_eq h _).2

theorem edgesKeyed_repointAll {ms : List (DeviceKey × DeviceKey)} (h : EdgesKeyed edges) :
    EdgesKeyed (TopologyGraph.repointAll ms edges) := by
  induction ms generalizing edges with
  | nil => exact h
  | cons m ms ih => exact ih (edgesKeyed_repointEdges h)

theorem renameNode_cons (m : DeviceKey × DeviceKey) (ms : List (DeviceKey × DeviceKey)) (id : NodeId) :
    renameNode (m :: ms) id = if id = .device m.1 then .device m.2 else renameNode ms id := rfl

/-- Renaming by a list is re-pointing by its head and renaming by the rest, as long as no alias is itself renamed. -/
theorem EdgeKey.rename_repoint {m : DeviceKey × DeviceKey} {ms : List (DeviceKey × DeviceKey)}
    (hm : ∀ b ∈ ms, b.1 ≠ m.2) (k : EdgeKey) :
    (k.repoint (.device m.1) (.device m.2)).rename ms = k.rename (m :: ms) := by
  have hfix : renameNode ms (.device m.2) = .device m.2 := by
    refine rename_of_not_mem ?_
    intro a ha
    obtain ⟨b, hb, rfl⟩ := List.mem_map.mp ha
    exact fun he => hm b hb (NodeId.device.inj he)
  unfold EdgeKey.rename EdgeKey.repoint
  simp only [renameNode_cons]
  congr 1
  · split_ifs
    · exact hfix
    · rfl
  · split_ifs
    · exact hfix
    · rfl

/-- **All merges.** The edges after the pass are the images of the edges before it, less those that come to join a
node to itself. -/
theorem exists_repointAll {Φ : Edge → Prop} (hjoin : ∀ t e, Φ (t.join e) ↔ Φ t ∨ Φ e)
    (hrepoint : ∀ old new e, Φ (e.repoint old new) ↔ Φ e) {ms : List (DeviceKey × DeviceKey)} (h : EdgesKeyed edges)
    (hms : ∀ m ∈ ms, ∀ b ∈ ms, b.1 ≠ m.2) {j : EdgeKey} :
    (∃ e, (TopologyGraph.repointAll ms edges).lookup j = some e ∧ Φ e) ↔
      ∃ i e, i.rename ms = j ∧ (i = j ∨ j.source ≠ j.target) ∧ edges.lookup i = some e ∧ Φ e := by
  induction ms generalizing edges with
  | nil =>
    constructor
    · rintro ⟨e, he, hΦ⟩
      exact ⟨j, e, rfl, .inl rfl, he, hΦ⟩
    · rintro ⟨i, e, rfl, -, he, hΦ⟩
      exact ⟨e, he, hΦ⟩
  | cons m ms ih =>
    have hself : m.1 ≠ m.2 := hms m List.mem_cons_self m List.mem_cons_self
    have hne : NodeId.device m.1 ≠ .device m.2 := fun he => hself (NodeId.device.inj he)
    have hrest : ∀ b ∈ ms, b.1 ≠ m.2 := fun b hb => hms m List.mem_cons_self b (List.mem_cons_of_mem _ hb)
    have hih := @ih (repointEdges (.device m.1) (.device m.2) edges) (edgesKeyed_repointEdges h)
      (fun a ha b hb => hms a (List.mem_cons_of_mem _ ha) b (List.mem_cons_of_mem _ hb))
    refine hih.trans ?_
    constructor
    · rintro ⟨i, e, hi, hs, he⟩
      obtain ⟨i₀, e₀, hr, hs₀, he₀⟩ := (exists_repointEdges hjoin (hrepoint _ _) h hne).mp ⟨e, he⟩
      refine ⟨i₀, e₀, ?_, ?_, he₀⟩
      · rw [← EdgeKey.rename_repoint hrest, hr, hi]
      · rcases hs with rfl | hs
        · rcases hs₀ with rfl | hs₀
          · exact .inl rfl
          · exact .inr hs₀
        · exact .inr hs
    · rintro ⟨i₀, e₀, hr, hs, he₀⟩
      -- an edge that is not renamed at all is not renamed by the first alias
      have hfix : i₀ = j → i₀.repoint (.device m.1) (.device m.2) = i₀ := by
        rintro rfl
        refine EdgeKey.repoint_of_not_mem ?_
        rintro (hold | hold)
        · have hsrc := congrArg EdgeKey.source hr
          simp only [EdgeKey.rename, renameNode_cons, if_pos hold] at hsrc
          exact hne (hold.symm.trans hsrc.symm)
        · have htgt := congrArg EdgeKey.target hr
          simp only [EdgeKey.rename, renameNode_cons, if_pos hold] at htgt
          exact hne (hold.symm.trans htgt.symm)
      have hmid : i₀ = i₀.repoint (.device m.1) (.device m.2) ∨
          (i₀.repoint (.device m.1) (.device m.2)).source ≠ (i₀.repoint (.device m.1) (.device m.2)).target := by
        rcases hs with hs | hs
        · exact .inl (hfix hs).symm
        · refine .inr fun heq => hs ?_
          rw [← hr, ← EdgeKey.rename_repoint hrest]
          exact congrArg (renameNode ms) heq
      obtain ⟨e, he⟩ := (exists_repointEdges hjoin (hrepoint _ _) h hne).mpr ⟨i₀, e₀, rfl, hmid, he₀⟩
      refine ⟨_, e, ?_, ?_, he⟩
      · rw [EdgeKey.rename_repoint hrest, hr]
      · rcases hs with hs | hs
        · exact .inl ((hfix hs).trans hs)
        · exact .inr hs

end Edges

namespace TopologyGraph

variable {g : TopologyGraph}

theorem merges_flat (g : TopologyGraph) : ∀ m ∈ g.merges, ∀ b ∈ g.merges, b.1 ≠ m.2 := by
  rintro ⟨k, o⟩ hm ⟨k', o'⟩ hb he
  have ho := (isMac_of_mergeTarget (mem_merges.mp hm).2.1).2
  have hk := (isMac_of_mergeTarget (mem_merges.mp hb).2.1).1
  simp only at he
  rw [he, ho] at hk
  cases hk

theorem exists_edge_merge {Φ : Edge → Prop} (hjoin : ∀ t e, Φ (t.join e) ↔ Φ t ∨ Φ e)
    (hrepoint : ∀ old new e, Φ (e.repoint old new) ↔ Φ e) (h : EdgesKeyed g.edges) {j : EdgeKey} :
    (∃ e, g.mergeAddressIdentities.1.edges.lookup j = some e ∧ Φ e) ↔
      ∃ i e, i.rename g.merges = j ∧ (i = j ∨ j.source ≠ j.target) ∧ g.edges.lookup i = some e ∧ Φ e := by
  rw [mergeAddressIdentities_eq]
  exact exists_repointAll hjoin hrepoint h g.merges_flat

theorem edgesKeyed_merge (h : EdgesKeyed g.edges) : EdgesKeyed g.mergeAddressIdentities.1.edges := by
  rw [mergeAddressIdentities_eq]
  exact edgesKeyed_repointAll h

end TopologyGraph

/-! ## Every run -/

/-- **Induction over runs, command by command.** -/
theorem build_invariant {P : TopologyGraph → Prop} (h0 : P .new) (hexec : ∀ ev g c, P g → P (exec ev g c))
    (hmerge : ∀ g, P g → P g.mergeAddressIdentities.1) (hrekind : ∀ g changes, P g → P (g.rekind changes))
    (ops : List GraphOp) : P (build ops) := by
  refine run_induction (P := fun _ g => P g) GraphOp.apply h0 (fun h op hP => ?_) ops
  cases op with
  | absorb ev =>
    show P (TopologyGraph.absorb _ ev)
    rw [absorb_eq_plan]
    exact foldl_exec_inv (fun c _ g hg => hexec ev g c hg) hP
  | merge => exact hmerge _ hP
  | finalize => exact hrekind _ _ (hrekind _ _ (hmerge _ hP))

/-- Every edge of a reachable graph is filed under its own ends. -/
theorem edgesKeyed_build (ops : List GraphOp) : EdgesKeyed (build ops).edges := by
  refine build_invariant (P := fun g => EdgesKeyed g.edges) ?_ ?_ (fun g h => TopologyGraph.edgesKeyed_merge h) ?_ ops
  · intro k e h
    cases h
  · intro ev g c h
    cases c with
    | link source target relationship prov =>
      intro k e he
      rw [exec, TopologyGraph.lookup_link] at he
      split_ifs at he with hk
      · subst hk
        cases he
        cases ht : g.edges.lookup ⟨source, target, relationship⟩ with
        | none => rfl
        | some t => exact h _ t ht
      · exact h k e he
    | claim slot key => rw [exec, settleClaim_edges]; exact h
    | _ => exact h
  · intro g changes h
    have hframe : (g.rekind changes).edges = g.edges :=
      TopologyGraph.rekind_frame (·.edges) (fun _ _ => rfl) changes g
    rw [hframe]
    exact h

theorem Note.write_id (remote : Bool) (n : Node) (note : Note) : (note.write remote n).id = n.id := by
  cases note with
  | vendor v => unfold Note.write; split_ifs <;> rfl
  | boundary w => unfold Note.write; split_ifs <;> rfl
  | _ => rfl

theorem Note.write_kind (remote : Bool) (n : Node) (note : Note) : (note.write remote n).kind = n.kind := by
  cases note with
  | vendor v => unfold Note.write; split_ifs <;> rfl
  | boundary w => unfold Note.write; split_ifs <;> rfl
  | _ => rfl

theorem Note.write_opaqueReason (remote : Bool) (n : Node) {note : Note} (h : ∀ why, note ≠ .boundary why) :
    (note.write remote n).opaqueReason = n.opaqueReason := by
  cases note with
  | vendor v => unfold Note.write; split_ifs <;> rfl
  | boundary w => exact absurd rfl (h w)
  | _ => rfl

theorem Mark.apply_id (address : IpAddr) (remote : Bool) (n : Node) (m : Mark) :
    (m.apply address remote n).id = n.id := by
  cases m <;> rfl

theorem Note.write_evidence (remote : Bool) (n : Node) (note : Note) :
    (note.write remote n).confidence = n.confidence ∧ (note.write remote n).provenance = n.provenance := by
  cases note with
  | vendor v => unfold Note.write; split_ifs <;> exact ⟨rfl, rfl⟩
  | boundary w => unfold Note.write; split_ifs <;> exact ⟨rfl, rfl⟩
  | _ => exact ⟨rfl, rfl⟩

theorem Mark.apply_evidence (address : IpAddr) (remote : Bool) (n : Node) (m : Mark) :
    (m.apply address remote n).confidence = n.confidence ∧ (m.apply address remote n).provenance = n.provenance := by
  cases m <;> exact ⟨rfl, rfl⟩

/-- Every node of a reachable graph is filed under its own identity. -/
theorem nodesKeyed_build (ops : List GraphOp) : ∀ id n, (build ops).nodes.lookup id = some n → n.id = id := by
  refine build_invariant (P := fun g => ∀ id n, g.nodes.lookup id = some n → n.id = id) ?_ ?_ ?_ ?_ ops
  · intro id n h
    cases h
  · intro ev g c h id n hn
    rcases origin_exec (π := Node.id) (fun _ _ _ => rfl) Mark.apply_id
      (fun _ note _ n => Note.write_id _ n note) hn with
      ⟨n₀, hn₀, hid⟩ | ⟨-, kind, -, hid⟩
    · rw [hid]
      exact h id n₀ hn₀
    · exact hid
  · intro g h id n hn
    obtain ⟨hmem, hna⟩ := TopologyGraph.mem_nodes_merge.mp (Map.mem_of_lookup hn)
    obtain ⟨n₀, hn₀⟩ := Map.mem_iff_lookup.mp hmem
    obtain ⟨n', hn', hid⟩ := (TopologyGraph.exists_node_merge_of_stays (Φ := fun n => n.id = id)
      (by intro t s; rw [foldNode_eq]) hna hmem).mpr ⟨n₀, hn₀, h id n₀ hn₀⟩
    rw [hn] at hn'
    cases hn'
    exact hid
  · intro g changes h id n hn
    obtain ⟨f, hf⟩ := TopologyGraph.lookup_rekind changes g id
    rw [hf] at hn
    obtain ⟨n₀, hn₀, rfl⟩ := Option.map_eq_some_iff.mp hn
    exact h id n₀ hn₀

/-! ## One pass is enough -/

namespace TopologyGraph

variable {g : TopologyGraph} {key : DeviceKey} {slot : Slot}

/-- An identity whose slot nobody owns is not touched. -/
theorem lookup_merge_of_unowned (hslot : identitySlot key = some slot) (hfree : g.addressOwner.lookup slot = none) :
    g.mergeAddressIdentities.1.nodes.lookup (.device key) = g.nodes.lookup (.device key) := by
  have hmac : key.isMac = false := by
    cases key with
    | mac m => cases hslot
    | address a => rfl
    | scopedAddress a zone => rfl
  refine lookup_node_of_untouched ?_ ?_
  · rw [mem_absorbedIds]
    rintro ⟨k, owner, hk, -, ht, -⟩
    cases hk
    unfold mergeTarget at ht
    rw [hslot] at ht
    dsimp only at ht
    rw [hfree] at ht
    cases ht
  · -- what others are merged into is hardware
    intro i hi he
    obtain ⟨k, owner, rfl, ha⟩ := mem_absorbedIds.mp hi
    rw [renameNode_absorbed ha] at he
    have howner := (isMac_of_mergeTarget ha.2.1).2
    rw [NodeId.device.inj he, hmac] at howner
    cases howner

end TopologyGraph

/-- **One merge reaches the fixed point** of every reachable graph: no address-keyed node is left whose slot a
MAC-keyed node owns, the nodes of contested slots are as they were, and a second merge changes nothing. -/
theorem merge_complete_idempotent (ops : List GraphOp) :
    let g := (build ops).mergeAddressIdentities.1
    (∀ key slot owner, .device key ∈ g.nodes → identitySlot key = some slot →
      g.addressOwner.lookup slot = some owner → owner.isMac = true → .device owner ∉ g.nodes) ∧
    (∀ key slot, identitySlot key = some slot → slot ∈ (build ops).contestedAddresses →
      g.nodes.lookup (.device key) = (build ops).nodes.lookup (.device key)) ∧
    g.mergeAddressIdentities = (g, []) := by
  refine ⟨?_, ?_, TopologyGraph.merge_merge_eq⟩
  · intro key slot owner hkey hslot howner hmac hmem
    have htarget : (build ops).mergeAddressIdentities.1.mergeTarget key = some owner := by
      unfold TopologyGraph.mergeTarget
      rw [hslot]
      dsimp only
      rw [howner]
      exact if_pos hmac
    exact TopologyGraph.not_absorbed_merge ⟨hkey, htarget, hmem⟩
  · intro key slot hslot hcontested
    have hinv := slotInv_build ops
    obtain ⟨cs, hcs⟩ := Map.mem_iff_lookup.mp hcontested
    exact TopologyGraph.lookup_merge_of_unowned hslot (contested_of_tenure hinv (tenure_of_contested hinv hcs)).2

end Idnx
