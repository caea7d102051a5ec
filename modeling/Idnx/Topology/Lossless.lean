import Idnx.Topology.Fresh
import Idnx.Topology.Merge
import Mathlib.Data.Finset.Union

/-!
# What a merge loses

A merge should only rename: every survivor gathers what was known of the identities merged into it, the edges are the
images of the edges, the path out is the image of the path (`LosesNothing`). The pass does this for all that it folds.
It does not fold the superseded and the contested addresses of an absorbed node, it does not rename the hops of the
path, and it drops self-edges only where it creates them. `losesNothing_iff`: nothing else is lost, so a merge loses
nothing exactly when none of these three comes up (`MergesCleanly`).
-/

namespace Idnx

/-- In `g'` every node has, of some kind of data, exactly what the nodes of `g` that `r` takes to it had. -/
def Gathers {α : Type} (g g' : TopologyGraph) (r : NodeId → NodeId) (data : Node → Set α) : Prop :=
  ∀ j n', g'.nodes.lookup j = some n' → ∀ x, x ∈ data n' ↔ ∃ i n, r i = j ∧ g.nodes.lookup i = some n ∧ x ∈ data n

/-- The graph `g'` is `g` with its nodes renamed by `aliases`, and nothing is lost. -/
structure Renames (g g' : TopologyGraph) (aliases : List (DeviceKey × DeviceKey)) : Prop where
  nodes : ∀ j, j ∈ g'.nodes ↔ ∃ i ∈ g.nodes, renameNode aliases i = j
  addresses : Gathers g g' (renameNode aliases) fun n => {a | a ∈ n.addresses}
  marked : Gathers g g' (renameNode aliases) fun n => {a | a ∈ n.addressProvenance.map Prod.fst}
  locallyMarked : Gathers g g' (renameNode aliases) fun n => {a | a ∈ n.locallyObservedAddresses}
  superseded : Gathers g g' (renameNode aliases) fun n => {a | a ∈ n.supersededAddresses}
  contested : Gathers g g' (renameNode aliases) fun n => {a | a ∈ n.contestedAddresses}
  hostnames : Gathers g g' (renameNode aliases) fun n => {t | t ∈ n.hostnames}
  roleSignals : Gathers g g' (renameNode aliases) fun n => {t | t ∈ n.roleSignals}
  provenance : Gathers g g' (renameNode aliases) fun n => {p | p ∈ n.provenance}
  edges : ∀ k, k ∈ g'.edges ↔ k.source ≠ k.target ∧ ∃ i ∈ g.edges, i.rename aliases = k
  edgeProvenance : ∀ k e', g'.edges.lookup k = some e' → ∀ p, p ∈ e'.provenance ↔
    ∃ i e, i.rename aliases = k ∧ g.edges.lookup i = some e ∧ p ∈ e.provenance
  egressPath : ∀ d, g'.egressPath.lookup d = (g.egressPath.lookup d).map (renameNode aliases)
  untouched : ∀ j, (∀ i ∈ g.nodes, renameNode aliases i = j → i = j) → renameNode aliases j = j →
    g'.nodes.lookup j = g.nodes.lookup j

/-- Merging renames and loses nothing. -/
def LosesNothing (g : TopologyGraph) : Prop := Renames g g.mergeAddressIdentities.1 g.mergeAddressIdentities.2

/-- Each absorbed identity has no superseded or contested address that its hardware does not have, none is a hop of
the path out, and the only self-edges are those of absorbed identities. -/
structure MergesCleanly (g : TopologyGraph) : Prop where
  setAside : ∀ key owner n m, g.Absorbed key owner → g.nodes.lookup (.device key) = some n →
    g.nodes.lookup (.device owner) = some m →
      n.supersededAddresses ⊆ m.supersededAddresses ∧ n.contestedAddresses ⊆ m.contestedAddresses
  hops : ∀ d key owner, g.egressPath.lookup d = some (.device key) → ¬g.Absorbed key owner
  selfEdges : ∀ k ∈ g.edges, k.source = k.target → ∃ key owner, k.source = .device key ∧ g.Absorbed key owner

namespace TopologyGraph

variable {g : TopologyGraph}

/-- What folding splits is gathered. -/
theorem gathers_of_join {α : Type} {data : Node → Set α} (h : ∀ t s, data (foldNode t s) = data t ∪ data s) :
    Gathers g g.mergeAddressIdentities.1 (renameNode g.merges) data := by
  intro j n' hn' x
  have hjoin : ∀ t s, x ∈ data (foldNode t s) ↔ x ∈ data t ∨ x ∈ data s := by
    intro t s
    rw [h]
    exact Iff.rfl
  have hiff := exists_node_merge (g := g) (Φ := fun n => x ∈ data n) hjoin (j := j)
  rw [← hiff, hn']
  simp

/-- What folding leaves with the survivor is gathered exactly when the absorbed nodes have nothing to add. -/
theorem gathers_iff_of_stays {α : Type} (data : Node → Set α) (h : ∀ t s, data (foldNode t s) = data t) :
    Gathers g g.mergeAddressIdentities.1 (renameNode g.merges) data ↔
      ∀ key owner n m, g.Absorbed key owner → g.nodes.lookup (.device key) = some n →
        g.nodes.lookup (.device owner) = some m → data n ⊆ data m := by
  have hstays : ∀ j, j ∉ g.absorbedIds → j ∈ g.nodes → ∀ x,
      ((∃ n, g.mergeAddressIdentities.1.nodes.lookup j = some n ∧ x ∈ data n) ↔
        ∃ n, g.nodes.lookup j = some n ∧ x ∈ data n) := by
    intro j hj hmem x
    exact exists_node_merge_of_stays (by intro t s; rw [h]) hj hmem
  constructor
  · intro hg key owner n m ha hn hm x hx
    have hna : NodeId.device owner ∉ g.absorbedIds := mac_not_absorbed (isMac_of_mergeTarget ha.2.1).2
    obtain ⟨m', hm'⟩ := Map.mem_iff_lookup.mp (mem_nodes_merge.mpr ⟨ha.2.2, hna⟩)
    have hx' : x ∈ data m' := (hg _ m' hm' x).mpr ⟨.device key, n, renameNode_absorbed ha, hn, hx⟩
    obtain ⟨m₀, hm₀, hx₀⟩ := (hstays _ hna ha.2.2 x).mp ⟨m', hm', hx'⟩
    rw [hm] at hm₀
    cases hm₀
    exact hx₀
  · intro hsub j n' hn' x
    obtain ⟨hmem, hna⟩ := mem_nodes_merge.mp (Map.mem_of_lookup hn')
    have hx := hstays j hna hmem x
    rw [hn'] at hx
    simp only [Option.some.injEq, exists_eq_left'] at hx
    rw [hx]
    constructor
    · rintro ⟨n, hn, hx⟩
      exact ⟨j, n, renameNode_of_not_absorbed hna, hn, hx⟩
    · rintro ⟨i, n, hr, hn, hxn⟩
      by_cases hi : i ∈ g.absorbedIds
      · obtain ⟨key, owner, rfl, ha⟩ := mem_absorbedIds.mp hi
        rw [renameNode_absorbed ha] at hr
        subst hr
        obtain ⟨m, hm⟩ := Map.mem_iff_lookup.mp ha.2.2
        exact ⟨m, hm, hsub key owner n m ha hn hm hxn⟩
      · rw [renameNode_of_not_absorbed hi] at hr
        subst hr
        exact ⟨n, hn, hxn⟩

theorem nodes_merge (j : NodeId) :
    j ∈ g.mergeAddressIdentities.1.nodes ↔ ∃ i ∈ g.nodes, renameNode g.merges i = j := by
  rw [mem_nodes_merge]
  constructor
  · rintro ⟨hj, hna⟩
    exact ⟨j, hj, renameNode_of_not_absorbed hna⟩
  · rintro ⟨i, hi, rfl⟩
    refine ⟨?_, g.renameNode_not_absorbed i⟩
    by_cases hia : i ∈ g.absorbedIds
    · obtain ⟨key, owner, rfl, ha⟩ := mem_absorbedIds.mp hia
      rw [renameNode_absorbed ha]
      exact ha.2.2
    · rwa [renameNode_of_not_absorbed hia]

theorem mem_edges_merge (h : EdgesKeyed g.edges) (k : EdgeKey) :
    k ∈ g.mergeAddressIdentities.1.edges ↔
      ∃ i ∈ g.edges, i.rename g.merges = k ∧ (i = k ∨ k.source ≠ k.target) := by
  have hiff := exists_edge_merge (Φ := fun _ => True) (by simp) (by simp) h (j := k)
  simp only [and_true] at hiff
  rw [Map.mem_iff_lookup, hiff]
  constructor
  · rintro ⟨i, e, hr, hs, he⟩
    exact ⟨i, Map.mem_of_lookup he, hr, hs⟩
  · rintro ⟨i, hi, hr, hs⟩
    obtain ⟨e, he⟩ := Map.mem_iff_lookup.mp hi
    exact ⟨i, e, hr, hs, he⟩

/-- The edges are the images of the edges without self-edges exactly when every self-edge is touched. -/
theorem edges_merge_iff (h : EdgesKeyed g.edges) :
    (∀ k, k ∈ g.mergeAddressIdentities.1.edges ↔ k.source ≠ k.target ∧ ∃ i ∈ g.edges, i.rename g.merges = k) ↔
      ∀ k ∈ g.edges, k.source = k.target → ∃ key owner, k.source = .device key ∧ g.Absorbed key owner := by
  constructor
  · intro hedges k hk hself
    by_contra hno
    have hna : k.source ∉ g.absorbedIds := fun hm => hno (mem_absorbedIds.mp hm)
    have hfix : k.rename g.merges = k := by
      unfold EdgeKey.rename
      rw [← hself, renameNode_of_not_absorbed hna]
      cases k
      simp only at hself
      rw [hself]
    exact ((hedges k).mp ((mem_edges_merge h k).mpr ⟨k, hk, hfix, .inl rfl⟩)).1 hself
  · intro hclean k
    rw [mem_edges_merge h]
    constructor
    · rintro ⟨i, hi, hr, rfl | hs⟩
      · refine ⟨fun hself => ?_, i, hi, hr⟩
        obtain ⟨key, owner, hsrc, ha⟩ := hclean i hi hself
        have hfix : renameNode g.merges i.source = i.source := congrArg EdgeKey.source hr
        exact renameNode_eq_self.mp hfix (mem_absorbedIds.mpr ⟨key, owner, hsrc, ha⟩)
      · exact ⟨hs, i, hi, hr⟩
    · rintro ⟨hs, i, hi, hr⟩
      exact ⟨i, hi, hr, .inr hs⟩

theorem edgeProvenance_merge (h : EdgesKeyed g.edges) {k : EdgeKey} {e' : Edge}
    (he' : g.mergeAddressIdentities.1.edges.lookup k = some e') (p : Provenance) :
    p ∈ e'.provenance ↔
      ∃ i e, i.rename g.merges = k ∧ (i = k ∨ k.source ≠ k.target) ∧ g.edges.lookup i = some e ∧
      p ∈ e.provenance := by
  have hiff := exists_edge_merge (g := g) (Φ := fun e => p ∈ e.provenance)
    (by intro t e; simp [Edge.join]) (fun _ _ _ => Iff.rfl) h (j := k)
  rw [← hiff, he']
  simp

theorem mergeAddressIdentities_aliases : g.mergeAddressIdentities.2 = g.merges := by rw [mergeAddressIdentities_eq]

theorem egressPath_merge : g.mergeAddressIdentities.1.egressPath = g.egressPath :=
  mergeAddressIdentities_frame (·.egressPath) (fun _ _ _ _ => rfl)

theorem egressPath_merge_iff :
    (∀ d, g.mergeAddressIdentities.1.egressPath.lookup d = (g.egressPath.lookup d).map (renameNode g.merges)) ↔
      ∀ d key owner, g.egressPath.lookup d = some (.device key) → ¬g.Absorbed key owner := by
  rw [egressPath_merge]
  constructor
  · intro h d key owner hd ha
    have hfix := h d
    rw [hd, Option.map_some, renameNode_absorbed ha] at hfix
    obtain ⟨hk, ho⟩ := isMac_of_mergeTarget ha.2.1
    rw [NodeId.device.inj (Option.some.inj hfix), ho] at hk
    cases hk
  · intro h d
    cases hd : g.egressPath.lookup d with
    | none => rfl
    | some id =>
      rw [Option.map_some, renameNode_of_not_absorbed]
      rw [mem_absorbedIds]
      rintro ⟨key, owner, rfl, ha⟩
      exact h d key owner hd ha

end TopologyGraph

section Fields

variable (t s : Node)

theorem foldNode_superseded : (foldNode t s).supersededAddresses = t.supersededAddresses := by rw [foldNode_eq]

theorem foldNode_contested : (foldNode t s).contestedAddresses = t.contestedAddresses := by rw [foldNode_eq]

end Fields

open TopologyGraph in
/-- **Exactly when a merge loses nothing.** -/
theorem losesNothing_iff (ops : List GraphOp) : LosesNothing (build ops) ↔ MergesCleanly (build ops) := by
  have hkeyed := edgesKeyed_build ops
  generalize build ops = g at hkeyed
  have hset := gathers_iff_of_stays (g := g) (fun n => {a | a ∈ n.supersededAddresses})
    (by intro t s; simp only [foldNode_superseded])
  have hcon := gathers_iff_of_stays (g := g) (fun n => {a | a ∈ n.contestedAddresses})
    (by intro t s; simp only [foldNode_contested])
  unfold LosesNothing
  rw [mergeAddressIdentities_aliases]
  constructor
  · intro h
    refine ⟨fun key owner n m ha hn hm => ?_, egressPath_merge_iff.mp h.egressPath,
      (edges_merge_iff hkeyed).mp h.edges⟩
    exact ⟨hset.mp h.superseded key owner n m ha hn hm, hcon.mp h.contested key owner n m ha hn hm⟩
  · intro h
    have hedges := (edges_merge_iff hkeyed).mpr h.selfEdges
    refine
      { nodes := nodes_merge
        addresses := gathers_of_join (by intro t s; ext a; simp [foldNode_eq])
        marked := gathers_of_join (by intro t s; ext a; rw [foldNode_eq]; exact mem_keys_noteMarks)
        locallyMarked := gathers_of_join (by
          intro t s
          ext a
          simpa [mem_locallyObservedAddresses, foldNode_eq] using mem_noteMarks_false)
        superseded := hset.mpr fun key owner n m ha hn hm => (h.setAside key owner n m ha hn hm).1
        contested := hcon.mpr fun key owner n m ha hn hm => (h.setAside key owner n m ha hn hm).2
        hostnames := gathers_of_join (by intro t s; ext a; simp [foldNode_eq])
        roleSignals := gathers_of_join (by intro t s; ext a; simp [foldNode_eq])
        provenance := gathers_of_join (by intro t s; ext a; simp [foldNode_eq])
        edges := hedges
        edgeProvenance := ?_
        egressPath := egressPath_merge_iff.mpr h.hops
        untouched := ?_ }
    · intro k e' he' p
      have hs : k.source ≠ k.target := ((hedges k).mp (Map.mem_of_lookup he')).1
      rw [edgeProvenance_merge hkeyed he' p]
      simp [hs]
    · intro j hone hfix
      refine lookup_node_of_untouched (renameNode_eq_self.mp hfix) fun i hi hr => ?_
      obtain ⟨key, owner, rfl, ha⟩ := mem_absorbedIds.mp hi
      have hij := hone _ ha.1 hr
      subst hij
      exact renameNode_eq_self.mp hr hi

/-- A router that answered a probe is a hop of the path; once its hardware is known, the merge takes the hop's node
away and leaves the path naming it. -/
theorem merge_loses_hop : ¬∀ ops, LosesNothing (build ops) := by
  intro h
  let ops : List GraphOp :=
    [.absorb
      { fact := .forwardsToward (.address (ip 10 0 0 1)) (ip 8 8 8 8) 1 none
        source := .icmpProbe, confidence := .observed, vantage := "eth0" },
      .absorb (sighting hwA (ip 10 0 0 1) .arpProbe none)]
  have hpath := (h ops).egressPath
  rw [TopologyGraph.mergeAddressIdentities_aliases] at hpath
  exact TopologyGraph.egressPath_merge_iff.mp hpath 1 (.address (ip 10 0 0 1)) hwA (by decide)
    (by decide)

end Idnx
