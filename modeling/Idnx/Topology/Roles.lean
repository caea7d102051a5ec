import Idnx.Topology.Merge

/-!
# What the roles come to

`finalizeRoles` merges once more, gives every node the kind its signals score, and marks the boundaries:
`lookup_finalizeRoles` says which kind a node ends up with. A capability that is established stays established under
more signals, and a device that one signal alone carries over the threshold of routing is a router or a layer-3
switch.
-/

namespace Idnx

namespace TopologyGraph

variable {g : TopologyGraph} {id : NodeId}

/-- Each node takes the kind its own signals score. -/
theorem lookup_rekind_scores (weights : Map NodeId (Finset RoleSignal)) :
    (g.rekind (weights.entries.map fun e => (e.1, roleKind (scoreRole e.2)))).nodes.lookup id =
      (g.nodes.lookup id).map fun n => { n with kind := roleKind (scoreRole ((weights.lookup id).getD ∅)) n.kind } := by
  obtain ⟨es, hes⟩ := weights
  show (g.rekind (es.map fun e => (e.1, roleKind (scoreRole e.2)))).nodes.lookup id =
    (g.nodes.lookup id).map fun n => { n with kind := roleKind (scoreRole ((es.dlookup id).getD ∅)) n.kind }
  induction es generalizing g with
  | nil => simp [rekind, scoreRole, roleKind]
  | cons e es ih =>
    obtain ⟨j, signals⟩ := e
    obtain ⟨hj, hes⟩ := List.nodupKeys_cons.mp hes
    rw [List.map_cons]
    refine (ih (g := g.modifyNode j fun n => { n with kind := roleKind (scoreRole signals) n.kind }) hes).trans ?_
    rw [lookup_modifyNode]
    by_cases hid : id = j
    · subst hid
      rw [if_pos rfl, List.dlookup_eq_none.mpr hj, List.dlookup_cons_eq, Option.map_map]
      rfl
    · rw [if_neg hid, List.dlookup_cons_ne _ _ hid]

/-- Each node of the list becomes a boundary. -/
theorem lookup_rekind_boundaries (ids : List NodeId) :
    (g.rekind (ids.map fun i => (i, fun _ => .opaqueBoundary))).nodes.lookup id =
      (g.nodes.lookup id).map fun n => { n with kind := if id ∈ ids then .opaqueBoundary else n.kind } := by
  induction ids generalizing g with
  | nil => simp [rekind]
  | cons i ids ih =>
    rw [List.map_cons]
    refine (ih (g := g.modifyNode i fun n => { n with kind := .opaqueBoundary })).trans ?_
    rw [lookup_modifyNode]
    by_cases hid : id = i
    · subst hid
      simp [Option.map_map, Function.comp_def]
    · simp [hid]

/-- **The kinds that `finalizeRoles` gives** after its merge: a boundary if the node says so, else what its signals
score. -/
theorem lookup_finalizeRoles (hkeyed : ∀ id n, g.mergeAddressIdentities.1.nodes.lookup id = some n → n.id = id) :
    g.finalizeRoles.nodes.lookup id = (g.mergeAddressIdentities.1.nodes.lookup id).map fun n =>
      { n with
        kind := if n.opaqueReason.isSome then .opaqueBoundary
          else roleKind (scoreRole ((g.mergeAddressIdentities.1.roleWeights.lookup id).getD ∅)) n.kind } := by
  unfold finalizeRoles
  generalize g.mergeAddressIdentities.1 = g₁ at hkeyed
  set g₂ := g₁.rekind (g₁.roleWeights.entries.map fun e => (e.1, roleKind (scoreRole e.2))) with hg₂
  have hscored : ∀ id, g₂.nodes.lookup id = (g₁.nodes.lookup id).map fun n =>
      { n with kind := roleKind (scoreRole ((g₁.roleWeights.lookup id).getD ∅)) n.kind } :=
    fun id => lookup_rekind_scores g₁.roleWeights
  have hids : ((g₂.nodes.entries.filter fun e => e.2.opaqueReason.isSome).map fun e =>
      (e.2.id, fun _ : NodeKind => NodeKind.opaqueBoundary)) =
        ((g₂.nodes.entries.filter fun e => e.2.opaqueReason.isSome).map fun e => e.2.id).map
          fun i => (i, fun _ => .opaqueBoundary) := by
    rw [List.map_map]
    rfl
  dsimp only
  rw [hids, lookup_rekind_boundaries, hscored]
  cases hn : g₁.nodes.lookup id with
  | none => rfl
  | some n =>
    have hmem : (id ∈ (g₂.nodes.entries.filter fun e => e.2.opaqueReason.isSome).map fun e => e.2.id) ↔
        n.opaqueReason.isSome = true := by
      simp only [List.mem_map, List.mem_filter]
      constructor
      · rintro ⟨⟨j, m⟩, ⟨hm, ho⟩, rfl⟩
        have hj := AList.mem_lookup_iff.mpr hm
        rw [hscored] at hj
        obtain ⟨m₀, hm₀, rfl⟩ := Option.map_eq_some_iff.mp hj
        change g₁.nodes.lookup m₀.id = some n at hn
        rw [hkeyed j m₀ hm₀, hm₀] at hn
        cases hn
        exact ho
      · intro ho
        have hj : g₂.nodes.lookup id = some { n with
            kind := roleKind (scoreRole ((g₁.roleWeights.lookup id).getD ∅)) n.kind } := by
          rw [hscored, hn]
          rfl
        exact ⟨⟨id, _⟩, ⟨AList.mem_lookup_iff.mp hj, ho⟩, hkeyed id n hn⟩
    simp only [Option.map_some, hmem]

/-- A routing signal that weighs enough, alone or with others, makes a router or a layer-3 switch of every device that
is not a boundary. -/
theorem kind_finalizeRoles (hkeyed : ∀ id n, g.mergeAddressIdentities.1.nodes.lookup id = some n → n.id = id)
    {n : Node} {signals : Finset RoleSignal} (hn : g.finalizeRoles.nodes.lookup id = some n)
    (hsignals : g.finalizeRoles.roleWeights.lookup id = some signals)
    (hroutes : Established RoleSignal.routes signals) (hreason : n.opaqueReason = none) :
    n.kind = .router ∨ n.kind = .layer3Switch := by
  rw [finalizeRoles_frame (fun g => g.roleWeights) (fun _ _ => rfl)] at hsignals
  rw [lookup_finalizeRoles hkeyed, hsignals] at hn
  obtain ⟨n₀, -, rfl⟩ := Option.map_eq_some_iff.mp hn
  have hrole := scoreRole_iff.1.mpr hroutes
  have hnone : n₀.opaqueReason = none := hreason
  simp only [hnone, Option.isSome_none, Bool.false_eq_true, if_false, Option.getD_some]
  cases hscore : scoreRole signals with
  | router => exact .inl rfl
  | layer3Switch => exact .inr rfl
  | switch => rw [hscore] at hrole; cases hrole
  | host => rw [hscore] at hrole; cases hrole

end TopologyGraph

/-- **Scoring is monotone and honours routing behaviour.** Further signals take no capability away; and over every run
a device with a routing signal is a router or a layer-3 switch unless it is a boundary, where being a hop on a path
needs other signals beside it. -/
theorem role_scoring (ops : List GraphOp) :
    (∀ (signals : Finset RoleSignal) (s : RoleSignal),
      ((scoreRole signals).routes = true → (scoreRole (insert s signals)).routes = true) ∧
      ((scoreRole signals).bridges = true → (scoreRole (insert s signals)).bridges = true)) ∧
    ∀ id n signals, (build ops).finalizeRoles.nodes.lookup id = some n →
      (build ops).finalizeRoles.roleWeights.lookup id = some signals →
      (∃ s ∈ signals, s.routes = true ∧ (s = .observedForwarding → infrastructureThreshold ≤ ∑ s ∈ signals,
      s.weight)) → n.opaqueReason = none → n.kind = .router ∨ n.kind = .layer3Switch := by
  constructor
  · intro signals s
    exact ⟨routes_scoreRole_mono (Finset.subset_insert s signals),
      bridges_scoreRole_mono (Finset.subset_insert s signals)⟩
  · intro id n signals hn hsignals ⟨s, hs, hroutes, hforwarding⟩ hreason
    have hkeyed : ∀ id n, (build ops).mergeAddressIdentities.1.nodes.lookup id = some n → n.id = id := by
      have h := nodesKeyed_build (ops ++ [GraphOp.merge])
      rwa [build_concat] at h
    refine TopologyGraph.kind_finalizeRoles hkeyed hn hsignals ⟨?_, s, hs, hroutes⟩ hreason
    by_cases hhop : s = .observedForwarding
    · exact hforwarding hhop
    · exact (weight_of_routes hroutes hhop).trans (Finset.single_le_sum (fun _ _ => Nat.zero_le _) hs)

/-- A device known as the default gateway. -/
def gatewayRecord : List GraphOp :=
  [.absorb { fact := .deviceRoleSignal (.mac "gw") .defaultGateway, source := .kernelRoute, confidence := .observed,
             vantage := "eth0", observedAt := 0 }]

theorem role_scoring_gateway : ∃ n, (build gatewayRecord).finalizeRoles.nodes.lookup (.device (.mac "gw")) = some n ∧
    (n.kind = .router ∨ n.kind = .layer3Switch) := by
  obtain ⟨n, hn, hreason⟩ : ∃ n, (build gatewayRecord).finalizeRoles.nodes.lookup (.device (.mac "gw")) = some n ∧
      n.opaqueReason = none := by
    refine ⟨_, rfl, by decide⟩
  have hsignals : (build gatewayRecord).finalizeRoles.roleWeights.lookup
    (.device (.mac "gw")) = some {.defaultGateway} := by
    decide
  exact ⟨n, hn, (role_scoring gatewayRecord).2 _ n _ hn hsignals ⟨.defaultGateway, by decide, rfl, nofun⟩ hreason⟩

/-- A hop on a path, and a router heard only by its advertisements. -/
def hopAndSpeaker : List GraphOp :=
  [.absorb { fact := .deviceRoleSignal (.mac "hop") .observedForwarding, source := .icmpProbe, confidence := .observed,
             vantage := "eth0", observedAt := 0 },
   .absorb { fact := .deviceRoleSignal (.mac "speaker") .ripRouteAdvertisement, source := .rip, confidence := .observed,
             vantage := "eth0", observedAt := 0 }]

/-- Neither is called a router. -/
theorem hop_and_speaker_stay_hosts :
    let g := (build hopAndSpeaker).finalizeRoles
    (g.roleWeights.lookup (.device (.mac "hop")) = some {.observedForwarding} ∧
      (g.nodes.lookup (.device (.mac "hop"))).map (fun n => (n.kind, n.opaqueReason)) = some (.host, none)) ∧
    (g.roleWeights.lookup (.device (.mac "speaker")) = some {.ripRouteAdvertisement} ∧
      (g.nodes.lookup (.device (.mac "speaker"))).map (fun n => (n.kind, n.opaqueReason)) = some (.host, none)) := by
  decide

end Idnx
