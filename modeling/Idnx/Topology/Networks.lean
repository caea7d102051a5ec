import Idnx.Lib.Dedup
import Idnx.Topology.Marks

/-!
# Networks and VLANs

Two views of the graph that are kept rather than derived: which networks there are, and which VLANs have no prefix
yet.

* A bare sighting of a VLAN lists it, a join of the VLAN with a prefix takes it off the list, whatever the other did
  before. `vlansClassified_iff`: the list agrees with the edges exactly when the last word about every joined VLAN is
  a join.
* Every arm but one asks `isTopologyNetwork` before it adds a network, and none of them drops host bits.
  `properNetworks_iff` says which records spoil the networks of the graph.
-/

namespace Idnx

namespace TopologyGraph

variable (g : TopologyGraph)

/-- The nodes, in the order of the map. -/
def nodeList : List Node := g.nodes.sortedKeys.filterMap fun id => g.nodes.lookup id

/-- Every network of the graph. -/
def networks : List IpNet :=
  g.nodes.sortedKeys.filterMap fun
    | .network net _ => some net
    | _ => none

/-- Networks this machine observed itself, which are the only ones it can traverse. -/
def localNetworks : List IpNet :=
  ((g.nodeList.filterMap fun n =>
    match n.id with
    | .network net _ => if n.locallyObserved then some net else none
    | _ => none).insertionSort fun a b => (compare a.toText b.toText).isLE).destutter (· ≠ ·)

/-- Every VLAN whose prefix one observation actually stated, with that observation. -/
def vlanNetworks : List (VlanRef × IpNet × List Provenance) :=
  ((g.edges.sortedKeys.filterMap fun k => g.edges.lookup k).filterMap fun edge =>
    if edge.relationship = .carriesNetwork then
      match edge.source, edge.target with
      | .vlan id realm, .network net _ => some (⟨id, realm⟩, net, edge.provenance)
      | _, _ => none
    else none).insertionSort fun a b =>
      ((compare a.1.id b.1.id).then (compare a.2.1.toText b.2.1.toText)).isLE

end TopologyGraph

/-! ## What a record says about VLANs and networks -/

namespace TopologyEvidence

variable (ev : TopologyEvidence)

/-- The record is a bare sighting of the VLAN. -/
def Sights (vlan : VlanRef) : Prop := ev.fact = .vlan vlan.id ∧ scopedRealm (Realm.of ev.origin) = vlan.realm

/-- The record joins the VLAN to a prefix. -/
def Joins (vlan : VlanRef) : Prop :=
  ∃ net, ev.fact = .vlanNetwork vlan.id net ∧ scopedRealm (Realm.of ev.origin) = vlan.realm

instance (vlan : VlanRef) : Decidable (ev.Sights vlan) := inferInstanceAs (Decidable (_ ∧ _))

/-- The record adds the network to the graph. -/
def Adds (net : IpNet) : Prop :=
  match ev.fact with
  | .network n => n = net ∧ isTopologyNetwork net = true
  | .interfaceNetwork _ n => n = net ∧ isTopologyNetwork net = true
  | .gatewayFor _ n => n = net ∧ isTopologyNetwork net = true
  | .routesTo _ n _ => n = net ∧ isTopologyNetwork net = true
  | .attachedTo _ n => n = net ∧ isTopologyNetwork net = true
  | .vlanNetwork _ n => n = net
  | _ => False

end TopologyEvidence

section Record

variable {g : TopologyGraph} {ev : TopologyEvidence}

theorem qualifyFact_vlan {fact : Fact} {realm : Realm} {id : UInt16} :
    qualifyFact fact realm = .vlan id ↔ fact = .vlan id := by
  unfold qualifyFact
  split_ifs
  · rfl
  · cases fact <;> simp

theorem qualifyFact_vlanNetwork {fact : Fact} {realm : Realm} {id : UInt16} {net : IpNet} :
    qualifyFact fact realm = .vlanNetwork id net ↔ fact = .vlanNetwork id net := by
  unfold qualifyFact
  split_ifs
  · rfl
  · cases fact <;> simp

/-- Qualification changes devices, and so nothing of what a fact adds besides devices. -/
theorem places_qualifyFact (fact : Fact) (realm realm' : Realm) :
    (qualifyFact fact realm).places realm' = fact.places realm' := by
  unfold qualifyFact
  split_ifs
  · rfl
  · cases fact <;> rfl

/-- The nodes other than devices that a record adds or adds to. -/
theorem upsert_mem_plan_of_ne {owner : Slot → Option DeviceKey} {id : NodeId} (hid : ∀ key, id ≠ .device key) :
    (∃ kind, Command.upsert id kind ∈ plan owner ev) ↔ ∃ kind, (id, kind) ∈ ev.fact.places (Realm.of ev.origin) := by
  constructor
  · rintro ⟨kind, hc⟩
    refine ⟨kind, ?_⟩
    rw [← places_qualifyFact ev.fact (Realm.of ev.origin)]
    unfold plan at hc
    rw [mem_planFact_iff] at hc
    generalize qualifyFact ev.fact (Realm.of ev.origin) = fact at hc ⊢
    cases hc with
    | file _ => exact absurd rfl (hid _)
    | bridge _ => exact absurd rfl (hid _)
    | place hp => exact hp
    | holder _ => exact absurd rfl (hid _)
  · rintro ⟨kind, hp⟩
    refine ⟨kind, ?_⟩
    unfold plan
    rw [mem_planFact_iff]
    exact .place (by rw [places_qualifyFact]; exact hp)

/-- The nodes other than devices after a record. -/
theorem mem_nodes_absorb_of_ne {id : NodeId} (hid : ∀ key, id ≠ .device key) :
    id ∈ (g.absorb ev).nodes ↔ id ∈ g.nodes ∨ ∃ kind, (id, kind) ∈ ev.fact.places (Realm.of ev.origin) := by
  rw [mem_nodes_absorb, upsert_mem_plan_of_ne hid]

end Record

/-! ## VLANs -/

section Vlans

variable {g : TopologyGraph} {ev : TopologyEvidence} {vlan : VlanRef}

theorem not_joins_of_sights (h : ev.Sights vlan) : ¬ev.Joins vlan := by
  rintro ⟨net, hf, -⟩
  rw [h.1] at hf
  cases hf

/-- What a record does to the list of VLANs without a prefix. -/
theorem mem_vlansWithoutPrefix_absorb :
    vlan ∈ (g.absorb ev).vlansWithoutPrefix ↔ ev.Sights vlan ∨ (vlan ∈ g.vlansWithoutPrefix ∧ ¬ev.Joins vlan) := by
  obtain ⟨id, realm⟩ := vlan
  by_cases hs : ∃ i, ev.fact = .vlan i
  · obtain ⟨i, hs⟩ := hs
    have habs : (g.absorb ev).vlansWithoutPrefix =
        insert ⟨i, scopedRealm (Realm.of ev.origin)⟩ g.vlansWithoutPrefix := by
      unfold TopologyGraph.absorb
      rw [qualifyFact_vlan.mpr hs]
      rfl
    rw [habs, Finset.mem_insert]
    simp [TopologyEvidence.Sights, TopologyEvidence.Joins, hs, VlanRef.mk.injEq, eq_comm]
  by_cases hj : ∃ i net, ev.fact = .vlanNetwork i net
  · obtain ⟨i, net, hj⟩ := hj
    have habs : (g.absorb ev).vlansWithoutPrefix =
        g.vlansWithoutPrefix.erase ⟨i, scopedRealm (Realm.of ev.origin)⟩ := by
      unfold TopologyGraph.absorb
      rw [qualifyFact_vlanNetwork.mpr hj]
      rfl
    rw [habs, Finset.mem_erase]
    simp [TopologyEvidence.Sights, TopologyEvidence.Joins, hj, VlanRef.mk.injEq, eq_comm, and_comm]
  -- no other fact touches the list
  have habs : (g.absorb ev).vlansWithoutPrefix = g.vlansWithoutPrefix := by
    rw [absorb_eq_plan]
    refine foldl_exec_frame (·.vlansWithoutPrefix) (fun c hc g' => ?_) g
    unfold plan at hc
    rw [mem_planFact_iff] at hc
    generalize hq : qualifyFact ev.fact (Realm.of ev.origin) = fact at hc
    cases hc with
    | vlanSeen => exact absurd ⟨_, qualifyFact_vlan.mp hq⟩ hs
    | vlanBound => exact absurd ⟨_, _, qualifyFact_vlanNetwork.mp hq⟩ hj
    | claim => exact settleClaim_vlansWithoutPrefix
    | _ => rfl
  have hns : ¬ev.Sights ⟨id, realm⟩ := fun h => hs ⟨_, h.1⟩
  have hnj : ¬ev.Joins ⟨id, realm⟩ := fun ⟨net, h, _⟩ => hj ⟨_, net, h⟩
  rw [habs]
  simp [hns, hnj]

theorem mem_places_vlan : (∃ kind, (.vlan vlan.id vlan.realm, kind) ∈ ev.fact.places (Realm.of ev.origin)) ↔
    ev.Sights vlan ∨ ev.Joins vlan := by
  obtain ⟨id, realm⟩ := vlan
  unfold TopologyEvidence.Sights TopologyEvidence.Joins
  cases ev.fact with
  | vlan i =>
    constructor
    · rintro ⟨kind, hp⟩
      simp only [Fact.places, List.mem_singleton, Prod.mk.injEq, NodeId.vlan.injEq] at hp
      obtain ⟨⟨rfl, rfl⟩, -⟩ := hp
      exact .inl ⟨rfl, rfl⟩
    · rintro (⟨hf, rfl⟩ | ⟨net, hf, -⟩)
      · cases hf
        exact ⟨.vlan, by simp [Fact.places]⟩
      · cases hf
  | vlanNetwork i net =>
    constructor
    · rintro ⟨kind, hp⟩
      simp only [Fact.places, List.mem_cons, List.not_mem_nil, or_false, Prod.mk.injEq, NodeId.vlan.injEq,
        reduceCtorEq, false_and] at hp
      obtain ⟨⟨rfl, rfl⟩, -⟩ := hp
      exact .inr ⟨net, rfl, rfl⟩
    · rintro (⟨hf, -⟩ | ⟨net', hf, rfl⟩)
      · cases hf
      · cases hf
        exact ⟨.vlan, by simp [Fact.places]⟩
  | _ => simp [Fact.places]

/-- The VLAN carries some network, by the edges of the graph. -/
def TopologyGraph.Carries (g : TopologyGraph) (vlan : VlanRef) : Prop :=
  ∃ k ∈ g.edges, k.source = .vlan vlan.id vlan.realm ∧ k.relationship = .carriesNetwork

theorem carries_absorb : (g.absorb ev).Carries vlan ↔ g.Carries vlan ∨ ev.Joins vlan := by
  have hplan : (∃ k : EdgeKey, (∃ prov, Command.link k.source k.target k.relationship prov ∈
      plan (g.addressOwner.lookup ·) ev) ∧ k.source = .vlan vlan.id vlan.realm ∧ k.relationship = .carriesNetwork) ↔
      ev.Joins vlan := by
    unfold plan
    simp only [mem_planFact_iff]
    constructor
    · rintro ⟨⟨a, b, rel⟩, ⟨prov, h⟩, hsrc, hrel⟩
      dsimp only at h hsrc hrel
      generalize hq : qualifyFact ev.fact (Realm.of ev.origin) = fact at h
      cases h with
      | carry =>
        obtain ⟨hid, hrealm⟩ := NodeId.vlan.inj hsrc
        exact ⟨_, by rw [← hid]; exact qualifyFact_vlanNetwork.mp hq, hrealm⟩
      | _ => cases hsrc
    · rintro ⟨net, hf, hr⟩
      refine ⟨⟨.vlan vlan.id vlan.realm, .network net (networkRealm net (Realm.of ev.origin)), .carriesNetwork⟩,
        ⟨.fromEvidence ev, ?_⟩, rfl, rfl⟩
      rw [qualifyFact_vlanNetwork.mpr hf, ← hr]
      exact .carry
  unfold TopologyGraph.Carries
  rw [absorb_eq_plan, ← hplan]
  simp only [mem_edges_foldl]
  constructor
  · rintro ⟨k, hk | hk, h⟩
    · exact .inl ⟨k, hk, h⟩
    · exact .inr ⟨k, hk, h⟩
  · rintro (⟨k, hk, h⟩ | ⟨k, hk, h⟩)
    · exact ⟨k, .inl hk, h⟩
    · exact ⟨k, .inr hk, h⟩

/-- **The list after a run**: the VLANs with a sighting that no join followed. -/
theorem mem_vlansWithoutPrefix_absorbAll (L : List TopologyEvidence) :
    vlan ∈ (absorbAll L).vlansWithoutPrefix ↔
      ∃ before ev after, L = before ++ ev :: after ∧ ev.Sights vlan ∧ ∀ e ∈ after, ¬e.Joins vlan := by
  induction L using List.reverseRecOn with
  | nil => simp [absorbAll, run, TopologyGraph.new]
  | append_singleton L last ih =>
    have hrun : absorbAll (L ++ [last]) = (absorbAll L).absorb last := run_concat _ _ _ _
    rw [hrun, mem_vlansWithoutPrefix_absorb, ih]
    constructor
    · rintro (hs | ⟨⟨before, ev, after, rfl, hs, hafter⟩, hj⟩)
      · exact ⟨L, last, [], rfl, hs, by simp⟩
      · refine ⟨before, ev, after ++ [last], by simp, hs, fun e he => ?_⟩
        rcases List.mem_append.mp he with he | he
        · exact hafter e he
        · rw [List.mem_singleton.mp he]
          exact hj
    · rintro ⟨before, ev, after, hL, hs, hafter⟩
      rcases List.eq_nil_or_concat after with rfl | ⟨after, e, rfl⟩
      · obtain ⟨-, he⟩ := List.append_inj' hL rfl
        cases he
        exact .inl hs
      · rw [List.concat_eq_append] at hL hafter
        rw [← List.cons_append, ← List.append_assoc] at hL
        obtain ⟨rfl, he⟩ := List.append_inj' hL rfl
        cases he
        refine .inr ⟨⟨before, ev, after, rfl, hs, fun e he => hafter e (by simp [he])⟩, hafter _ (by simp)⟩

theorem mem_nodes_vlan_absorbAll (L : List TopologyEvidence) :
    .vlan vlan.id vlan.realm ∈ (absorbAll L).nodes ↔ ∃ ev ∈ L, ev.Sights vlan ∨ ev.Joins vlan := by
  induction L using List.reverseRecOn with
  | nil => simp [absorbAll, run, TopologyGraph.new]
  | append_singleton L last ih =>
    have hrun : absorbAll (L ++ [last]) = (absorbAll L).absorb last := run_concat _ _ _ _
    rw [hrun, mem_nodes_absorb_of_ne (by simp), ih, mem_places_vlan]
    simp [or_and_right, exists_or]

theorem carries_absorbAll (L : List TopologyEvidence) : (absorbAll L).Carries vlan ↔ ∃ ev ∈ L, ev.Joins vlan := by
  induction L using List.reverseRecOn with
  | nil => simp [absorbAll, run, TopologyGraph.new, TopologyGraph.Carries]
  | append_singleton L last ih =>
    have hrun : absorbAll (L ++ [last]) = (absorbAll L).absorb last := run_concat _ _ _ _
    rw [hrun, carries_absorb, ih]
    simp [or_and_right, exists_or]

/-- An entry of `vlanNetworks` is an edge. -/
theorem carries_of_mem_vlanNetworks (hkeyed : EdgesKeyed g.edges) {entry : VlanRef × IpNet × List Provenance}
    (h : entry ∈ g.vlanNetworks) : g.Carries entry.1 := by
  unfold TopologyGraph.vlanNetworks at h
  rw [List.mem_insertionSort, List.mem_filterMap] at h
  obtain ⟨edge, hedge, hentry⟩ := h
  obtain ⟨k, -, hk⟩ := List.mem_filterMap.mp hedge
  split_ifs at hentry with hrel
  have hkey : edge.key = k := hkeyed k edge hk
  split at hentry
  · rename_i id realm net _ hsrc htgt
    cases hentry
    exact ⟨k, Map.mem_of_lookup hk, by rw [← hkey]; exact hsrc, by rw [← hkey]; exact hrel⟩
  · cases hentry

end Vlans

/-- A VLAN is listed as having no prefix exactly when it is there and no edge gives it one. -/
structure VlansClassified (g : TopologyGraph) : Prop where
  listed : ∀ vlan : VlanRef, vlan ∈ g.vlansWithoutPrefix ↔ .vlan vlan.id vlan.realm ∈ g.nodes ∧ ¬g.Carries vlan
  apart : ∀ vlan ∈ g.vlansWithoutPrefix, ∀ entry ∈ g.vlanNetworks, entry.1 ≠ vlan

/-- **VLAN classification** is right after a run exactly when no sighting has the last word about a VLAN that was
joined to a prefix before it. -/
theorem vlansClassified_iff (L : List TopologyEvidence) :
    VlansClassified (absorbAll L) ↔
      ∀ vlan before ev after, L = before ++ ev :: after → ev.Sights vlan → (∃ e ∈ before, e.Joins vlan) →
        ∃ e ∈ after, e.Joins vlan := by
  constructor
  · intro h vlan before ev after hL hs hbefore
    by_contra hafter
    have hlisted : vlan ∈ (absorbAll L).vlansWithoutPrefix :=
      (mem_vlansWithoutPrefix_absorbAll L).mpr ⟨before, ev, after, hL, hs, fun e he hj => hafter ⟨e, he, hj⟩⟩
    obtain ⟨e, he, hj⟩ := hbefore
    exact ((h.listed vlan).mp hlisted).2 ((carries_absorbAll L).mpr ⟨e, by simp [hL, he], hj⟩)
  · intro h
    have hlisted : ∀ vlan : VlanRef, vlan ∈ (absorbAll L).vlansWithoutPrefix ↔
        .vlan vlan.id vlan.realm ∈ (absorbAll L).nodes ∧ ¬(absorbAll L).Carries vlan := by
      intro vlan
      rw [mem_vlansWithoutPrefix_absorbAll, mem_nodes_vlan_absorbAll, carries_absorbAll]
      constructor
      · rintro ⟨before, ev, after, hL, hs, hafter⟩
        refine ⟨⟨ev, by simp [hL], .inl hs⟩, ?_⟩
        rintro ⟨e, he, hj⟩
        rw [hL] at he
        rcases List.mem_append.mp he with he | he
        · obtain ⟨e', he', hj'⟩ := h vlan before ev after hL hs ⟨e, he, hj⟩
          exact hafter e' he' hj'
        · rcases List.mem_cons.mp he with rfl | he
          · exact not_joins_of_sights hs hj
          · exact hafter e he hj
      · rintro ⟨⟨ev, hev, hs | hj⟩, hnone⟩
        · obtain ⟨before, after, hL⟩ := List.append_of_mem hev
          exact ⟨before, ev, after, hL, hs, fun e he hj => hnone ⟨e, by simp [hL, he], hj⟩⟩
        · exact absurd ⟨ev, hev, hj⟩ hnone
    refine ⟨hlisted, fun vlan hv entry hentry he => ?_⟩
    have hkeyed : EdgesKeyed (absorbAll L).edges := by
      rw [← build_map_absorb]
      exact edgesKeyed_build _
    rw [← he] at hv
    exact ((hlisted entry.1).mp hv).2 (carries_of_mem_vlanNetworks hkeyed hentry)

/-- A tag that is seen again after a lease tied it to a prefix is listed as having none. -/
theorem joined_vlan_listed_again :
    ¬∀ L : List TopologyEvidence, VlansClassified (absorbAll L) := by
  intro h
  let joined : TopologyEvidence :=
    { fact := .vlanNetwork 10 (.v4 (.new 10 0 0 0) 24), source := .dhcpLease, confidence := .observed, vantage := "eth0" }
  let seen : TopologyEvidence :=
    { fact := .vlan 10, source := .stp, confidence := .observed, vantage := "eth0" }
  have hlisted : ⟨10, .localRealm⟩ ∈ (absorbAll [joined, seen]).vlansWithoutPrefix :=
    (mem_vlansWithoutPrefix_absorbAll _).mpr ⟨[joined], seen, [], rfl, ⟨rfl, rfl⟩, by simp⟩
  exact (((h [joined, seen]).listed _).mp hlisted).2
    ((carries_absorbAll _).mpr ⟨joined, List.mem_cons_self, _, rfl, rfl⟩)

/-! ## Networks -/

/-- The networks of the graph are real ones, and each is there once in each domain, whatever its host bits. -/
structure ProperNetworks (g : TopologyGraph) : Prop where
  topology : ∀ net realm, .network net realm ∈ g.nodes → isTopologyNetwork net = true
  once : ∀ p q realm, .network p realm ∈ g.nodes → .network q realm ∈ g.nodes → p.contains = q.contains → p = q

theorem mem_places_network {ev : TopologyEvidence} {net : IpNet} {realm : Realm} :
    (∃ kind, (.network net realm, kind) ∈ ev.fact.places (Realm.of ev.origin)) ↔
      ev.Adds net ∧ realm = networkRealm net (Realm.of ev.origin) := by
  unfold TopologyEvidence.Adds
  cases ev.fact with
  | network n | interfaceNetwork i n | gatewayFor d n | routesTo d n h | attachedTo d n =>
    by_cases hn : isTopologyNetwork n = true
    · constructor
      · rintro ⟨kind, h⟩
        simp [Fact.places, hn] at h
        obtain ⟨⟨rfl, rfl⟩, -⟩ := h
        exact ⟨⟨rfl, hn⟩, rfl⟩
      · rintro ⟨⟨rfl, -⟩, rfl⟩
        exact ⟨.network, by simp [Fact.places, hn]⟩
    · constructor
      · rintro ⟨kind, h⟩
        simp [Fact.places, hn] at h
      · rintro ⟨⟨rfl, h⟩, -⟩
        exact absurd h hn
  | vlanNetwork i n =>
    constructor
    · rintro ⟨kind, h⟩
      simp [Fact.places] at h
      obtain ⟨⟨rfl, rfl⟩, -⟩ := h
      exact ⟨rfl, rfl⟩
    · rintro ⟨rfl, rfl⟩
      exact ⟨.network, by simp [Fact.places]⟩
  | _ => simp [Fact.places]

/-- The networks this machine observed, by their nodes. -/
theorem mem_localNetworks {g : TopologyGraph} {net : IpNet}
    (hkeyed : ∀ id n, g.nodes.lookup id = some n → n.id = id) :
    net ∈ g.localNetworks ↔ ∃ realm, LocallyKnown g (.network net realm) := by
  unfold TopologyGraph.localNetworks TopologyGraph.nodeList LocallyKnown
  rw [mem_destutter_ne, List.mem_insertionSort]
  simp only [List.mem_filterMap, Map.mem_sortedKeys]
  constructor
  · rintro ⟨n, ⟨id, -, hn⟩, hnet⟩
    have hid := hkeyed id n hn
    split at hnet
    · rename_i p realm hp
      split_ifs at hnet with hl
      cases hnet
      rw [← hid, hp] at hn
      exact ⟨realm, n, hn, hl⟩
    · cases hnet
  · rintro ⟨realm, n, hn, hl⟩
    refine ⟨n, ⟨_, Map.mem_of_lookup hn, hn⟩, ?_⟩
    rw [hkeyed _ n hn]
    simp [hl]

/-- A network becomes known here by the local records that add it. -/
theorem locallyKnown_network_absorb {g : TopologyGraph} {ev : TopologyEvidence} {net : IpNet} {realm : Realm} :
    LocallyKnown (g.absorb ev) (.network net realm) ↔
      LocallyKnown g (.network net realm) ∨
        ev.origin = none ∧ ev.Adds net ∧ realm = networkRealm net (Realm.of ev.origin) := by
  rw [locallyKnown_absorb, upsert_mem_plan_of_ne (by simp), mem_places_network]


/-- **The networks after a run**: what the records add. -/
theorem mem_nodes_network_absorbAll {net : IpNet} {realm : Realm} (L : List TopologyEvidence) :
    .network net realm ∈ (absorbAll L).nodes ↔
      ∃ ev ∈ L, ev.Adds net ∧ realm = networkRealm net (Realm.of ev.origin) := by
  induction L using List.reverseRecOn with
  | nil => simp [absorbAll, run, TopologyGraph.new]
  | append_singleton L last ih =>
    have hrun : absorbAll (L ++ [last]) = (absorbAll L).absorb last := run_concat _ _ _ _
    rw [hrun, mem_nodes_absorb_of_ne (by simp), ih, mem_places_network]
    simp [or_and_right, exists_or]

/-- Only the join of a VLAN adds a network without asking what it is. -/
theorem topology_or_joined_of_adds {ev : TopologyEvidence} {net : IpNet} (h : ev.Adds net) :
    isTopologyNetwork net = true ∨ ∃ vlan, ev.fact = .vlanNetwork vlan net := by
  unfold TopologyEvidence.Adds at h
  split at h
  all_goals first | exact .inl h.2 | exact .inr ⟨_, by rw [← h]; assumption⟩ | exact h.elim

/-- **The networks of a run are proper** exactly when every join of a VLAN names a real network, and no two records
add prefixes of one domain that differ in host bits only. -/
theorem properNetworks_iff (L : List TopologyEvidence) :
    ProperNetworks (absorbAll L) ↔
      (∀ ev ∈ L, ∀ vlan net, ev.fact = .vlanNetwork vlan net → isTopologyNetwork net = true) ∧
        ∀ ev ∈ L, ∀ ev' ∈ L, ∀ p q, ev.Adds p → ev'.Adds q →
          networkRealm p (Realm.of ev.origin) = networkRealm q (Realm.of ev'.origin) → p.trunc = q.trunc → p = q := by
  constructor
  · intro h
    refine ⟨fun ev hev vlan net hf => ?_, fun ev hev ev' hev' p q hp hq hr ht => ?_⟩
    · have hadds : ev.Adds net := by rw [TopologyEvidence.Adds, hf]
      exact h.topology net _ ((mem_nodes_network_absorbAll L).mpr ⟨ev, hev, hadds, rfl⟩)
    · refine h.once p q _ ((mem_nodes_network_absorbAll L).mpr ⟨ev, hev, hp, rfl⟩)
        ((mem_nodes_network_absorbAll L).mpr ⟨ev', hev', hq, hr⟩) (IpNet.contains_eq_iff.mpr ht)
  · rintro ⟨hvlan, honce⟩
    refine ⟨fun net realm hnet => ?_, fun p q realm hp hq hc => ?_⟩
    · obtain ⟨ev, hev, hadds, -⟩ := (mem_nodes_network_absorbAll L).mp hnet
      rcases topology_or_joined_of_adds hadds with h | ⟨vlan, hf⟩
      · exact h
      · exact hvlan ev hev vlan net hf
    · obtain ⟨ev, hev, hadds, hr⟩ := (mem_nodes_network_absorbAll L).mp hp
      obtain ⟨ev', hev', hadds', hr'⟩ := (mem_nodes_network_absorbAll L).mp hq
      exact honce ev hev ev' hev' p q hadds hadds' (hr.symm.trans hr') (IpNet.contains_eq_iff.mp hc)

/-- The loopback network comes in with a VLAN, and one network twice with different host bits. -/
theorem networks_filed_as_stated :
    (¬∀ (L : List TopologyEvidence) (net : IpNet) (realm : Realm), .network net realm ∈ (absorbAll L).nodes →
        isTopologyNetwork net = true) ∧
      ¬∀ (L : List TopologyEvidence) (p q : IpNet) (realm : Realm), .network p realm ∈ (absorbAll L).nodes →
        .network q realm ∈ (absorbAll L).nodes → p.contains = q.contains → p = q := by
  let record : Fact → TopologyEvidence := fun fact =>
    { fact := fact, source := .dhcpLease, confidence := .observed, vantage := "eth0" }
  refine ⟨fun h => ?_, fun h => ?_⟩
  · have hnode := (mem_nodes_network_absorbAll [record (.vlanNetwork 10 (.v4 (.new 127 0 0 0) 8))]).mpr
      ⟨_, List.mem_cons_self, rfl, rfl⟩
    have htop := h _ _ _ hnode
    revert htop
    decide
  · let nets := [record (.network (.v4 (.new 10 0 0 0) 24)), record (.network (.v4 (.new 10 0 0 1) 24))]
    have hp := (mem_nodes_network_absorbAll nets).mpr ⟨_, List.mem_cons_self, ⟨rfl, by decide⟩, rfl⟩
    have hq := (mem_nodes_network_absorbAll nets).mpr ⟨_, List.mem_cons_of_mem _ List.mem_cons_self,
      ⟨rfl, by decide⟩, rfl⟩
    have hpq := h nets _ _ .localRealm hp hq (IpNet.contains_eq_iff.mpr (by decide))
    revert hpq
    decide

end Idnx
