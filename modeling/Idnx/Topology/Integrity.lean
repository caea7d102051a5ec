import Idnx.Topology.Confidence

/-!
# Referential integrity

What an edge joins, who owns or claims an address and which hops lead out should all be nodes of the graph
(`Integrity`). Every arm of `absorb` adds the nodes it refers to, except that for a hop the previous one is only
looked up; and a merge takes nodes away without renaming owners, claimants and hops. `integrity_iff`: these are the
only two ways a reference is left dangling, over every run.
-/

namespace Idnx

/-- Every identity the graph refers to is a node. -/
structure Integrity (g : TopologyGraph) : Prop where
  edges : ∀ k e, g.edges.lookup k = some e → e.source ∈ g.nodes ∧ e.target ∈ g.nodes
  owners : ∀ s k, g.addressOwner.lookup s = some k → .device k ∈ g.nodes
  claimants : ∀ s cs, g.contestedAddresses.lookup s = some cs → ∀ k ∈ cs, .device k ∈ g.nodes
  hops : ∀ d id, g.egressPath.lookup d = some id → id ∈ g.nodes

/-- No identity the next merge absorbs owns or claims an address or is a hop. -/
def TopologyGraph.AbsorbsUnreferenced (g : TopologyGraph) : Prop :=
  ∀ key owner, g.Absorbed key owner → (∀ s, g.addressOwner.lookup s ≠ some key) ∧
    (∀ s cs, g.contestedAddresses.lookup s = some cs → key ∉ cs) ∧ ∀ d, g.egressPath.lookup d ≠ some (.device key)

/-- A record names a previous hop only if it is a node, or the device of the record itself; and a merge absorbs only
what nothing refers to. -/
def GraphOp.KeepsReferences (g : TopologyGraph) : GraphOp → Prop
  | .absorb ev =>
      ∀ device toward distance previous, ev.fact = .forwardsToward device toward distance (some previous) →
        g.canonicalKey previous none (Realm.of ev.origin) = g.canonicalKey device none (Realm.of ev.origin) ∨
        .device (g.canonicalKey previous none (Realm.of ev.origin)) ∈ g.nodes
  | .merge => g.AbsorbsUnreferenced
  | .finalize => g.AbsorbsUnreferenced

/-! ## What the plan of a record refers to -/

/-- The ends of every link are added by the plan, or own a slot, or are the previous hop of the record. -/
theorem link_refs {owner : Slot → Option DeviceKey} {ev : TopologyEvidence} {fact : Fact} {a b : NodeId}
    {rel : Relationship} {prov : Provenance} (h : Command.link a b rel prov ∈ planFact owner ev fact) :
    ((∃ kind, Command.upsert a kind ∈ planFact owner ev fact) ∨ (∃ s k, owner s = some k ∧ a = .device k) ∨
      ∃ device toward distance previous, fact = .forwardsToward device toward distance (some previous) ∧
        a = .device (resolveKey owner previous none (Realm.of ev.origin)) ∧
          resolveKey owner previous none (Realm.of ev.origin) ≠ resolveKey owner device none (Realm.of ev.origin)) ∧
      ∃ kind, Command.upsert b kind ∈ planFact owner ev fact := by
  simp only [mem_planFact_iff] at h ⊢
  cases h with
  | @attach fact key net rel hf hn =>
    refine ⟨.inl ⟨.host, .file (mem_devices_of_attachment hf)⟩, .network, .place ?_⟩
    cases fact <;> simp_all [Fact.attachment, Fact.places]
  | plug hn =>
    exact ⟨.inl ⟨.interface, .place (by simp [Fact.places, hn])⟩, .network, .place (by simp [Fact.places, hn])⟩
  | carry => exact ⟨.inl ⟨.vlan, .place (by simp [Fact.places])⟩, .network, .place (by simp [Fact.places])⟩
  | uplink hb hr hne =>
    exact ⟨.inl ⟨.switch, .bridge (by simp [Fact.bridges, hb, hr])⟩, .switch,
      .bridge (by simp [Fact.bridges, hb, hr])⟩
  | forward hne =>
    exact ⟨.inr (.inr ⟨_, _, _, _, rfl, rfl, hne⟩), .host, .file (by simp [Fact.devices])⟩
  | behind => exact ⟨.inl ⟨.host, .file (by simp [Fact.devices])⟩, .host, .file (by simp [Fact.devices])⟩
  | advertise ho => exact ⟨.inr (.inl ⟨_, _, ho, rfl⟩), .service, .place (by simp [Fact.places])⟩

/-- A hop is the device of the record, which the plan adds. -/
theorem hop_refs {owner : Slot → Option DeviceKey} {ev : TopologyEvidence} {fact : Fact} {d : UInt8} {id : NodeId}
    (h : Command.hop d id ∈ planFact owner ev fact) : ∃ kind, Command.upsert id kind ∈ planFact owner ev fact := by
  simp only [mem_planFact_iff] at h ⊢
  cases h with
  | hop => exact ⟨.host, .file (by simp [Fact.devices])⟩

/-! ## One operation -/

section Step

variable {g : TopologyGraph}

/-- Whoever a slot mentions after a record was mentioned before, or is the claimant, whose node the record adds. -/
theorem mentions_absorb (hinv : SlotInv g) {ev : TopologyEvidence} {s : Slot} {k : DeviceKey}
    (h : ((g.absorb ev).tenure s).Mentions k) : (g.tenure s).Mentions k ∨ .device k ∈ (g.absorb ev).nodes := by
  rw [TopologyGraph.tenure_absorb hinv] at h
  unfold TopologyGraph.claimed at h
  cases hc : g.claimOf ev with
  | none => rw [hc] at h; exact .inl h
  | some sk =>
    obtain ⟨slot, key⟩ := sk
    rw [hc] at h
    dsimp only at h
    split_ifs at h
    · rcases Tenure.mentions_claim h with rfl | h
      · refine .inr ?_
        rw [TopologyGraph.absorb_of_claimOf hc, mem_nodes_settleClaim]
        exact Map.mem_upd.mpr (.inl rfl)
      · exact .inl h
    · exact .inl h

/-- Owners and claimants, in terms of tenures. -/
theorem mentions_iff (hinv : SlotInv g) {s : Slot} {k : DeviceKey} :
    (g.tenure s).Mentions k ↔ g.addressOwner.lookup s = some k ∨
      ∃ cs, g.contestedAddresses.lookup s = some cs ∧ k ∈ cs := by
  obtain ⟨ho, -, hc⟩ := lookups_of_tenure (s := s) hinv
  rw [ho, hc]
  cases g.tenure s <;> simp [Tenure.Mentions, Tenure.record, eq_comm]

theorem integrity_mentions (hinv : SlotInv g) (h : Integrity g) {s : Slot} {k : DeviceKey}
    (hm : (g.tenure s).Mentions k) : .device k ∈ g.nodes := by
  rcases (mentions_iff hinv).mp hm with ho | ⟨cs, hc, hk⟩
  · exact h.owners s k ho
  · exact h.claimants s cs hc k hk

/-- With edges filed under their ends, it is enough to look at where they are filed. -/
theorem edges_refs_iff (hkeyed : EdgesKeyed g.edges) :
    (∀ k e, g.edges.lookup k = some e → e.source ∈ g.nodes ∧ e.target ∈ g.nodes) ↔
      ∀ k ∈ g.edges, k.source ∈ g.nodes ∧ k.target ∈ g.nodes := by
  constructor
  · intro h k hk
    obtain ⟨e, he⟩ := Map.mem_iff_lookup.mp hk
    have hke := hkeyed k e he
    subst hke
    exact h _ e he
  · intro h k e he
    have hke := hkeyed k e he
    subst hke
    exact h _ (Map.mem_of_lookup he)

theorem integrity_absorb (hinv : SlotInv g) (hkeyed : EdgesKeyed g.edges) (h : Integrity g) {ev : TopologyEvidence}
    (hkeyed' : EdgesKeyed (g.absorb ev).edges) (hC : GraphOp.KeepsReferences g (.absorb ev)) :
    Integrity (g.absorb ev) := by
  have hinv' : SlotInv (g.absorb ev) := slotInv_apply hinv (.absorb ev)
  have hmono : ∀ {id : NodeId}, id ∈ g.nodes → id ∈ (g.absorb ev).nodes := fun hid => mem_nodes_absorb.mpr (.inl hid)
  have hadd : ∀ {id : NodeId}, (∃ kind, Command.upsert id kind ∈ plan (g.addressOwner.lookup ·) ev) →
      id ∈ (g.absorb ev).nodes := fun hid => mem_nodes_absorb.mpr (.inr hid)
  have hslot : ∀ {s k}, ((g.absorb ev).tenure s).Mentions k → .device k ∈ (g.absorb ev).nodes := by
    intro s k hm
    rcases mentions_absorb hinv hm with hm | hm
    · exact hmono (integrity_mentions hinv h hm)
    · exact hm
  refine ⟨(edges_refs_iff hkeyed').mpr fun k hk => ?_, fun s k ho => hslot ((mentions_iff hinv').mpr (.inl ho)),
    fun s cs hc k hk => hslot ((mentions_iff hinv').mpr (.inr ⟨cs, hc, hk⟩)), fun d id hd => ?_⟩
  · rw [absorb_eq_plan, mem_edges_foldl] at hk
    rcases hk with hk | ⟨prov, hlink⟩
    · obtain ⟨hs, ht⟩ := (edges_refs_iff hkeyed).mp h.edges k hk
      exact ⟨hmono hs, hmono ht⟩
    · obtain ⟨hs, ht⟩ := link_refs hlink
      refine ⟨?_, hadd ht⟩
      rcases hs with hs | ⟨s, holder, ho, he⟩ | ⟨device, toward, distance, previous, hf, he, hne⟩
      · exact hadd hs
      · rw [he]
        exact hmono (h.owners s holder ho)
      · rw [he]
        rcases hC device toward distance previous (qualifyFact_forwardsToward.mp hf) with heq | hmem
        · exact absurd heq hne
        · exact hmono hmem
  · rw [absorb_eq_plan] at hd
    rcases lookup_egressPath_foldl hd with hd | hd
    · exact hmono (h.hops d id hd)
    · exact hadd (hop_refs hd)

/-- A record that links from a previous hop that is not a node leaves the link dangling. -/
theorem keepsReferences_of_integrity {ev : TopologyEvidence} (hkeyed' : EdgesKeyed (g.absorb ev).edges)
    (h : Integrity (g.absorb ev)) : GraphOp.KeepsReferences g (.absorb ev) := by
  intro device toward distance previous hf
  by_contra hno
  simp only [not_or] at hno
  obtain ⟨hne, hmem⟩ := hno
  have hplan : plan (g.addressOwner.lookup ·) ev = planFact (g.addressOwner.lookup ·) ev
      (.forwardsToward device toward distance (some previous)) := by
    unfold plan
    rw [qualifyFact_forwardsToward.mpr hf]
  rw [canonicalKey_eq, canonicalKey_eq] at hne
  rw [canonicalKey_eq] at hmem
  have hids : NodeId.device (resolveKey (g.addressOwner.lookup ·) previous none (Realm.of ev.origin)) ≠
      .device (resolveKey (g.addressOwner.lookup ·) device none (Realm.of ev.origin)) :=
    fun he => hne (NodeId.device.inj he)
  have hedge : (⟨.device (resolveKey (g.addressOwner.lookup ·) previous none (Realm.of ev.origin)),
      .device (resolveKey (g.addressOwner.lookup ·) device none (Realm.of ev.origin)), .forwardsToward⟩ : EdgeKey) ∈
        (g.absorb ev).edges := by
    rw [absorb_eq_plan, mem_edges_foldl, hplan]
    simp only [planFact]
    rw [if_pos hids]
    exact .inr ⟨_, List.mem_append_right _ (List.mem_singleton_self _)⟩
  have hsrc := ((edges_refs_iff hkeyed').mp h.edges _ hedge).1
  rw [mem_nodes_absorb, hplan] at hsrc
  rcases hsrc with hsrc | ⟨kind, hk⟩
  · exact hmem hsrc
  · simp only [planFact] at hk
    rw [if_pos hids] at hk
    simp at hk
    exact hne hk.1

theorem integrity_merge_iff (hkeyed : EdgesKeyed g.edges) (h : Integrity g) :
    Integrity g.mergeAddressIdentities.1 ↔ g.AbsorbsUnreferenced := by
  have ho : g.mergeAddressIdentities.1.addressOwner = g.addressOwner :=
    TopologyGraph.mergeAddressIdentities_frame (·.addressOwner) (fun _ _ _ _ => rfl)
  have hc : g.mergeAddressIdentities.1.contestedAddresses = g.contestedAddresses :=
    TopologyGraph.mergeAddressIdentities_frame (·.contestedAddresses) (fun _ _ _ _ => rfl)
  have hp : g.mergeAddressIdentities.1.egressPath = g.egressPath := TopologyGraph.egressPath_merge
  have hgone : ∀ {key owner}, g.Absorbed key owner → .device key ∉ g.mergeAddressIdentities.1.nodes := by
    intro key owner ha hmem
    exact (TopologyGraph.mem_nodes_merge.mp hmem).2 (TopologyGraph.mem_absorbedIds.mpr ⟨key, owner, rfl, ha⟩)
  constructor
  · intro h' key owner ha
    refine ⟨fun s hs => hgone ha (h'.owners s key (ho ▸ hs)), fun s cs hs hk => ?_, fun d hd => ?_⟩
    · exact hgone ha (h'.claimants s cs (hc ▸ hs) key hk)
    · exact hgone ha (h'.hops d _ (hp ▸ hd))
  · intro hC
    have hstay : ∀ {id : NodeId}, id ∈ g.nodes → (∀ key owner, id = .device key → ¬g.Absorbed key owner) →
        id ∈ g.mergeAddressIdentities.1.nodes := by
      intro id hid hna
      refine TopologyGraph.mem_nodes_merge.mpr ⟨hid, fun habs => ?_⟩
      obtain ⟨key, owner, he, ha⟩ := TopologyGraph.mem_absorbedIds.mp habs
      exact hna key owner he ha
    refine ⟨(edges_refs_iff (TopologyGraph.edgesKeyed_merge hkeyed)).mpr fun k hk => ?_, fun s k hs => ?_,
      fun s cs hs k hk => ?_, fun d id hd => ?_⟩
    · obtain ⟨i, hi, rfl, -⟩ := (TopologyGraph.mem_edges_merge hkeyed k).mp hk
      obtain ⟨hs, ht⟩ := (edges_refs_iff hkeyed).mp h.edges i hi
      exact ⟨(TopologyGraph.nodes_merge _).mpr ⟨_, hs, rfl⟩, (TopologyGraph.nodes_merge _).mpr ⟨_, ht, rfl⟩⟩
    · rw [ho] at hs
      refine hstay (h.owners s k hs) fun key owner he ha => ?_
      cases he
      exact (hC k owner ha).1 s hs
    · rw [hc] at hs
      refine hstay (h.claimants s cs hs k hk) fun key owner he ha => ?_
      cases he
      exact (hC k owner ha).2.1 s cs hs hk
    · rw [hp] at hd
      refine hstay (h.hops d id hd) fun key owner he ha => ?_
      subst he
      exact (hC key owner ha).2.2 d hd

/-- Roles change no reference. -/
theorem integrity_rekind_iff (changes : List (NodeId × (NodeKind → NodeKind))) :
    Integrity (g.rekind changes) ↔ Integrity g := by
  have hn : ∀ {id : NodeId}, id ∈ (g.rekind changes).nodes ↔ id ∈ g.nodes := by
    intro id
    obtain ⟨f, hf⟩ := TopologyGraph.lookup_rekind changes g id
    rw [Map.mem_iff_lookup, Map.mem_iff_lookup, hf]
    simp
  have he : (g.rekind changes).edges = g.edges := TopologyGraph.rekind_frame (·.edges) (fun _ _ => rfl) changes g
  have ho : (g.rekind changes).addressOwner = g.addressOwner :=
    TopologyGraph.rekind_frame (·.addressOwner) (fun _ _ => rfl) changes g
  have hc : (g.rekind changes).contestedAddresses = g.contestedAddresses :=
    TopologyGraph.rekind_frame (·.contestedAddresses) (fun _ _ => rfl) changes g
  have hp : (g.rekind changes).egressPath = g.egressPath :=
    TopologyGraph.rekind_frame (·.egressPath) (fun _ _ => rfl) changes g
  constructor
  · rintro ⟨h₁, h₂, h₃, h₄⟩
    simp only [hn, he, ho, hc, hp] at h₁ h₂ h₃ h₄
    exact ⟨h₁, h₂, h₃, h₄⟩
  · rintro ⟨h₁, h₂, h₃, h₄⟩
    exact ⟨by simpa only [hn, he] using h₁, by simpa only [hn, ho] using h₂, by simpa only [hn, hc] using h₃,
      by simpa only [hn, hp] using h₄⟩

/-- **One operation.** -/
theorem integrity_apply_iff (hinv : SlotInv g) (hkeyed : EdgesKeyed g.edges) (h : Integrity g) (op : GraphOp)
    (hkeyed' : EdgesKeyed (op.apply g).edges) : Integrity (op.apply g) ↔ op.KeepsReferences g := by
  cases op with
  | absorb ev => exact ⟨keepsReferences_of_integrity hkeyed', integrity_absorb hinv hkeyed h hkeyed'⟩
  | merge => exact integrity_merge_iff hkeyed h
  | finalize =>
    refine (integrity_rekind_iff _).trans ((integrity_rekind_iff _).trans ?_)
    exact integrity_merge_iff hkeyed h

end Step

/-- **Referential integrity** holds in every state of a run if and only if every step keeps its references. -/
theorem integrity_iff (ops : List GraphOp) :
    Always GraphOp.apply (fun _ g => Integrity g) .new ops ↔
      Along GraphOp.apply (fun _ g op => op.KeepsReferences g) .new ops := by
  have hstep : ∀ (h : List GraphOp) (op : GraphOp), Integrity (build h) →
    (Integrity (op.apply (build h)) ↔ op.KeepsReferences (build h)) := by
    intro h op hi
    refine integrity_apply_iff (slotInv_build h) (edgesKeyed_build h) hi op ?_
    rw [← build_concat]
    exact edgesKeyed_build _
  constructor
  · exact fun hP => along_of_always (fun h op h₁ h₂ => (hstep h op h₁).mp h₂) hP
  · refine fun hC => always_of_along ⟨?_, ?_, ?_, ?_⟩ (fun h op h₁ hk => (hstep h op h₁).mpr hk) hC
    · intro k e he
      cases he
    · intro s k ho
      cases ho
    · intro s cs hc
      cases hc
    · intro d id hd
      cases hd

/-- The first hop of a path names a previous hop that no record has described. -/
theorem previous_hop_dangles : ¬∀ ops, Integrity (build ops) := by
  intro h
  let ops : List GraphOp :=
    [.absorb
      { fact := .forwardsToward (.address (ip 10 0 0 2)) (ip 8 8 8 8) 2 (some (.address (ip 10 0 0 1)))
        source := .icmpProbe, confidence := .observed, vantage := "eth0" }]
  let key : EdgeKey := ⟨.device (.address (ip 10 0 0 1)), .device (.address (ip 10 0 0 2)), .forwardsToward⟩
  have hk : key ∈ (build ops).edges := by decide
  have hsrc := ((edges_refs_iff (edgesKeyed_build ops)).mp (h ops).edges key hk).1
  exact absurd hsrc (by decide)

end Idnx
