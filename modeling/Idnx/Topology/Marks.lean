import Idnx.Topology.Merge

/-!
# Local marks

A node marks each of its addresses as observed here or only reported by a peer. `LocalMark` is the first; the lemmas
say what each operation does to it: a claim marks the claimant and, in a new dispute, the holder
(`localMark_absorb_of_some`, `claimMark_of_ne`), a merge moves the marks with the identities (`localMark_merge`).
`LocallyKnown` says the same of the nodes themselves.
-/

namespace Idnx

/-- This machine observed the address on the node of `k`. -/
def LocalMark (g : TopologyGraph) (k : DeviceKey) (a : IpAddr) : Prop :=
  ∃ n, g.nodes.lookup (.device k) = some n ∧ a ∈ n.locallyObservedAddresses

instance (g : TopologyGraph) (k : DeviceKey) (a : IpAddr) : Decidable (LocalMark g k a) :=
  inferInstanceAs (Decidable (∃ n ∈ g.nodes.lookup (.device k), a ∈ n.locallyObservedAddresses))

theorem renameNode_device (ms : List (DeviceKey × DeviceKey)) (k : DeviceKey) :
    renameNode ms (.device k) = .device (rename ms k) := by
  induction ms with
  | nil => rfl
  | cons m ms ih =>
    rw [renameNode_cons, ih, rename]
    by_cases hk : k = m.1
    · rw [if_pos (by rw [hk]), if_pos hk]
    · rw [if_neg (fun he => hk (NodeId.device.inj he)), if_neg hk]

/-- Only a device is renamed to a device. -/
theorem renameNode_eq_device {g : TopologyGraph} {i : NodeId} {k : DeviceKey} :
    renameNode g.merges i = .device k ↔ ∃ j, i = .device j ∧ rename g.merges j = k := by
  constructor
  · intro h
    cases i with
    | device j =>
      rw [renameNode_device] at h
      exact ⟨j, rfl, NodeId.device.inj h⟩
    | _ =>
      rw [TopologyGraph.renameNode_of_not_absorbed] at h
      · cases h
      · rw [TopologyGraph.mem_absorbedIds]
        rintro ⟨key, owner, he, -⟩
        cases he
  · rintro ⟨j, rfl, rfl⟩
    exact renameNode_device _ _

theorem Mark.mem_locallyObserved (m : Mark) (n : Node) (address a : IpAddr) (remote : Bool) :
    a ∈ (m.apply address remote n).locallyObservedAddresses ↔
      match m with
      | .keep => a ∈ n.locallyObservedAddresses
      | .hold | .contest => a ∈ n.locallyObservedAddresses ∨ (a = address ∧ remote = false)
      | .setAside _ => a ∈ n.locallyObservedAddresses ∧ a ≠ address := by
  cases m with
  | keep => exact Iff.rfl
  | hold => rw [mem_locallyObservedAddresses]; exact mem_noteMark_false.trans (by rw [mem_locallyObservedAddresses])
  | contest =>
    rw [mem_locallyObservedAddresses]; exact mem_noteMark_false.trans (by rw [mem_locallyObservedAddresses])
  | setAside holder =>
    simp [mem_locallyObservedAddresses, Mark.apply, Node.supersedeAddress]

theorem Note.write_marks (remote : Bool) (n : Node) (note : Note) :
    (note.write remote n).locallyObservedAddresses = n.locallyObservedAddresses := by
  cases note with
  | vendor v => unfold Note.write; split_ifs <;> rfl
  | boundary w => unfold Note.write; split_ifs <;> rfl
  | _ => rfl

section Step

variable {g : TopologyGraph} {ev : TopologyEvidence} {k : DeviceKey} {a : IpAddr}

/-- No command but a claim changes a local mark. -/
theorem localMark_exec {c : Command} (hc : ∀ slot key, c ≠ .claim slot key) :
    LocalMark (exec ev g c) k a ↔ LocalMark g k a := by
  unfold LocalMark
  cases c with
  | claim slot key => exact absurd rfl (hc slot key)
  | upsert id kind =>
    rw [exec, TopologyGraph.lookup_upsert]
    split_ifs with hid
    · subst hid
      cases hn : g.nodes.lookup (.device k) with
      | none => simp [Node.support, Node.new, mem_locallyObservedAddresses]
      | some n => simp [Node.support, mem_locallyObservedAddresses]
    · rfl
  | note id note =>
    rw [exec, TopologyGraph.lookup_modifyNode]
    split_ifs with hid
    · subst hid
      cases hn : g.nodes.lookup (.device k) with
      | none => simp
      | some n => simp [Note.write_marks]
    · rfl
  | _ => rfl

theorem localMark_absorb_of_none (hc : g.claimOf ev = none) : LocalMark (g.absorb ev) k a ↔ LocalMark g k a := by
  rw [absorb_eq_plan]
  refine iff_of_eq (foldl_exec_frame (fun g => LocalMark g k a) (fun c hmem g' => propext ?_) g)
  refine localMark_exec fun slot key he => ?_
  subst he
  obtain ⟨d, x, hf⟩ := claim_mem_planFact hmem
  simp [TopologyGraph.claimOf, hf] at hc

/-- The node of the claimant is there when the claim is settled. -/
theorem localMark_absorb_of_some {slot : Slot} {key : DeviceKey} (hc : g.claimOf ev = some (slot, key)) :
    LocalMark (g.absorb ev) k a ↔
      match g.claimMark slot key ev.source k with
      | .keep => LocalMark g k a
      | .hold | .contest =>
        LocalMark g k a ∨ (a = slot.address ∧ ev.origin = none ∧ (k = key ∨ .device k ∈ g.nodes))
      | .setAside _ => LocalMark g k a ∧ a ≠ slot.address := by
  have hup : LocalMark (exec ev g (.upsert (.device key) .host)) k a ↔ LocalMark g k a :=
    localMark_exec (fun _ _ he => by cases he)
  have hmem : .device k ∈ (exec ev g (.upsert (.device key) .host)).nodes ↔ k = key ∨ .device k ∈ g.nodes := by
    rw [exec, TopologyGraph.upsert, Map.mem_upd]
    simp
  have hremote : ((!(Realm.of ev.origin).isLocal) = false) ↔ ev.origin = none := by
    rw [of_isLocal]
    cases ev.origin <;> simp
  rw [← hup, ← hmem, TopologyGraph.absorb_of_claimOf hc]
  unfold LocalMark
  rw [TopologyGraph.lookup_settleClaim]
  show (∃ n, Option.map (fun n => (g.claimMark slot key ev.source k).apply slot.address _ n)
    ((exec ev g (.upsert (.device key) .host)).nodes.lookup (.device k)) = some n ∧ _) ↔ _
  rw [Map.mem_iff_lookup]
  cases hn : (exec ev g (.upsert (.device key) .host)).nodes.lookup (.device k) with
  | none => cases g.claimMark slot key ev.source k <;> simp
  | some n =>
    simp only [Option.map_some, Option.some.injEq, exists_eq_left', Mark.mem_locallyObserved, hremote]
    cases g.claimMark slot key ev.source k <;> simp

/-- A mark that a claim leaves on a node other than the claimant's is that of a holder in a new dispute. -/
theorem claimMark_of_ne {slot : Slot} {key : DeviceKey} {source : EvidenceSource} (hk : k ≠ key)
    (h : g.claimMark slot key source k = .hold ∨ g.claimMark slot key source k = .contest) :
    g.contestedAddresses.lookup slot = none ∧ g.addressOwner.lookup slot = some k ∧
      resolveClaim (some k) (g.addressBinding.lookup slot) key source = .contested := by
  unfold TopologyGraph.claimMark at h
  cases hcon : g.contestedAddresses.lookup slot with
  | some cs => simp [hcon, hk] at h
  | none =>
    cases ho : g.addressOwner.lookup slot with
    | none => simp [hcon, ho, hk] at h
    | some holder =>
      simp only [hcon, ho] at h
      cases hr : resolveClaim (some holder) (g.addressBinding.lookup slot) key source with
      | contested =>
        simp only [hr, hk, false_or] at h
        by_cases hh : k = holder
        · subst hh
          exact ⟨rfl, rfl, hr⟩
        · simp [hh] at h
      | supersedes =>
        simp only [hr, hk, if_false] at h
        split_ifs at h <;> simp at h
      | _ => simp [hr, hk] at h

/-- The nodes of the others are left alone. -/
theorem claimMark_keep {slot : Slot} {key : DeviceKey} {source : EvidenceSource} (hk : k ≠ key)
    (ho : g.addressOwner.lookup slot ≠ some k) : g.claimMark slot key source k = .keep := by
  unfold TopologyGraph.claimMark
  split
  · rw [if_neg hk]
  · rw [if_neg hk]
  · rename_i holder hcon hown
    have hh : k ≠ holder := fun he => ho (by rw [hown, he])
    split <;> simp [hk, hh]

/-- And in a new dispute the node of the holder is marked. -/
theorem claimMark_of_contested {slot : Slot} {key : DeviceKey} {source : EvidenceSource}
    (hcon : g.contestedAddresses.lookup slot = none) (ho : g.addressOwner.lookup slot = some k)
    (hr : resolveClaim (some k) (g.addressBinding.lookup slot) key source = .contested) :
    g.claimMark slot key source k = .contest := by
  simp [TopologyGraph.claimMark, hcon, ho, hr]

theorem localMark_merge : LocalMark g.mergeAddressIdentities.1 k a ↔
    ∃ j, rename g.merges j = k ∧ LocalMark g j a := by
  unfold LocalMark
  rw [TopologyGraph.exists_node_merge (Φ := fun n => a ∈ n.locallyObservedAddresses)]
  · constructor
    · rintro ⟨i, n, hr, hn, ha⟩
      obtain ⟨j, rfl, hj⟩ := renameNode_eq_device.mp hr
      exact ⟨j, hj, n, hn, ha⟩
    · rintro ⟨j, rfl, n, hn, ha⟩
      exact ⟨.device j, n, renameNode_device _ _, hn, ha⟩
  · intro t s
    simp only [mem_locallyObservedAddresses, foldNode_eq]
    exact mem_noteMarks_false

theorem localMark_rekind (changes : List (NodeId × (NodeKind → NodeKind))) :
    LocalMark (g.rekind changes) k a ↔ LocalMark g k a :=
  TopologyGraph.exists_node_rekind fun _ _ => Iff.rfl

theorem localMark_finalizeRoles : LocalMark g.finalizeRoles k a ↔ LocalMark g.mergeAddressIdentities.1 k a :=
  TopologyGraph.exists_node_finalizeRoles fun _ _ => Iff.rfl

end Step

/-! ## Nodes -/

/-- Something on this machine observed the node. -/
def LocallyKnown (g : TopologyGraph) (id : NodeId) : Prop :=
  ∃ n, g.nodes.lookup id = some n ∧ n.locallyObserved = true

section Known

variable {g : TopologyGraph} {ev : TopologyEvidence} {id : NodeId}

theorem locallyObserved_support (n : Node) (ev : TopologyEvidence) :
    (n.support ev.confidence (.fromEvidence ev)).locallyObserved = true ↔ n.locallyObserved = true ∨
    ev.origin = none := by
  simp only [Node.locallyObserved, Node.support, List.any_append, Bool.or_eq_true]
  simp [Provenance.fromEvidence, Provenance.isRemote]

/-- Only a local record that adds the node, or adds to it, makes it known. -/
theorem locallyKnown_exec {c : Command} :
    LocallyKnown (exec ev g c) id ↔ LocallyKnown g id ∨ ev.origin = none ∧ ∃ kind, c = .upsert id kind := by
  unfold LocallyKnown
  cases c with
  | upsert j kind =>
    rw [exec, TopologyGraph.lookup_upsert]
    split_ifs with hid
    · subst hid
      simp only [Option.some.injEq, exists_eq_left', locallyObserved_support]
      cases hn : g.nodes.lookup id with
      | none => simp [Node.new, Node.locallyObserved]
      | some n => simp
    · simp [Ne.symm hid]
  | note j note =>
    rw [exec, TopologyGraph.lookup_modifyNode]
    split_ifs with hid
    · subst hid
      cases hn : g.nodes.lookup id with
      | none => simp
      | some n => simp [Node.locallyObserved, (Note.write_evidence _ n note).2]
    · simp
  | claim slot key =>
    cases id with
    | device k =>
      rw [exec, TopologyGraph.lookup_settleClaim]
      cases hn : g.nodes.lookup (.device k) with
      | none => simp
      | some n => simp [Node.locallyObserved, (Mark.apply_evidence _ _ n _).2]
    | _ =>
      rw [exec, TopologyGraph.lookup_settleClaim_of_ne (by simp)]
      simp
  | _ => simp [exec, TopologyGraph.link]

theorem locallyKnown_absorb :
    LocallyKnown (g.absorb ev) id ↔
      LocallyKnown g id ∨ ev.origin = none ∧ ∃ kind, Command.upsert id kind ∈ plan (g.addressOwner.lookup ·) ev := by
  rw [absorb_eq_plan]
  generalize plan (g.addressOwner.lookup ·) ev = cs
  induction cs generalizing g with
  | nil => simp
  | cons c cs ih =>
    rw [List.foldl_cons, ih, locallyKnown_exec]
    simp only [List.mem_cons, exists_or, and_or_left, or_assoc, eq_comm]

theorem locallyKnown_merge {j : NodeId} :
    LocallyKnown g.mergeAddressIdentities.1 j ↔ ∃ i, renameNode g.merges i = j ∧ LocallyKnown g i := by
  unfold LocallyKnown
  rw [TopologyGraph.exists_node_merge]
  · simp only [exists_and_left]
  · intro t s
    simp [foldNode_eq, Node.locallyObserved]

theorem locallyKnown_device_merge {k : DeviceKey} :
    LocallyKnown g.mergeAddressIdentities.1 (.device k) ↔ ∃ j, rename g.merges j = k ∧
    LocallyKnown g (.device j) := by
  rw [locallyKnown_merge]
  constructor
  · rintro ⟨i, hi, hk⟩
    obtain ⟨j, rfl, hj⟩ := renameNode_eq_device.mp hi
    exact ⟨j, hj, hk⟩
  · rintro ⟨j, rfl, hk⟩
    exact ⟨.device j, renameNode_device _ _, hk⟩

theorem locallyKnown_finalizeRoles : LocallyKnown g.finalizeRoles id ↔ LocallyKnown g.mergeAddressIdentities.1 id :=
  TopologyGraph.exists_node_finalizeRoles fun _ _ => Iff.rfl

end Known

end Idnx
