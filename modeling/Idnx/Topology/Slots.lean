import Idnx.Lib.Tenure
import Idnx.Topology.Commands

/-!
# Who holds an address

The three slot maps of the graph together record one `Tenure` per slot (`TopologyGraph.tenure`, `SlotInv`), and a
record that claims an address does to it what `Tenure.claim` says (`tenure_absorb`); nothing else touches the slots.
So what holds of tenures holds of the graph: a slot is owned or in dispute but never both, and a dispute is for ever
(`slots_consistent`).
-/

namespace Idnx

/-- Sources ranked by freshness; hardware identities are the hard keys. -/
def bindingPolicy : Policy DeviceKey EvidenceSource where
  rank := bindingFreshness
  confirmed := freshnessConfirmed
  hard := DeviceKey.isMac
  rank_le := by intro s; cases s <;> decide

/-- What the three maps hold for a slot with the given tenure: owner, binding, claimants. -/
def Tenure.record : Tenure DeviceKey EvidenceSource →
    Option DeviceKey × Option EvidenceSource × Option (Finset DeviceKey)
  | .vacant => (none, none, none)
  | .held holder since => (some holder, some since, none)
  | .disputed claimants => (none, none, some claimants)

namespace TopologyGraph

/-- What the three maps hold for a slot: owner, binding, claimants. -/
def slotRecord (g : TopologyGraph) (s : Slot) :
    Option DeviceKey × Option EvidenceSource × Option (Finset DeviceKey) :=
  (g.addressOwner.lookup s, g.addressBinding.lookup s, g.contestedAddresses.lookup s)

/-- The tenure of a slot. -/
def tenure (g : TopologyGraph) (s : Slot) : Tenure DeviceKey EvidenceSource :=
  match g.slotRecord s with
  | (_, _, some claimants) => .disputed claimants
  | (some holder, some since, none) => .held holder since
  | _ => .vacant

theorem tenure_of_record {g : TopologyGraph} {s : Slot} {t : Tenure DeviceKey EvidenceSource}
    (h : g.slotRecord s = t.record) : g.tenure s = t := by
  unfold tenure
  rw [h]
  cases t <;> rfl

end TopologyGraph

/-- Every slot is recorded as a tenure is, and a dispute has at least two claimants. -/
def SlotInv (g : TopologyGraph) : Prop := ∀ s, (g.tenure s).Wf ∧ g.slotRecord s = (g.tenure s).record

/-! ## One claim -/

/-- **What a claim against a holder comes to**: the resolution `absorb` carries out, when it is taken, and what it
means for the tenure. -/
theorem resolveClaim_cases (holder key : DeviceKey) (since source : EvidenceSource) :
    let r := resolveClaim (some holder) (some since) key source
    let t := (Tenure.held holder since).claim bindingPolicy key source
    (r = .uncontested ∧ holder = key ∧ t = .held key source) ∨
    (r = .refines ∧ holder ≠ key ∧ holder.isMac = false ∧ key.isMac = true ∧ t = .held key source) ∨
    (r = .refined ∧ holder ≠ key ∧ holder.isMac = true ∧ key.isMac = false ∧ t = .held holder since) ∨
    (r = .supersedes ∧ holder ≠ key ∧ holder.isMac = key.isMac ∧ bindingFreshness since < bindingFreshness source ∧
      t = .held key source) ∨
    (r = .superseded ∧ holder ≠ key ∧ holder.isMac = key.isMac ∧ bindingFreshness source ≤ bindingFreshness since ∧
      t = .held holder since) ∨
    (r = .contested ∧ holder ≠ key ∧ holder.isMac = key.isMac ∧ bindingFreshness source = bindingFreshness since ∧
      freshnessConfirmed ≤ bindingFreshness source ∧ t = .disputed {holder, key}) := by
  intro r t
  by_cases hk : holder = key
  · exact .inl ⟨by simp [r, resolveClaim, hk], hk, by simp [t, Tenure.claim, hk]⟩
  by_cases hm : holder.isMac = key.isMac
  · have hr : r = if bindingFreshness source > bindingFreshness since then .supersedes
        else if bindingFreshness source < bindingFreshness since then .superseded
        else if bindingFreshness source ≥ freshnessConfirmed then .contested else .superseded := by
      simp [r, resolveClaim, hk, hm]
    have ht : t = if bindingFreshness source > bindingFreshness since then .held key source
        else if bindingFreshness source < bindingFreshness since then .held holder since
        else if freshnessConfirmed ≤ bindingFreshness source then .disputed {holder, key}
        else .held holder since := by
      simp [t, Tenure.claim, bindingPolicy, hk, hm]
      rfl
    rw [hr, ht]
    split_ifs with hgt hlt hf
    · simp [hk, hm, hgt]
    · simp [hk, hm, Nat.le_of_lt hlt]
    · have : bindingFreshness source = bindingFreshness since := by omega
      simp [hk, hm, this, this ▸ hf]
    · have : bindingFreshness source ≤ bindingFreshness since := by omega
      simp [hk, hm, this]
  · cases hh : holder.isMac <;> cases hkm : key.isMac <;> simp [hh, hkm] at hm
    · exact .inr (.inl ⟨by simp [r, resolveClaim, hk, hh, hkm], hk, rfl, rfl,
        by simp [t, Tenure.claim, bindingPolicy, hk, hh, hkm]⟩)
    · exact .inr (.inr (.inl ⟨by simp [r, resolveClaim, hk, hh, hkm], hk, rfl, rfl,
        by simp [t, Tenure.claim, bindingPolicy, hk, hh, hkm]⟩))

section Claim

variable {g : TopologyGraph} {slot : Slot} {key : DeviceKey} {source : EvidenceSource} {remote : Bool}

theorem takeSlot_slotRecord (s : Slot) :
    (g.takeSlot slot key source remote).slotRecord s =
      if s = slot then (some key, some source, g.contestedAddresses.lookup s) else g.slotRecord s := by
  simp only [TopologyGraph.takeSlot, TopologyGraph.slotRecord, TopologyGraph.modifyNode_addressOwner,
    TopologyGraph.modifyNode_addressBinding, TopologyGraph.modifyNode_contestedAddresses, Map.lookup_insert_ite]
  split_ifs <;> rfl

theorem startDispute_slotRecord (s : Slot) (previous : DeviceKey) (hc : g.contestedAddresses.lookup slot = none) :
    (g.startDispute slot previous key remote).slotRecord s =
      if s = slot then (none, none, some {previous, key}) else g.slotRecord s := by
  simp only [TopologyGraph.startDispute, TopologyGraph.slotRecord, TopologyGraph.modifyNode_addressOwner,
    TopologyGraph.modifyNode_addressBinding, TopologyGraph.modifyNode_contestedAddresses, Map.lookup_erase_ite,
    Map.lookup_upd, hc]
  split_ifs <;> simp

/-- **A claim does to the slot what `Tenure.claim` says**, and nothing to the other slots. -/
theorem settleClaim_slotRecord {t : Tenure DeviceKey EvidenceSource} (h : g.slotRecord slot = t.record) (s : Slot) :
    (g.settleClaim slot key source remote).slotRecord s =
      if s = slot then (t.claim bindingPolicy key source).record else g.slotRecord s := by
  have ho : g.addressOwner.lookup slot = t.record.1 := congrArg Prod.fst h
  have hb : g.addressBinding.lookup slot = t.record.2.1 := congrArg (fun r => r.2.1) h
  have hc : g.contestedAddresses.lookup slot = t.record.2.2 := congrArg (fun r => r.2.2) h
  unfold TopologyGraph.settleClaim
  cases t with
  | vacant =>
    simp only [Tenure.record] at ho hb hc
    simp only [hc, ho, resolveClaim, TopologyGraph.carryOut, takeSlot_slotRecord]
    split_ifs with hs
    · subst hs; rw [hc]; rfl
    · rfl
  | disputed cs =>
    simp only [Tenure.record] at ho hb hc
    simp only [hc, TopologyGraph.joinDispute, TopologyGraph.slotRecord, TopologyGraph.modifyNode_addressOwner,
      TopologyGraph.modifyNode_addressBinding, TopologyGraph.modifyNode_contestedAddresses, Map.lookup_insert_ite]
    split_ifs with hs
    · subst hs; rw [ho, hb]; rfl
    · rfl
  | held holder since =>
    simp only [Tenure.record] at ho hb hc
    have hkeep : (if s = slot then (Tenure.held holder since).record else g.slotRecord s) = g.slotRecord s := by
      split_ifs with hs
      · subst hs; exact h.symm
      · rfl
    have htake : ∀ g' : TopologyGraph, (∀ s, g'.slotRecord s = g.slotRecord s) →
        (g'.takeSlot slot key source remote).slotRecord s =
          if s = slot then (Tenure.held key source).record else g.slotRecord s := by
      intro g' hg'
      have hc' : g'.contestedAddresses.lookup slot = none := (congrArg (fun r => r.2.2) (hg' slot)).trans hc
      rw [takeSlot_slotRecord, hg']
      split_ifs with hs
      · subst hs; rw [hc']; rfl
      · rfl
    simp only [hc, ho, hb]
    rcases resolveClaim_cases holder key since source with h | h | h | h | h | h
    · obtain ⟨hr, -, ht⟩ := h
      rw [hr, ht]; exact htake g (fun _ => rfl)
    · obtain ⟨hr, -, -, -, ht⟩ := h
      rw [hr, ht]; exact htake g (fun _ => rfl)
    · obtain ⟨hr, -, -, -, ht⟩ := h
      rw [hr, ht]; exact hkeep.symm
    · obtain ⟨hr, -, -, -, ht⟩ := h
      rw [hr, ht]; exact htake _ (fun _ => rfl)
    · obtain ⟨hr, -, -, -, ht⟩ := h
      rw [hr, ht]; exact hkeep.symm
    · obtain ⟨hr, -, -, -, -, ht⟩ := h
      rw [hr, ht]; exact startDispute_slotRecord s holder hc

end Claim

/-! ## What a claim leaves on the nodes -/

/-- What settling a claim does to the node of a device. -/
inductive Mark where
  | keep
  | hold
  | contest
  | setAside (holder : Text)
  deriving DecidableEq

def Mark.apply (address : IpAddr) (remote : Bool) (n : Node) : Mark → Node
  | .keep => n
  | .hold => n.holdAddress address remote
  | .contest => n.contestAddress address remote
  | .setAside holder => n.supersedeAddress address holder

namespace TopologyGraph

/-- The mark that settling a claim of `key` to `slot` leaves on the node of `k`. -/
def claimMark (g : TopologyGraph) (slot : Slot) (key : DeviceKey) (source : EvidenceSource) (k : DeviceKey) : Mark :=
  match g.contestedAddresses.lookup slot, g.addressOwner.lookup slot with
  | some _, _ => if k = key then .contest else .keep
  | none, none => if k = key then .hold else .keep
  | none, some holder =>
    match resolveClaim (some holder) (g.addressBinding.lookup slot) key source with
    | .uncontested | .refines | .refined => if k = key then .hold else .keep
    | .supersedes => if k = key then .hold else if k = holder then .setAside (describeKey key) else .keep
    | .superseded => if k = key then .setAside (describeKey holder) else .keep
    | .contested => if k = key ∨ k = holder then .contest else .keep

/-- Only a claim of another device can supersede a holder or put the slot in dispute. -/
theorem ne_of_resolveClaim {holder key : DeviceKey} {since : Option EvidenceSource} {source : EvidenceSource}
    (h : resolveClaim (some holder) since key source ≠ .uncontested) : key ≠ holder := by
  rintro rfl
  simp [resolveClaim] at h

theorem lookup_takeSlot {g : TopologyGraph} {slot : Slot} {key : DeviceKey} {source : EvidenceSource} {remote : Bool}
    {id : NodeId} : (g.takeSlot slot key source remote).nodes.lookup id =
      if id = .device key then (g.nodes.lookup (.device key)).map fun n => n.holdAddress slot.address remote
      else g.nodes.lookup id :=
  lookup_modifyNode

/-- **A claim marks the nodes of the claimant and of the holder**, and no other node. -/
theorem lookup_settleClaim {g : TopologyGraph} {slot : Slot} {key : DeviceKey} {source : EvidenceSource}
    {remote : Bool} {k : DeviceKey} : (g.settleClaim slot key source remote).nodes.lookup (.device k) =
      (g.nodes.lookup (.device k)).map fun n => (g.claimMark slot key source k).apply slot.address remote n := by
  unfold settleClaim claimMark
  cases hc : g.contestedAddresses.lookup slot with
  | some cs =>
    simp only [joinDispute, lookup_modifyNode, NodeId.device.injEq]
    split_ifs with hk
    · subst hk; rfl
    · simp [Mark.apply]
  | none =>
    cases ho : g.addressOwner.lookup slot with
    | none =>
      simp only [resolveClaim, carryOut, lookup_takeSlot, NodeId.device.injEq]
      split_ifs with hk
      · subst hk; rfl
      · simp [Mark.apply]
    | some holder =>
      have htake : (g.takeSlot slot key source remote).nodes.lookup (.device k) =
          (g.nodes.lookup (.device k)).map fun n =>
            (if k = key then Mark.hold else .keep).apply slot.address remote n := by
        rw [lookup_takeSlot]
        simp only [NodeId.device.injEq]
        split_ifs with hk
        · subst hk; rfl
        · simp [Mark.apply]
      dsimp only
      cases hr : resolveClaim (some holder) (g.addressBinding.lookup slot) key source with
      | uncontested => simpa only [carryOut] using htake
      | refines => simpa only [carryOut] using htake
      | refined =>
        simp only [carryOut, lookup_modifyNode, NodeId.device.injEq]
        split_ifs with hk
        · subst hk; rfl
        · simp [Mark.apply]
      | supersedes =>
        have hne : key ≠ holder := ne_of_resolveClaim (by rw [hr]; decide)
        simp only [carryOut, lookup_takeSlot, lookup_modifyNode, NodeId.device.injEq, hne, if_false]
        by_cases hk : k = key
        · subst hk; simp [Mark.apply]
        · by_cases hh : k = holder
          · subst hh; simp [hk, Mark.apply]
          · simp [hk, hh, Mark.apply]
      | superseded =>
        simp only [carryOut, lookup_modifyNode, NodeId.device.injEq]
        split_ifs with hk
        · subst hk; rfl
        · simp [Mark.apply]
      | contested =>
        have hne : key ≠ holder := ne_of_resolveClaim (by rw [hr]; decide)
        simp only [carryOut, startDispute, lookup_modifyNode, NodeId.device.injEq, hne, if_false]
        by_cases hk : k = key
        · subst hk; simp [Mark.apply]
        · by_cases hh : k = holder
          · subst hh; simp [hk, Mark.apply]
          · simp [hk, hh, Mark.apply]

/-- The nodes that are not devices do not take part in claims. -/
theorem lookup_settleClaim_of_ne {g : TopologyGraph} {slot : Slot} {key : DeviceKey} {source : EvidenceSource}
    {remote : Bool} {id : NodeId} (h : ∀ k, id ≠ .device k) :
    (g.settleClaim slot key source remote).nodes.lookup id = g.nodes.lookup id := by
  have hm : ∀ (g : TopologyGraph) k f, (g.modifyNode (.device k) f).nodes.lookup id = g.nodes.lookup id := by
    intro g k f
    rw [lookup_modifyNode, if_neg (h k)]
  unfold settleClaim
  split
  · exact hm _ _ _
  · unfold carryOut
    split <;> simp only [takeSlot, startDispute, hm]

end TopologyGraph

/-! ## What stays of a node -/

section Origin

variable {β : Type} {π : Node → β} {g : TopologyGraph} {ev : TopologyEvidence}

/-- A part of the nodes that neither evidence, nor a claim, nor the note of the command changes is as it was, or that
of a new node. -/
theorem origin_exec (hsupport : ∀ n c p, π (n.support c p) = π n)
    (hmark : ∀ a r n (m : Mark), π (m.apply a r n) = π n)
    {c : Command} (hnote : ∀ id note, c = .note id note → ∀ n, π (note.write ev.isRemote n) = π n) {id : NodeId}
    {n' : Node} (h : (exec ev g c).nodes.lookup id = some n') :
    (∃ n, g.nodes.lookup id = some n ∧ π n' = π n) ∨
      (g.nodes.lookup id = none ∧ ∃ kind, c = .upsert id kind ∧ π n' = π (.new id kind ev.confidence)) := by
  cases c with
  | upsert j kind =>
    rw [exec, TopologyGraph.lookup_upsert] at h
    split_ifs at h with hid
    · subst hid
      cases h
      cases hn : g.nodes.lookup id with
      | none => exact .inr ⟨rfl, kind, rfl, hsupport _ _ _⟩
      | some n => exact .inl ⟨n, rfl, hsupport _ _ _⟩
    · exact .inl ⟨n', h, rfl⟩
  | note j note =>
    rw [exec, TopologyGraph.lookup_modifyNode] at h
    split_ifs at h with hid
    · subst hid
      obtain ⟨n, hn, rfl⟩ := Option.map_eq_some_iff.mp h
      exact .inl ⟨n, hn, hnote id note rfl n⟩
    · exact .inl ⟨n', h, rfl⟩
  | claim slot key =>
    by_cases hj : ∃ k, id = .device k
    · obtain ⟨k, rfl⟩ := hj
      rw [exec, TopologyGraph.lookup_settleClaim] at h
      obtain ⟨n, hn, rfl⟩ := Option.map_eq_some_iff.mp h
      exact .inl ⟨n, hn, hmark _ _ _ _⟩
    · rw [exec, TopologyGraph.lookup_settleClaim_of_ne (fun k he => hj ⟨k, he⟩)] at h
      exact .inl ⟨n', h, rfl⟩
  | _ => exact .inl ⟨n', h, rfl⟩

/-- So for a list of commands. -/
theorem origin_foldl (hsupport : ∀ n c p, π (n.support c p) = π n)
    (hmark : ∀ a r n (m : Mark), π (m.apply a r n) = π n)
    {cs : List Command} (hnote : ∀ id note, .note id note ∈ cs → ∀ n, π (note.write ev.isRemote n) = π n)
      {id : NodeId}
    {n' : Node} (h : (cs.foldl (exec ev) g).nodes.lookup id = some n') :
    (∃ n, g.nodes.lookup id = some n ∧ π n' = π n) ∨
      (g.nodes.lookup id = none ∧ ∃ kind, .upsert id kind ∈ cs ∧ π n' = π (.new id kind ev.confidence)) := by
  induction cs generalizing g with
  | nil => exact .inl ⟨n', h, rfl⟩
  | cons c cs ih =>
    have hone : ∀ n, (exec ev g c).nodes.lookup id = some n → _ :=
      fun n hn => origin_exec hsupport hmark (fun j note he => hnote j note (he ▸ List.mem_cons_self)) hn
    rcases ih (fun j note hmem => hnote j note (List.mem_cons_of_mem _ hmem)) h with
      ⟨n, hn, hπ⟩ | ⟨hnone, kind, hmem, hπ⟩
    · rcases hone n hn with ⟨n₀, hn₀, hπ₀⟩ | ⟨hnone, kind, rfl, hπ₀⟩
      · exact .inl ⟨n₀, hn₀, hπ.trans hπ₀⟩
      · exact .inr ⟨hnone, kind, List.mem_cons_self, hπ.trans hπ₀⟩
    · -- a node that is not there after the first command was not there before
      refine .inr ⟨?_, kind, List.mem_cons_of_mem _ hmem, hπ⟩
      cases hn : g.nodes.lookup id with
      | none => rfl
      | some n =>
        have hstay : id ∈ ([c].foldl (exec ev) g).nodes := mem_nodes_foldl.mpr (.inl (Map.mem_of_lookup hn))
        obtain ⟨m, hm⟩ := Map.mem_iff_lookup.mp hstay
        exact absurd (hm.symm.trans hnone) (by simp)

end Origin

/-! ## One operation -/

namespace TopologyGraph

variable {g : TopologyGraph} {ev : TopologyEvidence}

/-- A record that claims no address leaves the slots alone. -/
theorem absorb_slotRecord_of_none (h : g.claimOf ev = none) (s : Slot) :
    (g.absorb ev).slotRecord s = g.slotRecord s := by
  rw [absorb_eq_plan]
  refine foldl_exec_frame (·.slotRecord s) (fun c hc g' => ?_) g
  cases c with
  | claim slot key =>
    obtain ⟨d, a, hf⟩ := claim_mem_planFact hc
    simp [claimOf, hf] at h
  | _ => rfl

/-- A record that claims an address adds the claimant and settles the claim. -/
theorem absorb_of_claimOf {slot : Slot} {key : DeviceKey} (h : g.claimOf ev = some (slot, key)) :
    g.absorb ev = (g.upsert (.device key) .host ev.confidence (.fromEvidence ev)).settleClaim slot key ev.source
      !(Realm.of ev.origin).isLocal := by
  unfold claimOf at h
  split at h
  · rename_i d a hf
    simp only [Option.some.injEq, Prod.mk.injEq] at h
    obtain ⟨rfl, rfl⟩ := h
    simp only [absorb, hf, absorbFact]
    rfl
  · cases h

theorem mergeAddressIdentities_slotRecord (s : Slot) : g.mergeAddressIdentities.1.slotRecord s = g.slotRecord s :=
  mergeAddressIdentities_frame (·.slotRecord s) (fun _ _ _ _ => rfl)

theorem finalizeRoles_slotRecord (s : Slot) : g.finalizeRoles.slotRecord s = g.slotRecord s :=
  (finalizeRoles_frame (·.slotRecord s) (fun _ _ => rfl)).trans (mergeAddressIdentities_slotRecord s)

/-- The tenure of a slot after a record: a claim where the record makes one. -/
def claimed (g : TopologyGraph) (ev : TopologyEvidence) (s : Slot) : Tenure DeviceKey EvidenceSource :=
  match g.claimOf ev with
  | some (slot, key) => if s = slot then (g.tenure s).claim bindingPolicy key ev.source else g.tenure s
  | none => g.tenure s

theorem absorb_slotRecord (h : SlotInv g) (s : Slot) : (g.absorb ev).slotRecord s = (g.claimed ev s).record := by
  unfold claimed
  cases hc : g.claimOf ev with
  | none => rw [absorb_slotRecord_of_none hc]; exact (h s).2
  | some sk =>
    obtain ⟨slot, key⟩ := sk
    have hslot : (g.upsert (.device key) .host ev.confidence (.fromEvidence ev)).slotRecord slot =
        (g.tenure slot).record := (h slot).2
    rw [absorb_of_claimOf hc, settleClaim_slotRecord hslot]
    dsimp only
    split_ifs with hs
    · rw [hs]
    · exact (h s).2

/-- **One record does to every slot what its claim says.** -/
theorem tenure_absorb (h : SlotInv g) (s : Slot) : (g.absorb ev).tenure s = g.claimed ev s :=
  tenure_of_record (absorb_slotRecord h s)

end TopologyGraph

/-- The tenure of a slot after an operation. -/
def GraphOp.claimed (g : TopologyGraph) (s : Slot) : GraphOp → Tenure DeviceKey EvidenceSource
  | .absorb ev => g.claimed ev s
  | .merge => g.tenure s
  | .finalize => g.tenure s

theorem apply_slotRecord {g : TopologyGraph} (h : SlotInv g) (op : GraphOp) (s : Slot) :
    (op.apply g).slotRecord s = (op.claimed g s).record := by
  cases op with
  | absorb ev => exact TopologyGraph.absorb_slotRecord h s
  | merge => exact (TopologyGraph.mergeAddressIdentities_slotRecord s).trans (h s).2
  | finalize => exact (TopologyGraph.finalizeRoles_slotRecord s).trans (h s).2

theorem tenure_apply {g : TopologyGraph} (h : SlotInv g) (op : GraphOp) (s : Slot) :
    (op.apply g).tenure s = op.claimed g s :=
  TopologyGraph.tenure_of_record (apply_slotRecord h op s)

theorem GraphOp.claimed_wf {g : TopologyGraph} (h : SlotInv g) (op : GraphOp) (s : Slot) : (op.claimed g s).Wf := by
  cases op with
  | absorb ev =>
    simp only [GraphOp.claimed, TopologyGraph.claimed]
    split
    · split_ifs
      · exact Tenure.wf_claim (h s).1
      · exact (h s).1
    · exact (h s).1
  | merge => exact (h s).1
  | finalize => exact (h s).1

theorem slotInv_new : SlotInv .new := by
  intro s
  exact ⟨trivial, rfl⟩

/-- Every operation keeps the slots in order. -/
theorem slotInv_apply {g : TopologyGraph} (h : SlotInv g) (op : GraphOp) : SlotInv (op.apply g) := by
  intro s
  rw [tenure_apply h]
  exact ⟨GraphOp.claimed_wf h op s, apply_slotRecord h op s⟩

/-! ## Every run -/

theorem slotInv_build (ops : List GraphOp) : SlotInv (build ops) :=
  run_induction (P := fun _ g => SlotInv g) GraphOp.apply slotInv_new (fun _ op h => slotInv_apply h op) ops

/-- A dispute outlasts any operation, and only gains claimants. -/
theorem disputed_apply {g : TopologyGraph} (h : SlotInv g) (op : GraphOp) {s : Slot} {cs : Finset DeviceKey}
    (hd : g.tenure s = .disputed cs) : ∃ cs', (op.apply g).tenure s = .disputed cs' ∧ cs ⊆ cs' := by
  rw [tenure_apply h]
  cases op with
  | absorb ev =>
    simp only [GraphOp.claimed, TopologyGraph.claimed, hd]
    split
    · split_ifs
      · exact ⟨_, Tenure.claim_disputed, Finset.subset_insert _ _⟩
      · exact ⟨cs, rfl, subset_rfl⟩
    · exact ⟨cs, rfl, subset_rfl⟩
  | merge => exact ⟨cs, hd, subset_rfl⟩
  | finalize => exact ⟨cs, hd, subset_rfl⟩

/-- A dispute outlasts any run. -/
theorem disputed_build (ops more : List GraphOp) {s : Slot} {cs : Finset DeviceKey}
    (hd : (build ops).tenure s = .disputed cs) :
    ∃ cs', (build (ops ++ more)).tenure s = .disputed cs' ∧ cs ⊆ cs' := by
  induction more using List.reverseRecOn with
  | nil => exact ⟨cs, by simpa using hd, subset_rfl⟩
  | append_singleton more op ih =>
    obtain ⟨cs₁, h₁, hsub₁⟩ := ih
    obtain ⟨cs₂, h₂, hsub₂⟩ := disputed_apply (slotInv_build _) op h₁
    rw [← List.append_assoc, build_concat]
    exact ⟨cs₂, h₂, hsub₁.trans hsub₂⟩

section Lookups

variable {g : TopologyGraph} {s : Slot}

theorem lookups_of_tenure (h : SlotInv g) :
    g.addressOwner.lookup s = (g.tenure s).record.1 ∧ g.addressBinding.lookup s = (g.tenure s).record.2.1 ∧
      g.contestedAddresses.lookup s = (g.tenure s).record.2.2 := by
  have hr : g.slotRecord s = (g.tenure s).record := (h s).2
  exact ⟨congrArg Prod.fst hr, congrArg (fun r => r.2.1) hr, congrArg (fun r => r.2.2) hr⟩

theorem tenure_of_contested (h : SlotInv g) {cs : Finset DeviceKey} (hc : g.contestedAddresses.lookup s = some cs) :
    g.tenure s = .disputed cs := by
  have hl := (lookups_of_tenure (s := s) h).2.2
  rw [hc] at hl
  cases ht : g.tenure s with
  | vacant => rw [ht] at hl; cases hl
  | held holder since => rw [ht] at hl; cases hl
  | disputed ds => rw [ht] at hl; cases hl; rfl

theorem tenure_of_owner (h : SlotInv g) {k : DeviceKey} (ho : g.addressOwner.lookup s = some k) :
    ∃ since, g.tenure s = .held k since := by
  have hl := (lookups_of_tenure (s := s) h).1
  rw [ho] at hl
  cases ht : g.tenure s with
  | vacant => rw [ht] at hl; cases hl
  | held holder since => rw [ht] at hl; cases hl; exact ⟨since, rfl⟩
  | disputed ds => rw [ht] at hl; cases hl

theorem contested_of_tenure (h : SlotInv g) {cs : Finset DeviceKey} (ht : g.tenure s = .disputed cs) :
    g.contestedAddresses.lookup s = some cs ∧ g.addressOwner.lookup s = none := by
  obtain ⟨ho, -, hc⟩ := lookups_of_tenure (s := s) h
  rw [ht] at ho hc
  exact ⟨hc, ho⟩

theorem owner_of_tenure (h : SlotInv g) {k : DeviceKey} {since : EvidenceSource} (ht : g.tenure s = .held k since) :
    g.addressOwner.lookup s = some k ∧ g.addressBinding.lookup s = some since := by
  obtain ⟨ho, hb, -⟩ := lookups_of_tenure (s := s) h
  rw [ht] at ho hb
  exact ⟨ho, hb⟩

end Lookups

/-- **The slots of every reachable graph are consistent**: a slot has an owner exactly when it has a binding, none is
owned and contested at once, a contested slot has two claimants at least, and stays contested whatever is done next,
its claimants only growing. -/
theorem slots_consistent (ops : List GraphOp) :
    (∀ s, s ∈ (build ops).addressOwner ↔ s ∈ (build ops).addressBinding) ∧
    (∀ s, ¬(s ∈ (build ops).addressOwner ∧ s ∈ (build ops).contestedAddresses)) ∧
    (∀ s cs, (build ops).contestedAddresses.lookup s = some cs → ∃ a ∈ cs, ∃ b ∈ cs, a ≠ b) ∧
    (∀ s cs, (build ops).contestedAddresses.lookup s = some cs → ∀ more,
      ∃ cs', (build (ops ++ more)).contestedAddresses.lookup s = some cs' ∧ cs ⊆ cs' ∧
        s ∉ (build (ops ++ more)).addressOwner) := by
  have hinv := slotInv_build ops
  refine ⟨fun s => ?_, fun s hs => ?_, fun s cs hc => ?_, fun s cs hc more => ?_⟩
  · obtain ⟨ho, hb, -⟩ := lookups_of_tenure (s := s) hinv
    rw [Map.mem_iff_lookup, Map.mem_iff_lookup, ho, hb]
    cases (build ops).tenure s <;> simp [Tenure.record]
  · obtain ⟨ho, hc⟩ := hs
    obtain ⟨cs, hc⟩ := Map.mem_iff_lookup.mp hc
    obtain ⟨k, ho⟩ := Map.mem_iff_lookup.mp ho
    have hn := (contested_of_tenure hinv (tenure_of_contested hinv hc)).2
    rw [ho] at hn
    cases hn
  · have hw := (hinv s).1
    rw [tenure_of_contested hinv hc] at hw
    obtain ⟨a, ha, b, hb, hab⟩ := Finset.one_lt_card.mp hw
    exact ⟨a, ha, b, hb, hab⟩
  · obtain ⟨cs', hd, hsub⟩ := disputed_build ops more (tenure_of_contested hinv hc)
    obtain ⟨hc', ho'⟩ := contested_of_tenure (slotInv_build _) hd
    refine ⟨cs', hc', hsub, fun hmem => ?_⟩
    obtain ⟨k, hk⟩ := Map.mem_iff_lookup.mp hmem
    rw [ho'] at hk
    cases hk

end Idnx
