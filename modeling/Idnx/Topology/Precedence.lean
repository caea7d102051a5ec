import Idnx.Topology.Marks

/-!
# Who said it

A peer may fill in the vendor of a device, or why visibility stops there, and must never override what this machine
established. `absorb` sees to it by looking at the node it is about to change. A merge folds two nodes that each may
carry a text already, keeps the one that was there, and does not know where it came from.

`LocallyGiven` follows what local records gave for an identity through every merge. `local_statements_kept`: it is
never overridden in a run whose merges fold no such identity behind one that carries only what a peer said.
-/

namespace Idnx

/-! ## Statements -/

/-- What a peer may fill in and never override. -/
inductive Statement where
  | vendor
  | boundary
  deriving DecidableEq, Repr

namespace Statement

def note : Statement → Text → Note
  | .vendor => .vendor
  | .boundary => .boundary

/-- The text a node carries. -/
def on : Statement → Node → Option Text
  | .vendor => Node.vendor
  | .boundary => Node.opaqueReason

variable (s : Statement)

/-- The text a device of the graph carries. -/
def of (g : TopologyGraph) (key : DeviceKey) : Option Text := (g.nodes.lookup (.device key)).bind s.on

end Statement

/-- A local record gave `text` for what is the device `key` after the run. -/
inductive LocallyGiven (s : Statement) : List GraphOp → DeviceKey → Text → Prop
  | record {ops : List GraphOp} {ev : TopologyEvidence} {key : DeviceKey} {text : Text} : ev.origin = none →
    ev.fact.remark = some (key, s.note text) →
    LocallyGiven s (ops ++ [.absorb ev]) ((build ops).canonicalKey key none .localRealm) text
  | absorb {ops : List GraphOp} {ev : TopologyEvidence} {key : DeviceKey} {text : Text} :
    LocallyGiven s ops key text → LocallyGiven s (ops ++ [.absorb ev]) key text
  | merge {ops : List GraphOp} {key : DeviceKey} {text : Text} : LocallyGiven s ops key text →
    LocallyGiven s (ops ++ [.merge]) (rename (build ops).merges key) text
  | finalize {ops : List GraphOp} {key : DeviceKey} {text : Text} : LocallyGiven s ops key text →
    LocallyGiven s (ops ++ [.finalize]) (rename (build ops).merges key) text

/-- What the next merge makes one device of `key`, in the order in which it is folded. -/
def TopologyGraph.family (g : TopologyGraph) (key : DeviceKey) : List DeviceKey :=
  key :: (g.merges.filter fun m => m.2 = key).map Prod.fst

/-- If one of the identities that a merge makes one device was given a text locally, so was the first of them that
carries one. -/
def KeepsPrecedence (s : Statement) (ops : List GraphOp) (g : TopologyGraph) : GraphOp → Prop
  | .absorb _ => True
  | _ => ∀ owner, (∃ key ∈ g.family owner, ∃ text, LocallyGiven s ops key text) →
      ∀ first, (g.family owner).find? (fun key => (s.of g key).isSome) = some first → ∃ text,
        LocallyGiven s ops first text

/-- Every device that a local record gave a text for carries one that a local record gave. -/
def Precedence (s : Statement) (ops : List GraphOp) (g : TopologyGraph) : Prop :=
  ∀ key text, LocallyGiven s ops key text → ∃ text', s.of g key = some text' ∧ LocallyGiven s ops key text'

/-! ## One record -/

section Step

variable {s : Statement} {g : TopologyGraph} {ev : TopologyEvidence} {key : DeviceKey} {texts : Text → Prop}

/-- The device is known here and carries one of the texts. -/
def Statement.Held (s : Statement) (g : TopologyGraph) (key : DeviceKey) (texts : Text → Prop) : Prop :=
  ∃ n text, g.nodes.lookup (.device key) = some n ∧ n.locallyObserved = true ∧ s.on n = some text ∧ texts text

theorem Statement.Held.of_eq (h : s.Held g key texts) : ∃ text, s.of g key = some text ∧ texts text := by
  obtain ⟨n, text, hn, -, hon, htext⟩ := h
  exact ⟨text, by rw [Statement.of, hn]; exact hon, htext⟩

theorem on_support (n : Node) (c : Confidence) (p : Provenance) : s.on (n.support c p) = s.on n := by
  cases s <;> rfl

theorem on_mark (m : Mark) (address : IpAddr) (remote : Bool) (n : Node) :
    s.on (m.apply address remote n) = s.on n := by
  cases s <;> cases m <;> rfl

/-- A text replaces the one that is there, unless a peer gives it and the node is known here. -/
theorem on_write_note (n : Node) (text : Text) (remote : Bool) : s.on ((s.note text).write remote n) =
    if remote && ((s.on n).isSome && n.locallyObserved) then s.on n else some text := by
  cases s with
  | vendor => exact apply_ite Node.vendor _ n { n with vendor := some text }
  | boundary => exact apply_ite Node.opaqueReason _ n { n with opaqueReason := some text }

/-- Other notes leave it alone. -/
theorem on_write_of_ne (n : Node) {note : Note} (remote : Bool) (hne : ∀ text, note ≠ s.note text) :
    s.on (note.write remote n) = s.on n := by
  cases s with
  | vendor =>
    cases note with
    | vendor v => exact absurd rfl (hne v)
    | boundary w => unfold Note.write; split_ifs <;> rfl
    | _ => rfl
  | boundary =>
    cases note with
    | boundary w => exact absurd rfl (hne w)
    | vendor v => unfold Note.write; split_ifs <;> rfl
    | _ => rfl

/-- One command keeps what is held, or replaces it by a local note. -/
theorem held_exec {c : Command} (hnew : ∀ text, c = .note (.device key) (s.note text) → ev.isRemote = false →
    texts text)
    (h : s.Held g key texts) : s.Held (exec ev g c) key texts := by
  obtain ⟨n, text, hn, hlocal, hon, htext⟩ := h
  cases c with
  | upsert id kind =>
    rw [Statement.Held, exec, TopologyGraph.lookup_upsert]
    by_cases hid : NodeId.device key = id
    · subst hid
      rw [if_pos rfl, hn]
      exact ⟨_, text, rfl, (locallyObserved_support n ev).mpr (.inl hlocal), (on_support n _ _).trans hon, htext⟩
    · rw [if_neg hid]
      exact ⟨n, text, hn, hlocal, hon, htext⟩
  | note id note =>
    rw [Statement.Held, exec, TopologyGraph.lookup_modifyNode]
    by_cases hid : NodeId.device key = id
    · subst hid
      rw [if_pos rfl, hn]
      have hlocal' : (note.write ev.isRemote n).locallyObserved = true := by
        rw [Node.locallyObserved, (Note.write_evidence _ n note).2]
        exact hlocal
      by_cases hown : ∃ text', note = s.note text'
      · obtain ⟨text', rfl⟩ := hown
        have hwrite := @on_write_note s n text' ev.isRemote
        rw [hon, hlocal] at hwrite
        cases hremote : ev.isRemote with
        | true =>
          rw [hremote] at hwrite hlocal'
          exact ⟨_, text, rfl, hlocal', hwrite, htext⟩
        | false =>
          rw [hremote] at hwrite hlocal'
          exact ⟨_, text', rfl, hlocal', hwrite, hnew text' rfl hremote⟩
      · exact ⟨_, text, rfl, hlocal', (on_write_of_ne n _ fun t ht => hown ⟨t, ht⟩).trans hon, htext⟩
    · rw [if_neg hid]
      exact ⟨n, text, hn, hlocal, hon, htext⟩
  | claim slot holder =>
    rw [Statement.Held, exec, TopologyGraph.lookup_settleClaim, hn]
    refine ⟨_, text, rfl, ?_, (on_mark _ _ _ n).trans hon, htext⟩
    rw [Node.locallyObserved, (Mark.apply_evidence _ _ n _).2]
    exact hlocal
  | _ => exact ⟨n, text, hn, hlocal, hon, htext⟩

/-- A local record that states a text adds the device and notes the text, in this order. -/
theorem plan_remark {owner : Slot → Option DeviceKey} {text : Text} (horigin : ev.origin = none)
    (h : ev.fact.remark = some (key, s.note text)) : plan owner ev =
      [.upsert (.device (resolveKey owner key none .localRealm)) .host,
        .note (.device (resolveKey owner key none .localRealm)) (s.note text)] := by
  have hfact : qualifyFact ev.fact (Realm.of ev.origin) = ev.fact := by
    rw [horigin]
    rfl
  unfold plan
  rw [hfact]
  cases hf : ev.fact with
  | deviceVendor device vendor =>
    rw [hf] at h
    cases s with
    | vendor => cases h; rw [planFact, horigin]; rfl
    | boundary => cases h
  | opaqueBoundary device why =>
    rw [hf] at h
    cases s with
    | vendor => cases h
    | boundary => cases h; rw [planFact, horigin]; rfl
  | _ =>
    rw [hf] at h
    cases s <;> cases h

/-- Only such a record notes the text. -/
theorem remark_of_note {owner : Slot → Option DeviceKey} {fact : Fact} {text : Text}
    (h : Command.note (.device key) (s.note text) ∈ planFact owner ev fact) :
    ∃ device, fact.remark = some (device, s.note text) ∧ key = fileUnder owner ev fact device := by
  generalize hnote : s.note text = note at h
  generalize hid : NodeId.device key = id at h
  cases mem_planFact_iff.mp h with
  | remark hr => exact ⟨_, hnote ▸ hr, NodeId.device.inj hid⟩
  | offer => cases hid
  | resolve ho => cases s <;> cases hnote

end Step

/-! ## One merge -/

section Merge

variable {s : Statement} {g : TopologyGraph} {key : DeviceKey}

/-- The text on a folded node is the one that was there, or that of the node that is folded in. -/
theorem on_foldNode (t n : Node) : s.on (foldNode t n) = (s.on t).or (s.on n) := by
  rw [foldNode_eq]
  cases s with
  | vendor => cases ht : t.vendor <;> simp [Statement.on, ht]
  | boundary => cases ht : t.opaqueReason <;> simp [Statement.on, ht]

/-- What a device carries after a merge is what the first of its family carried. -/
theorem of_merge (hkey : .device key ∈ g.nodes) (hstays : .device key ∉ g.absorbedIds) :
    s.of g.mergeAddressIdentities.1 key = (g.family key).findSome? (s.of g) := by
  have hfamily : (NodeId.device key :: g.absorbedIds.filter fun k => g.destination k = some (.device key)) =
      (g.family key).map .device := by
    unfold TopologyGraph.family TopologyGraph.absorbedIds
    rw [List.map_cons, List.map_map, List.filter_map]
    refine congrArg _ (congrArg _ (List.filter_congr fun m hm => ?_))
    have htarget : g.mergeTarget m.1 = some m.2 := (TopologyGraph.mem_merges.mp hm).2.1
    simp [TopologyGraph.destination, htarget]
  unfold Statement.of
  rw [TopologyGraph.mergeAddressIdentities_eq]
  refine (Map.findSome_relocateAll s.on on_foldNode g.absorbedIds_nodup
    (fun _ _ i hi hd => TopologyGraph.destination_not_absorbed hd hi) hkey hstays).trans ?_
  rw [hfamily, List.findSome?_map]
  rfl

theorem mem_family {j : DeviceKey} : j ∈ g.family key ↔ j = key ∨ (j, key) ∈ g.merges := by
  unfold TopologyGraph.family
  simp only [List.mem_cons, List.mem_map, List.mem_filter, decide_eq_true_eq]
  constructor
  · rintro (rfl | ⟨⟨k, owner⟩, ⟨hm, rfl⟩, rfl⟩)
    · exact .inl rfl
    · exact .inr hm
  · rintro (rfl | hm)
    · exact .inl rfl
    · exact .inr ⟨(j, key), ⟨hm, rfl⟩, rfl⟩

/-- Every identity is of the family of the device it becomes. -/
theorem mem_family_rename (g : TopologyGraph) (j : DeviceKey) : j ∈ g.family (rename g.merges j) := by
  by_cases hm : ∃ m ∈ g.merges, m.1 = j
  · exact mem_family.mpr (.inr (rename_of_mem hm))
  · rw [mem_family, rename_of_not_mem fun m hmem he => hm ⟨m, hmem, he⟩]
    exact .inl rfl

/-- And the family of a device that stays is what becomes it. -/
theorem rename_of_mem_family {j : DeviceKey} (hstays : .device key ∉ g.absorbedIds) (h : j ∈ g.family key) :
    rename g.merges j = key := by
  have hnode : renameNode g.merges (.device j) = .device key := by
    obtain rfl | hm := mem_family.mp h
    · exact TopologyGraph.renameNode_of_not_absorbed hstays
    · exact TopologyGraph.renameNode_absorbed (TopologyGraph.mem_merges.mp hm)
  rw [renameNode_device] at hnode
  exact NodeId.device.inj hnode

theorem findSome?_of_find? {α β : Type} {f : α → Option β} {l : List α} {a : α}
    (h : l.find? (fun a => (f a).isSome) = some a) : l.findSome? f = f a := by
  induction l with
  | nil => cases h
  | cons b l ih =>
    rw [List.find?_cons] at h
    rw [List.findSome?_cons]
    cases hb : f b with
    | none =>
      rw [hb] at h
      exact ih h
    | some c =>
      rw [hb] at h
      cases h
      exact hb.symm

end Merge

/-! ## Runs -/

section Runs

variable {s : Statement} {ops : List GraphOp} {key : DeviceKey} {text : Text}

theorem locallyGiven_absorb {ev : TopologyEvidence} : LocallyGiven s (ops ++ [GraphOp.absorb ev]) key text ↔
    LocallyGiven s ops key text ∨ ev.origin = none ∧ ∃ device, ev.fact.remark = some (device, s.note text) ∧
      key = (build ops).canonicalKey device none .localRealm := by
  constructor
  · intro h
    generalize hops : ops ++ [GraphOp.absorb ev] = ops' at h
    cases h with
    | record horigin hr =>
      obtain ⟨rfl, hop⟩ := List.append_inj' hops rfl
      cases hop
      exact .inr ⟨horigin, _, hr, rfl⟩
    | absorb h =>
      obtain ⟨rfl, hop⟩ := List.append_inj' hops rfl
      exact .inl h
    | merge h => cases (List.append_inj' hops rfl).2
    | finalize h => cases (List.append_inj' hops rfl).2
  · rintro (h | ⟨horigin, device, hr, rfl⟩)
    · exact .absorb h
    · exact .record horigin hr

/-- A merge takes what was given for an identity to the device it becomes. -/
theorem locallyGiven_merge {op : GraphOp} (hop : op = .merge ∨ op = .finalize) :
    LocallyGiven s (ops ++ [op]) key text ↔ ∃ j, rename (build ops).merges j = key ∧ LocallyGiven s ops j text := by
  constructor
  · intro h
    generalize hops : ops ++ [op] = ops' at h
    cases h with
    | merge h =>
      obtain ⟨rfl, -⟩ := List.append_inj' hops rfl
      exact ⟨_, rfl, h⟩
    | finalize h =>
      obtain ⟨rfl, -⟩ := List.append_inj' hops rfl
      exact ⟨_, rfl, h⟩
    | record => rcases hop with rfl | rfl <;> cases (List.append_inj' hops rfl).2
    | absorb => rcases hop with rfl | rfl <;> cases (List.append_inj' hops rfl).2
  · rintro ⟨j, rfl, h⟩
    rcases hop with rfl | rfl
    · exact .merge h
    · exact .finalize h

/-- What was given came from a local record. -/
theorem LocallyGiven.exists_record (h : LocallyGiven s ops key text) :
    ∃ ev, GraphOp.absorb ev ∈ ops ∧ ev.origin = none ∧ ∃ device, ev.fact.remark = some (device, s.note text) := by
  induction h with
  | record horigin hr => exact ⟨_, by simp, horigin, _, hr⟩
  | absorb _ ih =>
    obtain ⟨ev, hmem, hrecord⟩ := ih
    exact ⟨ev, List.mem_append_left _ hmem, hrecord⟩
  | merge _ ih =>
    obtain ⟨ev, hmem, hrecord⟩ := ih
    exact ⟨ev, List.mem_append_left _ hmem, hrecord⟩
  | finalize _ ih =>
    obtain ⟨ev, hmem, hrecord⟩ := ih
    exact ⟨ev, List.mem_append_left _ hmem, hrecord⟩

/-- What a run keeps: every device that was given a text locally is known here, and carries such a text. -/
def Kept (s : Statement) (ops : List GraphOp) (g : TopologyGraph) : Prop :=
  ∀ key text, LocallyGiven s ops key text → s.Held g key (LocallyGiven s ops key)

theorem kept_absorb {ev : TopologyEvidence} (h : Kept s ops (build ops)) :
    Kept s (ops ++ [GraphOp.absorb ev]) ((build ops).absorb ev) := by
  intro key text hgiven
  rw [absorb_eq_plan]
  -- a note of the plan is what the record gives
  have hnew : ∀ c ∈ plan ((build ops).addressOwner.lookup ·) ev, ∀ text, c = .note (.device key) (s.note text) →
      ev.isRemote = false → LocallyGiven s (ops ++ [GraphOp.absorb ev]) key text := by
    rintro c hc text rfl hremote
    have horigin : ev.origin = none := by simpa [TopologyEvidence.isRemote] using hremote
    obtain ⟨device, hr, hkey⟩ := remark_of_note hc
    have hfact : qualifyFact ev.fact (Realm.of ev.origin) = ev.fact := by rw [horigin]; rfl
    rw [hfact] at hr hkey
    have hclaimed : ev.fact.claimed = none := by
      cases hf : ev.fact with
      | deviceAddress d a => rw [hf] at hr; cases hr
      | _ => rfl
    refine locallyGiven_absorb.mpr (.inr ⟨horigin, device, hr, ?_⟩)
    rw [hkey, fileUnder, hclaimed, horigin]
    rfl
  obtain hold | ⟨horigin, device, hr, rfl⟩ := locallyGiven_absorb.mp hgiven
  · obtain ⟨n, text', hn, hlocal, hon, htext⟩ := h key text hold
    exact foldl_exec_inv (P := fun g => s.Held g key (LocallyGiven s (ops ++ [GraphOp.absorb ev]) key))
      (fun c hc g hg => held_exec (hnew c hc) hg) ⟨n, text', hn, hlocal, hon, .absorb htext⟩
  · have hremote : ev.isRemote = false := by rw [TopologyEvidence.isRemote, horigin]; rfl
    rw [plan_remark horigin hr, List.foldl_cons, List.foldl_cons, List.foldl_nil, ← canonicalKey_eq, Statement.Held,
      exec, exec, TopologyGraph.lookup_modifyNode, if_pos rfl, TopologyGraph.lookup_upsert, if_pos rfl]
    refine ⟨_, text, rfl, ?_, ?_, hgiven⟩
    · rw [Node.locallyObserved, (Note.write_evidence _ _ _).2]
      exact (locallyObserved_support _ ev).mpr (.inr horigin)
    · rw [on_write_note, hremote]
      rfl

/-- A merge that keeps precedence keeps what was given. -/
theorem held_merge (h : Kept s ops (build ops)) (hkeeps : KeepsPrecedence s ops (build ops) .merge)
    (hgiven : ∃ j, rename (build ops).merges j = key ∧ LocallyGiven s ops j text) :
    s.Held (build ops).mergeAddressIdentities.1 key
      fun text => ∃ j, rename (build ops).merges j = key ∧ LocallyGiven s ops j text := by
  generalize hg : build ops = g at *
  obtain ⟨j, rfl, hj⟩ := hgiven
  obtain ⟨n, -, hn, hlocal, -, -⟩ := h j text hj
  have hstays : .device (rename g.merges j) ∉ g.absorbedIds := by
    rw [← renameNode_device]
    exact TopologyGraph.renameNode_not_absorbed g _
  have hmem : .device (rename g.merges j) ∈ g.nodes := by
    obtain heq | hm := mem_family.mp (mem_family_rename g j)
    · rw [← heq]
      exact Map.mem_of_lookup hn
    · exact (TopologyGraph.mem_merges.mp hm).2.2
  -- the first of the family that carries a text was given it here
  obtain ⟨first, hfirst⟩ : ∃ first, (g.family (rename g.merges j)).find?
    (fun k => (s.of g k).isSome) = some first := by
    obtain ⟨text', htext', -⟩ := (h j text hj).of_eq
    rw [← Option.isSome_iff_exists, List.find?_isSome]
    exact ⟨j, mem_family_rename g j, by rw [htext']; rfl⟩
  obtain ⟨_, hgivenFirst⟩ := hkeeps _ ⟨j, mem_family_rename g j, text, hj⟩ first hfirst
  obtain ⟨text', hof, htext'⟩ := (h first _ hgivenFirst).of_eq
  have hmerged : s.of g.mergeAddressIdentities.1 (rename g.merges j) = some text' := by
    rw [of_merge hmem hstays, findSome?_of_find? hfirst, hof]
  obtain ⟨n', hn', hlocal'⟩ := locallyKnown_device_merge.mpr ⟨j, rfl, n, hn, hlocal⟩
  refine ⟨n', text', hn', hlocal', ?_, first, rename_of_mem_family hstays (List.mem_of_find?_eq_some hfirst), htext'⟩
  rw [Statement.of, hn'] at hmerged
  exact hmerged

theorem held_finalizeRoles {g : TopologyGraph} {texts : Text → Prop}
    (h : s.Held g.mergeAddressIdentities.1 key texts) :
    s.Held g.finalizeRoles key texts := by
  obtain ⟨n, text, hn, hheld⟩ := h
  obtain ⟨n', hn', hheld'⟩ := (TopologyGraph.exists_node_finalizeRoles (j := .device key)
    (Φ := fun n => n.locallyObserved = true ∧ s.on n = some text ∧ texts text)
    (fun n kind => by cases s <;> rfl)).mpr ⟨n, hn, hheld⟩
  exact ⟨n', text, hn', hheld'⟩

theorem kept_step {op : GraphOp} (h : Kept s ops (build ops)) (hkeeps : KeepsPrecedence s ops (build ops) op) :
    Kept s (ops ++ [op]) (op.apply (build ops)) := by
  cases op with
  | absorb ev => exact kept_absorb h
  | merge =>
    intro key text hgiven
    obtain ⟨n, text', hn, hlocal, hon, htext⟩ := held_merge h hkeeps ((locallyGiven_merge (.inl rfl)).mp hgiven)
    exact ⟨n, text', hn, hlocal, hon, (locallyGiven_merge (.inl rfl)).mpr htext⟩
  | finalize =>
    intro key text hgiven
    obtain ⟨n, text', hn, hlocal, hon, htext⟩ :=
      held_finalizeRoles (held_merge h hkeeps ((locallyGiven_merge (.inr rfl)).mp hgiven))
    exact ⟨n, text', hn, hlocal, hon, (locallyGiven_merge (.inr rfl)).mpr htext⟩

end Runs

/-- **A peer never overrides what this machine established**, in any run whose merges keep precedence. -/
theorem local_statements_kept (s : Statement) (ops : List GraphOp)
    (h : Along GraphOp.apply (KeepsPrecedence s) .new ops) : Always GraphOp.apply (Precedence s) .new ops := by
  have hnone : Kept s [] .new := by
    intro key text hgiven
    generalize hops : ([] : List GraphOp) = ops at hgiven
    cases hgiven <;> simp at hops
  have hkept : Always GraphOp.apply (Kept s) .new ops := always_of_along hnone (fun _ _ hk hc => kept_step hk hc) h
  intro before after hsplit key text hgiven
  exact (hkept before after hsplit key text hgiven).of_eq

/-! ## Two runs -/

/-- What this machine learned of the vendor of `10.0.0.1`. -/
def vendorHere : TopologyEvidence :=
  { fact := .deviceVendor (.address (.v4 0x0A000001)) "local", source := .ssdp, confidence := .observed, vantage := "eth0" }

/-- What a peer says of the vendor of the hardware that answers there. -/
def vendorThere : TopologyEvidence :=
  { fact := .deviceVendor (.mac "00:00:5e:00:00:01") "peer", source := .ssdp, confidence := .observed, vantage := "eth0",
    origin := some ⟨"p", "eth0", 1, 0⟩ }

/-- The record that joins the two. -/
def hardwareHere : TopologyEvidence :=
  { fact := .deviceAddress (.mac "00:00:5e:00:00:01") (.v4 0x0A000001), source := .arpCache, confidence := .observed,
    vantage := "eth0" }

/-- A merge folds the node known here behind the one the peer described. -/
def vendorRun : List GraphOp := [.absorb vendorHere, .absorb vendorThere, .absorb hardwareHere, .merge]

theorem peer_vendor_overrides_local : LocallyGiven .vendor vendorRun (.mac "00:00:5e:00:00:01") "local" ∧
    Statement.vendor.of (build vendorRun) (.mac "00:00:5e:00:00:01") = some "peer" ∧
    ¬ Precedence .vendor vendorRun (build vendorRun) := by
  have hrecord : LocallyGiven .vendor ([] ++ [GraphOp.absorb vendorHere]) (.address (.v4 0x0A000001)) "local" :=
    locallyGiven_absorb.mpr (.inr ⟨rfl, _, rfl, by decide⟩)
  have hgiven : LocallyGiven .vendor ([] ++ [GraphOp.absorb vendorHere] ++ [GraphOp.absorb vendorThere] ++
      [GraphOp.absorb hardwareHere]) (.address (.v4 0x0A000001)) "local" := .absorb (.absorb hrecord)
  have hrename : rename (build [.absorb vendorHere, .absorb vendorThere, .absorb hardwareHere]).merges
      (.address (.v4 0x0A000001)) = .mac "00:00:5e:00:00:01" := by decide
  have hlocal : LocallyGiven .vendor vendorRun (.mac "00:00:5e:00:00:01") "local" := by
    rw [← hrename]
    exact .merge hgiven
  have hpeer : Statement.vendor.of (build vendorRun) (.mac "00:00:5e:00:00:01") = some "peer" := by decide
  refine ⟨hlocal, hpeer, fun h => ?_⟩
  obtain ⟨text, hof, htext⟩ := h _ _ hlocal
  rw [hpeer] at hof
  cases hof
  obtain ⟨ev, hmem, horigin, device, hr⟩ := htext.exists_record
  simp only [vendorRun, List.mem_cons, GraphOp.absorb.injEq, List.not_mem_nil, or_false, reduceCtorEq] at hmem
  obtain rfl | rfl | rfl := hmem
  · injection hr with hr
    injection hr with _ hr
    injection hr with hr
    exact absurd hr (by decide)
  · cases horigin
  · cases hr

/-- A merge that folds it behind hardware nobody described keeps it, and the peer comes too late. -/
theorem local_statements_kept_vendor : Always GraphOp.apply (Precedence .vendor) .new
    [.absorb vendorHere, .absorb hardwareHere, .merge, .absorb vendorThere] := by
  refine local_statements_kept .vendor _ ?_
  simp only [along_cons, along_nil, and_true]
  refine ⟨trivial, trivial, ?_, trivial⟩
  change KeepsPrecedence .vendor ([] ++ [GraphOp.absorb vendorHere] ++ [GraphOp.absorb hardwareHere])
    (build [.absorb vendorHere, .absorb hardwareHere]) .merge
  rintro owner ⟨key, hkey, text, hgiven⟩ first hfirst
  by_cases howner : owner = .mac "00:00:5e:00:00:01"
  · subst howner
    have hfind : ((build [.absorb vendorHere, .absorb hardwareHere]).family (.mac "00:00:5e:00:00:01")).find?
        (fun key => (Statement.vendor.of (build [.absorb vendorHere, .absorb hardwareHere]) key).isSome) =
          some (.address (.v4 0x0A000001)) := by decide
    rw [hfind] at hfirst
    cases hfirst
    exact ⟨"local", .absorb (locallyGiven_absorb.mpr (.inr ⟨rfl, _, rfl, by decide⟩))⟩
  · have hmerges : (build [.absorb vendorHere, .absorb hardwareHere]).merges =
        [(.address (.v4 0x0A000001), .mac "00:00:5e:00:00:01")] := by decide
    generalize build [.absorb vendorHere, .absorb hardwareHere] = g at hmerges hkey hfirst
    have hfamily : g.family owner = [owner] := by
      rw [TopologyGraph.family, hmerges, List.filter_cons_of_neg (by rw [decide_eq_true_eq]; exact Ne.symm howner)]
      rfl
    rw [hfamily] at hkey hfirst
    have hkeyOwner : key = owner := List.mem_singleton.mp hkey
    have hfirstOwner : first = owner := List.mem_singleton.mp (List.mem_of_find?_eq_some hfirst)
    subst hkeyOwner hfirstOwner
    exact ⟨text, hgiven⟩

end Idnx
