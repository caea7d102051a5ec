import Idnx.Topology.Defence
import Idnx.Topology.Lossless
import Mathlib.Order.Bounds.Basic

/-!
# Confidence and provenance

The confidence of a node or an edge should be the best confidence of the evidence for it (`Supported`). `upsert` and
`link` keep it so, and so does the folding of nodes. When a merge brings two edges to the same place, the second joins
the first with its provenance and not with its confidence. The place is taken by the edge that arrives first
(`lead_repointAll`): one that was there, else the one whose ends were renamed earliest. So the confidences stay right
exactly as long as the first to arrive is also the most confident (`supported_iff`).
-/

namespace Idnx

/-- There is evidence, and `c` is the greatest of its confidences. -/
def Best (c : Confidence) (ps : List Provenance) : Prop :=
  ps ≠ [] ∧ IsGreatest {x | ∃ p ∈ ps, p.confidence = x} c

/-- Every node and every edge is as confident as the best evidence for it. -/
structure Supported (g : TopologyGraph) : Prop where
  nodes : ∀ id n, g.nodes.lookup id = some n → Best n.confidence n.provenance
  edges : ∀ k e, g.edges.lookup k = some e → Best e.confidence e.provenance

/-! ## The order in which a merge renames -/

/-- The place of an identity in the order of the merges, counted from one; zero for what is not absorbed. -/
def stage : List (DeviceKey × DeviceKey) → NodeId → Nat
  | [], _ => 0
  | m :: ms, id => if id = .device m.1 then 1 else if stage ms id = 0 then 0 else stage ms id + 1

/-- The first edge has both ends renamed no later than the second; if at the same time, its other end is. -/
def ArrivesBy (ms : List (DeviceKey × DeviceKey)) (i j : EdgeKey) : Prop :=
  max (stage ms i.source) (stage ms i.target) < max (stage ms j.source) (stage ms j.target) ∨
    max (stage ms i.source) (stage ms i.target) = max (stage ms j.source) (stage ms j.target) ∧
      min (stage ms i.source) (stage ms i.target) ≤ min (stage ms j.source) (stage ms j.target)

instance (ms : List (DeviceKey × DeviceKey)) (i j : EdgeKey) : Decidable (ArrivesBy ms i j) :=
  inferInstanceAs (Decidable (_ ∨ _))

/-- Of the edges that the next merge brings to one place, the first to arrive is the most confident. -/
def FirstIsBest (g : TopologyGraph) : Prop :=
  ∀ i e i' e', g.edges.lookup i = some e → g.edges.lookup i' = some e' →
    i.rename g.merges = i'.rename g.merges → (i.rename g.merges).source ≠ (i.rename g.merges).target →
    (∀ k ∈ g.edges, k.rename g.merges = i.rename g.merges → ArrivesBy g.merges i k) → e'.confidence ≤ e.confidence

/-- An operation that folds edges only into more confident ones. -/
def GraphOp.FoldsDown (g : TopologyGraph) : GraphOp → Prop
  | .absorb _ => True
  | .merge => FirstIsBest g
  | .finalize => FirstIsBest g

section Stages

variable {ms : List (DeviceKey × DeviceKey)} {a b : NodeId}

theorem stage_cons (m : DeviceKey × DeviceKey) :
    stage (m :: ms) a = if a = .device m.1 then 1 else if stage ms a = 0 then 0 else stage ms a + 1 := rfl

theorem renameNode_of_stage (h : stage ms a = 0) : renameNode ms a = a := by
  induction ms with
  | nil => rfl
  | cons m ms ih =>
    rw [stage_cons] at h
    rw [renameNode_cons]
    split_ifs at h with ha hs
    rw [if_neg ha]
    exact ih hs

/-- Two absorbed identities have different stages. -/
theorem eq_of_stage (h : stage ms a = stage ms b) (ha : stage ms a ≠ 0) : a = b := by
  induction ms with
  | nil => exact absurd rfl ha
  | cons m ms ih =>
    rw [stage_cons, stage_cons] at h
    rw [stage_cons] at ha
    by_cases h₁ : a = .device m.1
    · by_cases h₂ : b = .device m.1
      · rw [h₁, h₂]
      · rw [if_pos h₁, if_neg h₂] at h
        split_ifs at h
        omega
    · rw [if_neg h₁] at h ha
      by_cases h₂ : b = .device m.1
      · rw [if_pos h₂] at h
        split_ifs at h
        omega
      · have hne : stage ms a ≠ 0 := fun h0 => ha (if_pos h0)
        rw [if_neg h₂, if_neg hne] at h
        split_ifs at h
        exact ih (by omega) hne

/-- Two edges that come to one place at the same time are one. -/
theorem eq_of_arrivesBy {i j : EdgeKey} (hr : i.rename ms = j.rename ms)
    (hs : (i.rename ms).source ≠ (i.rename ms).target) (hij : ArrivesBy ms i j) (hji : ArrivesBy ms j i) : i = j := by
  have hsrc : renameNode ms i.source = renameNode ms j.source := congrArg EdgeKey.source hr
  have htgt : renameNode ms i.target = renameNode ms j.target := congrArg EdgeKey.target hr
  have hrel : (i.rename ms).relationship = (j.rename ms).relationship := congrArg EdgeKey.relationship hr
  have hend : ∀ {a b : NodeId}, renameNode ms a = renameNode ms b → stage ms a = stage ms b → a = b := by
    intro a b hab hst
    by_cases h0 : stage ms a = 0
    · rwa [renameNode_of_stage h0, renameNode_of_stage (hst ▸ h0)] at hab
    · exact eq_of_stage hst h0
  -- a source renamed with a target would make the image a self-edge
  have hcross : ∀ {a b : NodeId}, renameNode ms a ≠ renameNode ms b → stage ms a = stage ms b → stage ms a = 0 := by
    intro a b hab hst
    by_contra h0
    exact hab (by rw [eq_of_stage hst h0])
  have hne₁ : renameNode ms i.source ≠ renameNode ms j.target := by rw [← htgt]; exact hs
  have hne₂ : renameNode ms i.target ≠ renameNode ms j.source := by rw [← hsrc]; exact Ne.symm hs
  have hstages : stage ms i.source = stage ms j.source ∧ stage ms i.target = stage ms j.target := by
    have h₁ := hcross hne₁
    have h₂ := hcross hne₂
    unfold ArrivesBy at hij hji
    rcases Nat.lt_or_ge (stage ms i.source) (stage ms i.target) with hlt | hge
    · rcases Nat.lt_or_ge (stage ms j.source) (stage ms j.target) with hlt' | hge'
      · omega
      · have := h₂ (by omega)
        omega
    · rcases Nat.lt_or_ge (stage ms j.source) (stage ms j.target) with hlt' | hge'
      · have := h₁ (by omega)
        omega
      · by_cases heq : stage ms i.source = stage ms i.target
        · omega
        · omega
  cases i
  cases j
  simp only [EdgeKey.rename] at hsrc htgt hrel hstages
  rw [hend hsrc hstages.1, hend htgt hstages.2, hrel]

end Stages

/-! ## The edge that arrives first -/

section Lead

variable {edges : Map EdgeKey Edge} {old new : NodeId}

theorem EdgeKey.destination_eq_some {k i : EdgeKey} :
    EdgeKey.destination old new k = some i ↔ k.repoint old new = i ∧ i.source ≠ i.target := by
  unfold EdgeKey.destination
  constructor
  · intro h
    split_ifs at h with hs
    cases h
    exact ⟨rfl, hs⟩
  · rintro ⟨rfl, hs⟩
    rw [if_neg hs]

/-- Only one edge that names `old` can be re-pointed to a given place, unless to a self-edge. -/
theorem EdgeKey.repoint_inj {i i' : EdgeKey} (hi : i.source = old ∨ i.target = old)
    (hi' : i'.source = old ∨ i'.target = old) (hr : i.repoint old new = i'.repoint old new)
    (hs : (i.repoint old new).source ≠ (i.repoint old new).target) : i = i' := by
  obtain ⟨a, b, r⟩ := i
  obtain ⟨a', b', r'⟩ := i'
  simp only [EdgeKey.repoint, EdgeKey.mk.injEq] at hi hi' hr hs ⊢
  obtain ⟨h₁, h₂, rfl⟩ := hr
  by_cases ha : a = old <;> by_cases hb : b = old <;> by_cases ha' : a' = old <;> by_cases hb' : b' = old <;>
    simp_all

/-- **One merge.** The confidence at a place is that of the edge that was there or, if there was none, of the one that
was re-pointed to it. -/
theorem lead_repointEdges (h : EdgesKeyed edges) (hne : old ≠ new) {j : EdgeKey} {e' : Edge}
    (he' : (repointEdges old new edges).lookup j = some e') :
    (∃ e, edges.lookup j = some e ∧ ¬(j.source = old ∨ j.target = old) ∧ e'.confidence = e.confidence) ∨
      (edges.lookup j = none ∧ ∃ i e, (i.source = old ∨ i.target = old) ∧ i.repoint old new = j ∧
        j.source ≠ j.target ∧ edges.lookup i = some e ∧ e'.confidence = e.confidence) := by
  unfold repointEdges at he'
  rw [(foldl_repointEdge_eq h _).1] at he'
  have hnd : (affectedEdges edges old).Nodup := (Map.sortedKeys_nodup edges).filter _
  have hd : ∀ k ∈ affectedEdges edges old, ∀ i ∈ affectedEdges edges old, EdgeKey.destination old new k ≠ some i := by
    intro k _ i hi hd
    exact EdgeKey.repoint_ends hne k ((EdgeKey.destination_eq_some.mp hd).1 ▸ (mem_affectedEdges.mp hi).2)
  have hjoin : ∀ t e : Edge, (t.join e).confidence = t.confidence := fun _ _ => rfl
  have hmoved : ∀ e : Edge, (e.repoint old new).confidence = e.confidence := fun _ => rfl
  rcases Map.first_relocateAll Edge.confidence hjoin hmoved hnd hd he' with
    ⟨t, ht, hj, hc⟩ | ⟨hj, i, hi, hdi, e, he, hc⟩
  · exact .inl ⟨t, ht, fun hold => hj (mem_affectedEdges.mpr ⟨Map.mem_of_lookup ht, hold⟩), hc⟩
  · obtain ⟨hr, hs⟩ := EdgeKey.destination_eq_some.mp hdi
    exact .inr ⟨hj, i, e, (mem_affectedEdges.mp hi).2, hr, hs, he, hc⟩

/-- The stage of an end before the first merge of a list, and of where that merge takes it. -/
theorem stage_repoint {m : DeviceKey × DeviceKey} {ms : List (DeviceKey × DeviceKey)} (hm : ∀ b ∈ ms, b.1 ≠ m.2)
    (a : NodeId) :
    (a = .device m.1 → stage (m :: ms) a = 1 ∧ stage ms (if a = .device m.1 then .device m.2 else a) = 0) ∧
    (a ≠ .device m.1 → stage ms (if a = .device m.1 then .device m.2 else a) = stage ms a ∧
      (stage ms a = 0 ∧ stage (m :: ms) a = 0 ∨ 0 < stage ms a ∧ stage (m :: ms) a = stage ms a + 1)) := by
  have h0 : stage ms (.device m.2) = 0 := by
    induction ms with
    | nil => rfl
    | cons b ms ih =>
      have hb : NodeId.device m.2 ≠ .device b.1 := fun he => hm b List.mem_cons_self (NodeId.device.inj he).symm
      have hrest := ih fun c hc => hm c (List.mem_cons_of_mem _ hc)
      rw [stage_cons, if_neg hb, if_pos hrest]
  refine ⟨fun ha => ⟨by rw [stage_cons, if_pos ha], by rw [if_pos ha, h0]⟩, fun ha => ⟨by rw [if_neg ha], ?_⟩⟩
  rw [stage_cons, if_neg ha]
  by_cases hs : stage ms a = 0
  · exact .inl ⟨hs, if_pos hs⟩
  · exact .inr ⟨Nat.pos_of_ne_zero hs, if_neg hs⟩

/-- What putting a merge in front does to a stage: it moves on by one, and may leave zero. -/
def Shifts (v w : Nat) : Prop := v ≤ w ∧ w ≤ v + 1 ∧ (0 < v → w = v + 1)

theorem Shifts.max {v w v' w' : Nat} (h : Shifts v w) (h' : Shifts v' w') : Shifts (max v v') (max w w') := by
  unfold Shifts at *
  omega

theorem Shifts.min {v w v' w' : Nat} (h : Shifts v w) (h' : Shifts v' w') : Shifts (min v v') (min w w') := by
  unfold Shifts at *
  omega

/-- A pair that stays at zero where it is zero stays first. -/
theorem Shifts.lex_le {a b c d a' b' c' d' : Nat} (ha : Shifts a a') (hb : Shifts b b') (hc : Shifts c c')
    (hd : Shifts d d') (ha₀ : a = 0 → a' = 0) (hb₀ : b = 0 → b' = 0) (h : a < c ∨ a = c ∧ b ≤ d) :
    a' < c' ∨ a' = c' ∧ b' ≤ d' := by
  unfold Shifts at *
  omega

/-- A pair that is strictly first stays first. -/
theorem Shifts.lex_lt {a b c d a' b' c' d' : Nat} (ha : Shifts a a') (hb : Shifts b b') (hc : Shifts c c')
    (hd : Shifts d d') (hdc : d ≤ c) (h : ¬(c < a ∨ c = a ∧ d ≤ b)) : a' < c' ∨ a' = c' ∧ b' ≤ d' := by
  unfold Shifts at *
  omega

theorem shifts_stage {m : DeviceKey × DeviceKey} {ms : List (DeviceKey × DeviceKey)} (hm : ∀ b ∈ ms, b.1 ≠ m.2)
    (a : NodeId) : Shifts (stage ms (if a = .device m.1 then .device m.2 else a)) (stage (m :: ms) a) := by
  obtain ⟨h₁, h₂⟩ := stage_repoint hm a
  unfold Shifts
  by_cases ha : a = .device m.1
  · obtain ⟨hw, hv⟩ := h₁ ha
    omega
  · obtain ⟨hv, h⟩ := h₂ ha
    omega

section Arrival

variable {m : DeviceKey × DeviceKey} {ms : List (DeviceKey × DeviceKey)} {i k : EdgeKey}

/-- An edge that the first merge does not rename stays first. -/
theorem arrivesBy_of_not_renamed (hm : ∀ b ∈ ms, b.1 ≠ m.2)
    (hold : ¬(i.source = .device m.1 ∨ i.target = .device m.1))
    (h : ArrivesBy ms i (k.repoint (.device m.1) (.device m.2))) : ArrivesBy (m :: ms) i k := by
  simp only [not_or] at hold
  obtain ⟨-, hs⟩ := (stage_repoint hm i.source).2 hold.1
  obtain ⟨-, ht⟩ := (stage_repoint hm i.target).2 hold.2
  have hsource : Shifts (stage ms i.source) (stage (m :: ms) i.source) := by unfold Shifts; omega
  have htarget : Shifts (stage ms i.target) (stage (m :: ms) i.target) := by unfold Shifts; omega
  have hk := shifts_stage hm k.source
  have hk' := shifts_stage hm k.target
  exact Shifts.lex_le (hsource.max htarget) (hsource.min htarget) (hk.max hk') (hk.min hk') (by omega) (by omega) h

/-- An edge that is strictly first after the first merge was first before it. -/
theorem arrivesBy_of_repoint (hm : ∀ b ∈ ms, b.1 ≠ m.2)
    (h : ¬ArrivesBy ms (k.repoint (.device m.1) (.device m.2)) (i.repoint (.device m.1) (.device m.2))) :
    ArrivesBy (m :: ms) i k := by
  have hi := shifts_stage hm i.source
  have hi' := shifts_stage hm i.target
  have hk := shifts_stage hm k.source
  have hk' := shifts_stage hm k.target
  exact Shifts.lex_lt (hi.max hi') (hi.min hi') (hk.max hk') (hk.min hk') min_le_max h

end Arrival

/-- **All merges.** The confidence at a place is that of the edge that arrives there first. -/
theorem lead_repointAll {ms : List (DeviceKey × DeviceKey)} (h : EdgesKeyed edges)
    (hms : ∀ m ∈ ms, ∀ b ∈ ms, b.1 ≠ m.2) {j : EdgeKey} {e' : Edge} (hj : j.source ≠ j.target)
    (he' : (TopologyGraph.repointAll ms edges).lookup j = some e') :
    ∃ i e, i.rename ms = j ∧ edges.lookup i = some e ∧ e'.confidence = e.confidence ∧
      ∀ k ∈ edges, k.rename ms = j → ArrivesBy ms i k := by
  induction ms generalizing edges with
  | nil =>
    refine ⟨j, e', rfl, he', rfl, fun k _ _ => ?_⟩
    simp [ArrivesBy, stage]
  | cons m ms ih =>
    have hself : m.1 ≠ m.2 := hms m List.mem_cons_self m List.mem_cons_self
    have hne : NodeId.device m.1 ≠ .device m.2 := fun he => hself (NodeId.device.inj he)
    have hrest : ∀ b ∈ ms, b.1 ≠ m.2 := fun b hb => hms m List.mem_cons_self b (List.mem_cons_of_mem _ hb)
    obtain ⟨i₁, e₁, hi₁, he₁, hc₁, hfirst⟩ := @ih (repointEdges (.device m.1) (.device m.2) edges)
      (edgesKeyed_repointEdges h) (fun a ha b hb => hms a (List.mem_cons_of_mem _ ha) b
        (List.mem_cons_of_mem _ hb)) he'
    -- every edge that comes to `j` is at its re-pointed place after the first merge
    have hmoved : ∀ k ∈ edges, k.rename (m :: ms) = j →
        (k.repoint (.device m.1) (.device m.2)).rename ms = j ∧
          ArrivesBy ms i₁ (k.repoint (.device m.1) (.device m.2)) := by
      intro k hk hkj
      have hr : (k.repoint (.device m.1) (.device m.2)).rename ms = j := by rw [EdgeKey.rename_repoint hrest, hkj]
      refine ⟨hr, hfirst _ ?_ hr⟩
      have hs : (k.repoint (.device m.1) (.device m.2)).source ≠ (k.repoint (.device m.1) (.device m.2)).target := by
        intro heq
        exact hj (by rw [← hr]; exact congrArg (renameNode ms) heq)
      obtain ⟨e, he⟩ := Map.mem_iff_lookup.mp hk
      obtain ⟨e₂, he₂, -⟩ := (exists_repointEdges (Φ := fun _ => True) (by simp) (by simp) h hne).mpr
        ⟨k, e, rfl, .inr hs, he, trivial⟩
      exact Map.mem_of_lookup he₂
    rcases lead_repointEdges h hne he₁ with ⟨e, he, hold, hc⟩ | ⟨hnone, i, e, hold, hr, hs, he, hc⟩
    · -- the leader was not renamed by the first merge
      have hfix : i₁.repoint (.device m.1) (.device m.2) = i₁ := EdgeKey.repoint_of_not_mem hold
      refine ⟨i₁, e, ?_, he, hc₁.trans hc, fun k hk hkj => ?_⟩
      · rw [← EdgeKey.rename_repoint hrest, hfix, hi₁]
      · exact arrivesBy_of_not_renamed hrest hold (hmoved k hk hkj).2
    · refine ⟨i, e, ?_, he, hc₁.trans hc, fun k hk hkj => ?_⟩
      · rw [← EdgeKey.rename_repoint hrest, hr, hi₁]
      · obtain ⟨hkr, harr⟩ := hmoved k hk hkj
        by_cases hki : k.repoint (.device m.1) (.device m.2) = i₁
        · -- only one edge can take the place, since none was there
          have hkold : k.source = .device m.1 ∨ k.target = .device m.1 := by
            by_contra hno
            rw [EdgeKey.repoint_of_not_mem hno] at hki
            subst hki
            obtain ⟨e₀, he₀⟩ := Map.mem_iff_lookup.mp hk
            rw [hnone] at he₀
            cases he₀
          have hik : i = k := EdgeKey.repoint_inj hold hkold (hr.trans hki.symm) (by rw [hr]; exact hs)
          subst hik
          exact .inr ⟨rfl, le_rfl⟩
        · have hstrict : ¬ArrivesBy ms (k.repoint (.device m.1) (.device m.2)) i₁ := by
            intro hback
            exact hki (eq_of_arrivesBy (hkr.trans hi₁.symm) (by rw [hkr]; exact hj) hback harr)
          subst hr
          exact arrivesBy_of_repoint hrest hstrict

end Lead

/-! ## What keeps the confidences right -/

section Best

variable {c d : Confidence} {ps qs : List Provenance}

theorem best_iff : Best c ps ↔ (∃ p ∈ ps, p.confidence = c) ∧ ∀ p ∈ ps, p.confidence ≤ c := by
  unfold Best
  constructor
  · rintro ⟨-, hmem, hub⟩
    exact ⟨hmem, fun p hp => hub ⟨p, hp, rfl⟩⟩
  · rintro ⟨⟨p, hp, hc⟩, hub⟩
    refine ⟨List.ne_nil_of_mem hp, ⟨p, hp, hc⟩, ?_⟩
    rintro x ⟨q, hq, rfl⟩
    exact hub q hq

theorem best_singleton (p : Provenance) : Best p.confidence [p] := best_iff.mpr (by simp)

theorem best_append (h : Best c ps) (h' : Best d qs) : Best (if d > c then d else c) (ps ++ qs) := by
  obtain ⟨⟨p, hp, hpc⟩, hub⟩ := best_iff.mp h
  obtain ⟨⟨q, hq, hqd⟩, hub'⟩ := best_iff.mp h'
  refine best_iff.mpr ?_
  split_ifs with hlt
  · refine ⟨⟨q, by simp [hq], hqd⟩, fun x hx => ?_⟩
    rcases List.mem_append.mp hx with hx | hx
    · exact (hub x hx).trans hlt.le
    · exact hub' x hx
  · refine ⟨⟨p, by simp [hp], hpc⟩, fun x hx => ?_⟩
    rcases List.mem_append.mp hx with hx | hx
    · exact hub x hx
    · exact (hub' x hx).trans (not_lt.mp hlt)

end Best

/-- Every link a record makes is backed by provenance as confident as the record. -/
theorem link_confidence {owner : Slot → Option DeviceKey} {ev : TopologyEvidence} {fact : Fact} {a b : NodeId}
    {rel : Relationship} {prov : Provenance} (h : Command.link a b rel prov ∈ planFact owner ev fact) :
    prov.confidence = ev.confidence := by
  cases mem_planFact_iff.mp h <;> rfl

/-- **One command** keeps the confidences right. -/
theorem supported_exec {ev : TopologyEvidence} {g : TopologyGraph} {c : Command} (h : Supported g)
    (hlink : ∀ a b rel prov, c = .link a b rel prov → prov.confidence = ev.confidence) : Supported (exec ev g c) := by
  cases c with
  | upsert id kind =>
    refine ⟨fun j n hn => ?_, h.edges⟩
    rw [exec, TopologyGraph.lookup_upsert] at hn
    split_ifs at hn
    · cases hn
      cases ht : g.nodes.lookup id with
      | none =>
        rw [Option.getD_none]
        have hb : Best ev.confidence [Provenance.fromEvidence ev] := best_singleton (.fromEvidence ev)
        simpa [Node.support, Node.new] using hb
      | some n =>
        rw [Option.getD_some]
        exact best_append (h.nodes id n ht) (best_singleton (Provenance.fromEvidence ev))
    · exact h.nodes j n hn
  | note id note =>
    refine ⟨fun j n hn => ?_, h.edges⟩
    rw [exec, TopologyGraph.lookup_modifyNode] at hn
    split_ifs at hn
    · obtain ⟨n₀, hn₀, rfl⟩ := Option.map_eq_some_iff.mp hn
      obtain ⟨hc, hp⟩ := note.write_evidence ev.isRemote n₀
      rw [hc, hp]
      exact h.nodes id n₀ hn₀
    · exact h.nodes j n hn
  | link a b rel prov =>
    refine ⟨h.nodes, fun k e he => ?_⟩
    have hp : prov.confidence = ev.confidence := hlink a b rel prov rfl
    rw [exec, TopologyGraph.lookup_link] at he
    split_ifs at he
    · cases he
      cases ht : g.edges.lookup ⟨a, b, rel⟩ with
      | none =>
        rw [Option.getD_none]
        simpa [Edge.support, hp] using best_singleton prov
      | some t =>
        rw [Option.getD_some]
        exact best_append (h.edges _ t ht) (hp ▸ best_singleton prov)
    · exact h.edges k e he
  | claim slot key =>
    refine ⟨fun j n hn => ?_, fun k e he => ?_⟩
    · by_cases hj : ∃ k, j = .device k
      · obtain ⟨k, rfl⟩ := hj
        rw [exec, TopologyGraph.lookup_settleClaim] at hn
        obtain ⟨n₀, hn₀, rfl⟩ := Option.map_eq_some_iff.mp hn
        obtain ⟨hc, hp⟩ := Mark.apply_evidence slot.address (!(Realm.of ev.origin).isLocal) n₀
          (g.claimMark slot key ev.source k)
        rw [hc, hp]
        exact h.nodes _ n₀ hn₀
      · rw [exec, TopologyGraph.lookup_settleClaim_of_ne (fun k he => hj ⟨k, he⟩)] at hn
        exact h.nodes j n hn
    · rw [exec, settleClaim_edges] at he
      exact h.edges k e he
  | _ => exact ⟨h.nodes, h.edges⟩

theorem supported_absorb {g : TopologyGraph} (ev : TopologyEvidence) (h : Supported g) : Supported (g.absorb ev) := by
  rw [absorb_eq_plan]
  refine foldl_exec_inv (P := Supported) (fun c hc g' hg' => supported_exec hg' ?_) h
  rintro a b rel prov rfl
  exact link_confidence hc

section Merge

variable {g : TopologyGraph}

theorem supported_nodes_merge (h : Supported g) :
    ∀ id n, g.mergeAddressIdentities.1.nodes.lookup id = some n → Best n.confidence n.provenance := by
  rw [TopologyGraph.mergeAddressIdentities_eq]
  refine Map.forall_relocateAll (Φ := fun n : Node => Best n.confidence n.provenance) (fun t s ht hs => ?_)
    (fun _ hn => hn) h.nodes
  rw [foldNode_eq]
  exact best_append ht hs

theorem lead_merge (hkeyed : EdgesKeyed g.edges) {j : EdgeKey} {e' : Edge} (hj : j.source ≠ j.target)
    (he' : g.mergeAddressIdentities.1.edges.lookup j = some e') :
    ∃ i e, i.rename g.merges = j ∧ g.edges.lookup i = some e ∧ e'.confidence = e.confidence ∧
      ∀ k ∈ g.edges, k.rename g.merges = j → ArrivesBy g.merges i k := by
  rw [TopologyGraph.mergeAddressIdentities_eq] at he'
  exact lead_repointAll hkeyed g.merges_flat hj he'

/-- A self-edge that is there after a merge was there before, as it is. -/
theorem lookup_selfEdge {ms : List (DeviceKey × DeviceKey)} {edges : Map EdgeKey Edge} (hkeyed : EdgesKeyed edges)
    (hms : ∀ m ∈ ms, ∀ b ∈ ms, b.1 ≠ m.2) {j : EdgeKey} (hj : j.source = j.target) {e' : Edge}
    (he' : (TopologyGraph.repointAll ms edges).lookup j = some e') : edges.lookup j = some e' := by
  induction ms generalizing edges with
  | nil => exact he'
  | cons m ms ih =>
    have hself : m.1 ≠ m.2 := hms m List.mem_cons_self m List.mem_cons_self
    have hne : NodeId.device m.1 ≠ .device m.2 := fun he => hself (NodeId.device.inj he)
    have hmid := @ih (repointEdges (.device m.1) (.device m.2) edges) (edgesKeyed_repointEdges hkeyed)
      (fun a ha b hb => hms a (List.mem_cons_of_mem _ ha) b (List.mem_cons_of_mem _ hb)) he'
    obtain ⟨i, e, hr, hs, he, -⟩ := (exists_repointEdges (Φ := fun _ => True) (by simp) (by simp) hkeyed hne).mp
      ⟨e', hmid, trivial⟩
    have hij : i = j := by
      rcases hs with hs | hs
      · exact hs
      · exact absurd hj hs
    subst hij
    have hold : ¬(i.source = .device m.1 ∨ i.target = .device m.1) := by
      have := EdgeKey.repoint_ends hne i
      rwa [hr] at this
    rw [repointEdges, (foldl_repointEdge_eq hkeyed _).1,
      Map.lookup_relocateAll_of_untouched (fun hm => hold (mem_affectedEdges.mp hm).2)] at hmid
    · exact hmid
    · intro k _ hd
      exact (EdgeKey.destination_eq_some.mp hd).2 hj

/-- **One merge**: the confidences stay right exactly when the first edge to arrive anywhere is the most confident. -/
theorem supported_edges_merge_iff (hkeyed : EdgesKeyed g.edges) (h : Supported g) :
    (∀ k e, g.mergeAddressIdentities.1.edges.lookup k = some e → Best e.confidence e.provenance) ↔ FirstIsBest g := by
  constructor
  · intro hbest i e i' e' he he' hr hs hfirst
    -- the place both come to has the confidence of the first and the provenance of both
    obtain ⟨e₁, he₁, -⟩ := (TopologyGraph.exists_edge_merge (Φ := fun _ => True) (by simp) (by simp) hkeyed).mpr
      ⟨i, e, rfl, .inr hs, he, trivial⟩
    obtain ⟨i₀, e₀, hr₀, he₀, hc, hfirst₀⟩ := lead_merge hkeyed hs he₁
    have hii : i = i₀ := eq_of_arrivesBy hr₀.symm hs (hfirst i₀ (Map.mem_of_lookup he₀) hr₀)
      (hfirst₀ i (Map.mem_of_lookup he) rfl)
    subst hii
    rw [he] at he₀
    cases he₀
    obtain ⟨p, hp, hpc⟩ := (best_iff.mp (h.edges i' e' he')).1
    have hp₁ : p ∈ e₁.provenance :=
      (TopologyGraph.edgeProvenance_merge hkeyed he₁ p).mpr ⟨i', e', hr.symm, .inr hs, he', hp⟩
    rw [← hpc, ← hc]
    exact (best_iff.mp (hbest _ e₁ he₁)).2 p hp₁
  · intro hfirst j e' he'
    by_cases hj : j.source = j.target
    · rw [TopologyGraph.mergeAddressIdentities_eq] at he'
      exact h.edges j e' (lookup_selfEdge hkeyed g.merges_flat hj he')
    · obtain ⟨i, e, rfl, he, hc, hlead⟩ := lead_merge hkeyed hj he'
      refine best_iff.mpr ⟨?_, fun p hp => ?_⟩
      · obtain ⟨p, hp, hpc⟩ := (best_iff.mp (h.edges i e he)).1
        refine ⟨p, (TopologyGraph.edgeProvenance_merge hkeyed he' p).mpr ⟨i, e, rfl, .inr hj, he, hp⟩, ?_⟩
        rw [hpc, hc]
      · obtain ⟨i', e'', hr', -, he'', hp⟩ := (TopologyGraph.edgeProvenance_merge hkeyed he' p).mp hp
        rw [hc]
        exact ((best_iff.mp (h.edges i' e'' he'')).2 p hp).trans (hfirst i e i' e'' he he'' hr'.symm hj hlead)

theorem supported_rekind_nodes (changes : List (NodeId × (NodeKind → NodeKind)))
    (h : ∀ id n, g.nodes.lookup id = some n → Best n.confidence n.provenance) :
    ∀ id n, (g.rekind changes).nodes.lookup id = some n → Best n.confidence n.provenance := by
  intro id n hn
  obtain ⟨f, hf⟩ := TopologyGraph.lookup_rekind changes g id
  rw [hf] at hn
  obtain ⟨n₀, hn₀, rfl⟩ := Option.map_eq_some_iff.mp hn
  exact h id n₀ hn₀

theorem finalizeRoles_edges : g.finalizeRoles.edges = g.mergeAddressIdentities.1.edges :=
  TopologyGraph.finalizeRoles_frame (·.edges) (fun _ _ => rfl)

/-- **One operation.** -/
theorem supported_apply_iff (hkeyed : EdgesKeyed g.edges) (h : Supported g) (op : GraphOp) :
    Supported (op.apply g) ↔ op.FoldsDown g := by
  cases op with
  | absorb ev => exact iff_of_true (supported_absorb ev h) trivial
  | merge =>
    refine ⟨fun hs => (supported_edges_merge_iff hkeyed h).mp hs.edges, fun hf => ?_⟩
    exact ⟨supported_nodes_merge h, (supported_edges_merge_iff hkeyed h).mpr hf⟩
  | finalize =>
    constructor
    · intro hs
      have hedges := hs.edges
      simp only [GraphOp.apply, finalizeRoles_edges] at hedges
      exact (supported_edges_merge_iff hkeyed h).mp hedges
    · intro hf
      refine ⟨supported_rekind_nodes _ (supported_rekind_nodes _ (supported_nodes_merge h)), ?_⟩
      simp only [GraphOp.apply, finalizeRoles_edges]
      exact (supported_edges_merge_iff hkeyed h).mpr hf

end Merge

/-- **Confidence is the best of the provenance**, in every state of a run, if and only if every merge of the run folds
edges only into edges that are at least as confident. -/
theorem supported_iff (ops : List GraphOp) :
    Always GraphOp.apply (fun _ g => Supported g) .new ops ↔
      Along GraphOp.apply (fun _ g op => op.FoldsDown g) .new ops := by
  constructor
  · exact fun hP => along_of_always (fun h op h₁ h₂ => (supported_apply_iff (edgesKeyed_build h) h₁ op).mp h₂) hP
  · refine fun hC => always_of_along ⟨?_, ?_⟩ (fun h op h₁ hf =>
      (supported_apply_iff (edgesKeyed_build h) h₁ op).mpr hf) hC
    · intro id n hn
      cases hn
    · intro k e he
      cases he

/-- A device seen by its address is observed on a network, and its hardware is only inferred to be there; the merged
edge stays inferred. -/
theorem merged_edge_underrated : ¬∀ ops, Supported (build ops) := by
  intro h
  let net : IpNet := .v4 (.new 10 0 0 0) 8
  let attached (device : DeviceKey) (confidence : Confidence) : GraphOp :=
    .absorb { fact := .attachedTo device net, source := .arpCache, confidence := confidence, vantage := "eth0" }
  let ops : List GraphOp :=
    [attached (.address (ip 10 0 0 1)) .observed, attached hwA .inferred,
      .absorb (sighting hwA (ip 10 0 0 1) .arpProbe none), .merge]
  let key : EdgeKey := ⟨.device hwA, .network net .localRealm, .attachedTo⟩
  have hedge : ((build ops).edges.lookup key).map (fun e => (e.confidence, e.provenance.map Provenance.confidence)) =
      some (.inferred, [.inferred, .observed]) := by decide
  obtain ⟨e, he, hpair⟩ := Option.map_eq_some_iff.mp hedge
  obtain ⟨hc, hp⟩ := Prod.mk.injEq .. ▸ hpair
  have hmem : Confidence.observed ∈ e.provenance.map Provenance.confidence := by rw [hp]; simp
  obtain ⟨p, hp, hpc⟩ := List.mem_map.mp hmem
  have hle := (best_iff.mp ((h ops).edges key e he)).2 p hp
  rw [hpc, hc] at hle
  exact absurd hle (by decide)

end Idnx
