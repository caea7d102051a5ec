import Idnx.Engine.Accounting
import Idnx.Lib.Dedup
import Idnx.Topology.Marks

/-!
# Interrogation and coverage, device by device

Identities change under the loop: a merge folds a device known by an address into the hardware that holds the address.
The interrogated set and the coverage list follow every merge of the loop (`applyAliases`), so a device is never asked
again under a name that one already asked has by then, and coverage keeps one record of a name (`run_followed`).

A machine known by two names is asked once under each before anything says that they are one, and the aliases of the
last merge, which assigning roles makes, are dropped.
-/

namespace Idnx

/-! ## Names -/

/-- The names of the devices that have been interrogated, after an event. -/
def Event.names (names : List DeviceKey) : Event → List DeviceKey
  | .queued devices => names ++ devices
  | .merged aliases => names.map (rename aliases)
  | _ => names

/-- The devices a log says were interrogated, under the names that the merges have given them since. -/
def namesOf (log : List Event) : List DeviceKey := run Event.names [] log

/-- The devices of a queue are asked once each, and none has the name of one already asked. -/
def AskedOnce (_ : List Event) (names : List DeviceKey) (event : Event) : Prop :=
  ∀ devices, event = .queued devices → devices.Nodup ∧ ∀ k ∈ devices, k ∉ names

/-- A call has returned: nobody was asked and nobody renamed. -/
def Event.isReturn : Event → Bool
  | .answered _ => true
  | .task _ _ _ => true
  | .drained _ _ => true
  | .finished _ _ => true
  | _ => false

section Names

variable {log es : List Event}

theorem Event.isReturn_of_isAnswer {event : Event} (h : event.isAnswer = true) : event.isReturn = true := by
  cases event <;> first | rfl | cases h

theorem Event.isReturn_of_finished {event : Event} (h : ∃ i evs, event = .finished i evs) :
    event.isReturn = true := by
  obtain ⟨i, evs, rfl⟩ := h
  rfl

theorem namesOf_concat (log : List Event) (event : Event) : namesOf (log ++ [event]) = event.names (namesOf log) :=
  run_concat _ _ _ _

theorem namesOf_append_returns (h : ∀ event ∈ es, event.isReturn = true) : namesOf (log ++ es) = namesOf log := by
  induction es using List.reverseRecOn with
  | nil => rw [List.append_nil]
  | append_singleton es event ih =>
    have hevent : event.isReturn = true := h event (by simp)
    rw [← List.append_assoc, namesOf_concat, ih fun x hx => h x (List.mem_append_left _ hx)]
    cases event <;> first | rfl | cases hevent

theorem along_append_returns (ha : Along Event.names AskedOnce [] log) (h : ∀ event ∈ es, event.isReturn = true) :
    Along Event.names AskedOnce [] (log ++ es) := by
  induction es using List.reverseRecOn with
  | nil => rwa [List.append_nil]
  | append_singleton es event ih =>
    have hevent : event.isReturn = true := h event (by simp)
    rw [← List.append_assoc, along_concat]
    refine ⟨ih fun x hx => h x (List.mem_append_left _ hx), ?_⟩
    rintro devices rfl
    cases hevent

end Names

/-! ## Following aliases -/

section Aliases

variable {aliases : List (DeviceKey × DeviceKey)}

/-- Following the aliases one by one is renaming by the list, as long as no alias is itself renamed. -/
theorem foldl_followAlias (hflat : ∀ m ∈ aliases, ∀ b ∈ aliases, b.1 ≠ m.2) (interrogated : Finset DeviceKey)
    (coverage : List DeviceCoverage) :
    aliases.foldl followAlias (interrogated, coverage) =
      (interrogated.image (rename aliases), coverage.map fun r => { r with device := rename aliases r.device }) := by
  induction aliases generalizing interrogated coverage with
  | nil => simp [rename]
  | cons a aliases ih =>
    have hstep : ∀ k, rename aliases (if k = a.1 then a.2 else k) = rename (a :: aliases) k := by
      intro k
      show _ = if k = a.1 then a.2 else rename aliases k
      split_ifs with hk
      · exact rename_of_not_mem fun b hb => hflat a List.mem_cons_self b (List.mem_cons_of_mem _ hb)
      · rfl
    have hset : (if a.1 ∈ interrogated then insert a.2 (interrogated.erase a.1) else interrogated) =
        interrogated.image fun k => if k = a.1 then a.2 else k := by
      ext k
      split_ifs with hmem
      · simp only [Finset.mem_insert, Finset.mem_erase, Finset.mem_image]
        constructor
        · rintro (rfl | ⟨hne, hk⟩)
          · exact ⟨a.1, hmem, if_pos rfl⟩
          · exact ⟨k, hk, if_neg hne⟩
        · rintro ⟨j, hj, rfl⟩
          split_ifs with hja
          · exact .inl rfl
          · exact .inr ⟨hja, hj⟩
      · rw [Finset.mem_image]
        constructor
        · intro hk
          have hne : k ≠ a.1 := fun he => hmem (he ▸ hk)
          exact ⟨k, hk, if_neg hne⟩
        · rintro ⟨j, hj, rfl⟩
          have hne : j ≠ a.1 := fun he => hmem (he ▸ hj)
          rwa [if_neg hne]
    have hmap : ∀ r : DeviceCoverage, (if r.device = a.1 then { r with device := a.2 } else r) =
        { r with device := if r.device = a.1 then a.2 else r.device } := by
      intro r
      split_ifs <;> rfl
    rw [List.foldl_cons, followAlias, hset, ih fun m hm b hb => hflat m (List.mem_cons_of_mem _ hm) b
      (List.mem_cons_of_mem _ hb)]
    simp only [hmap, Finset.image_image, List.map_map, Function.comp_def, hstep]

/-- A coverage list has at most one record of a name, unless another name in it looks the same. -/
def CoveredOnce (coverage : List DeviceCoverage) : Prop :=
  ∀ k, (∀ r ∈ coverage, describeKey r.device = describeKey k → r.device = k) →
    coverage.countP (fun r => r.device = k) ≤ 1

/-- The order coverage is sorted in. -/
def coverageCmp : DeviceCoverage → DeviceCoverage → Ordering :=
  compareLex (compareOn fun r => describeKey r.device) fun a b => compareOn DeviceCoverage.tcpAttempted b a

theorem coverageLE_eq (a b : DeviceCoverage) : coverageLE a b = (coverageCmp a b).isLE := rfl

instance : Std.TransCmp coverageCmp := by
  unfold coverageCmp
  infer_instance

instance : IsTrans DeviceCoverage fun a b => coverageLE a b = true := by
  refine ⟨fun a b c hab hbc => ?_⟩
  rw [coverageLE_eq] at hab hbc ⊢
  exact Std.TransCmp.isLE_trans hab hbc

instance : Std.Total fun a b : DeviceCoverage => coverageLE a b = true := by
  refine ⟨fun a b => ?_⟩
  have hswap : coverageCmp b a = (coverageCmp a b).swap := Std.OrientedCmp.eq_swap
  rw [coverageLE_eq, coverageLE_eq, hswap]
  cases coverageCmp a b <;> simp

theorem describeKey_le_of_coverageLE {a b : DeviceCoverage} (h : coverageLE a b = true) :
    (compare (describeKey a.device) (describeKey b.device)).isLE = true := by
  unfold coverageLE at h
  cases hc : compare (describeKey a.device) (describeKey b.device) with
  | gt => rw [hc] at h; cases h
  | _ => rfl

/-- Sorting by name and dropping what repeats the name before leaves one record of a name. -/
theorem coveredOnce_applyAliases (aliases : List (DeviceKey × DeviceKey)) (interrogated : Finset DeviceKey)
    (coverage : List DeviceCoverage) : CoveredOnce (applyAliases aliases interrogated coverage).2 := by
  intro k htwin
  have hsorted := List.pairwise_insertionSort (fun a b => coverageLE a b = true)
    (aliases.foldl followAlias (interrogated, coverage)).2
  have hranked := hsorted.imp describeKey_le_of_coverageLE
  exact countP_key_le_one (hranked.sublist (List.destutter_sublist _ _)) (List.isChain_destutter _ _) htwin

theorem CoveredOnce.append {coverage new : List DeviceCoverage} (h : CoveredOnce coverage)
    (hnew : (new.map fun r => r.device).Nodup) (hfresh : ∀ r ∈ new, ∀ r' ∈ coverage, r'.device ≠ r.device) :
    CoveredOnce (coverage ++ new) := by
  intro k htwin
  have hold : coverage.countP (fun r => r.device = k) ≤ 1 := h k fun r hr => htwin r (List.mem_append_left _ hr)
  have hadded : new.countP (fun r => r.device = k) ≤ 1 := by
    have hcount := List.nodup_iff_count_le_one.mp hnew k
    rw [List.count, List.countP_map] at hcount
    exact hcount
  rw [List.countP_append]
  by_cases hk : ∃ r ∈ new, r.device = k
  · obtain ⟨r, hr, rfl⟩ := hk
    have hnone : coverage.countP (fun r' => r'.device = r.device) = 0 := by
      rw [List.countP_eq_zero]
      intro r' hr'
      simpa using hfresh r hr r' hr'
    omega
  · have hnone : new.countP (fun r => r.device = k) = 0 := by
      rw [List.countP_eq_zero]
      intro r hr
      simpa using fun he => hk ⟨r, hr, he⟩
    omega

end Aliases

/-! ## The invariant -/

section Invariant

variable {W : Type}

/-- What the loop keeps: the interrogated set has the names of those asked, coverage is about them, and they are in
the graph. -/
structure EngineState.Followed (s : EngineState W) : Prop where
  recorded : s.Recorded
  names : s.interrogated = (namesOf s.log).toFinset
  covered : ∀ r ∈ s.coverage, r.device ∈ s.interrogated
  known : ∀ k ∈ s.interrogated, .device k ∈ s.graph.nodes
  once : CoveredOnce s.coverage
  asked : Along Event.names AskedOnce [] s.log

variable {e : DiscoveryEngine W} {context : DiscoveryContext} {s s' : EngineState W} {es : List Event}

theorem mem_nodes_absorbs {g : TopologyGraph} {id : NodeId} (evs : List TopologyEvidence) (h : id ∈ g.nodes) :
    id ∈ (g.absorbs evs).nodes := by
  induction evs generalizing g with
  | nil => exact h
  | cons ev evs ih => exact ih (mem_nodes_absorb.mpr (.inl h))

/-- A device of the graph is in it after a merge under its new name. -/
theorem mem_nodes_rename {g : TopologyGraph} {k : DeviceKey} (h : .device k ∈ g.nodes) :
    .device (rename g.merges k) ∈ g.mergeAddressIdentities.1.nodes := by
  rw [← renameNode_device, TopologyGraph.mem_nodes_merge]
  refine ⟨?_, TopologyGraph.renameNode_not_absorbed g _⟩
  by_cases hid : .device k ∈ g.absorbedIds
  · obtain ⟨k', o, he, ha⟩ := TopologyGraph.mem_absorbedIds.mp hid
    rw [he, TopologyGraph.renameNode_absorbed ha]
    exact ha.2.2
  · rwa [TopologyGraph.renameNode_of_not_absorbed hid]

theorem EngineState.Followed.hears (h : s.Followed) (hh : Hears s s' es) (hes : ∀ event ∈ es, event.isReturn = true) :
    s'.Followed := by
  have hrec := h.recorded.hears hh
  obtain ⟨w, evs, -, rfl⟩ := hh
  refine ⟨hrec, ?_, h.covered, fun k hk => mem_nodes_absorbs evs (h.known k hk), h.once,
    along_append_returns h.asked hes⟩
  show s.interrogated = (namesOf (s.log ++ es)).toFinset
  rw [namesOf_append_returns hes]
  exact h.names

theorem applyAliases_merges (g : TopologyGraph) (interrogated : Finset DeviceKey) (coverage : List DeviceCoverage) :
    (applyAliases g.merges interrogated coverage).1 = interrogated.image (rename g.merges) ∧
      ∀ r ∈ (applyAliases g.merges interrogated coverage).2, ∃ r' ∈ coverage,
      r.device = rename g.merges r'.device := by
  unfold applyAliases
  rw [foldl_followAlias g.merges_flat]
  refine ⟨rfl, fun r hr => ?_⟩
  have hmem := (List.destutter_sublist _ _).subset hr
  rw [List.mem_insertionSort, List.mem_map] at hmem
  obtain ⟨r', hr', rfl⟩ := hmem
  exact ⟨r', hr', rfl⟩

theorem followed_merge (h : s.Followed) : s.mergeIdentities.Followed := by
  have haliases : s.graph.mergeAddressIdentities.2 = s.graph.merges := by rw [TopologyGraph.mergeAddressIdentities_eq]
  obtain ⟨hset, hlist⟩ := applyAliases_merges s.graph s.interrogated s.coverage
  have hinterrogated : s.mergeIdentities.interrogated = s.interrogated.image (rename s.graph.merges) := by
    simp only [EngineState.mergeIdentities, haliases, hset]
  refine ⟨h.recorded.concat .merge rfl rfl rfl rfl, ?_, ?_, ?_, coveredOnce_applyAliases _ _ _, ?_⟩
  · show _ = (namesOf (s.log ++ [Event.merged s.graph.mergeAddressIdentities.2])).toFinset
    rw [hinterrogated, namesOf_concat, haliases, h.names]
    ext k
    simp [Event.names]
  · intro r hr
    simp only [EngineState.mergeIdentities, haliases] at hr
    obtain ⟨r', hr', hdevice⟩ := hlist r hr
    rw [hinterrogated, hdevice]
    exact Finset.mem_image_of_mem _ (h.covered r' hr')
  · intro k hk
    rw [hinterrogated] at hk
    obtain ⟨j, hj, rfl⟩ := Finset.mem_image.mp hk
    exact mem_nodes_rename (h.known j hj)
  · show Along Event.names AskedOnce [] (s.log ++ [Event.merged s.graph.mergeAddressIdentities.2])
    rw [along_concat]
    refine ⟨h.asked, fun devices he => ?_⟩
    cases he

theorem followed_interrogate (h : s.Followed) {devices : List DeviceKey} {cov : List DeviceCoverage}
    (hdevices : devices = (interrogationQueue s.graph s.interrogated context.vantage).map (·.device))
    (hcov : (cov.map fun r => r.device).Subperm devices) :
    EngineState.Followed
      { s with
        interrogated := s.interrogated ∪ devices.toFinset
        coverage := s.coverage ++ cov
        log := s.log ++ [Event.queued devices] } := by
  have hkeyed : ∀ id n, s.graph.nodes.lookup id = some n → n.id = id := by
    obtain ⟨ops, hg, -⟩ := h.recorded
    rw [hg]
    exact nodesKeyed_build ops
  have hnodup : devices.Nodup := by
    rw [hdevices]
    exact nodup_queueFromGraph hkeyed
  have hqueued : ∀ k ∈ devices, k ∉ s.interrogated ∧ .device k ∈ s.graph.nodes := by
    intro k hk
    rw [hdevices] at hk
    obtain ⟨task, htask, rfl⟩ := List.mem_map.mp hk
    obtain ⟨id, n, hn, hid, -, hfresh, -⟩ := mem_queueFromGraph htask
    refine ⟨hfresh, ?_⟩
    rw [← hid, hkeyed id n hn]
    exact Map.mem_of_lookup hn
  have hadded : ∀ r ∈ cov, r.device ∈ devices := fun r hr => hcov.subset (List.mem_map_of_mem hr)
  refine ⟨?_, ?_, ?_, ?_, ?_, ?_⟩
  · obtain ⟨ops, hg, hp⟩ := h.recorded
    exact ⟨ops, hg, by simpa [Event.kept] using hp⟩
  · rw [namesOf_concat, Event.names, List.toFinset_append, h.names]
  · intro r hr
    rw [Finset.mem_union, List.mem_toFinset]
    rcases List.mem_append.mp hr with hr | hr
    · exact .inl (h.covered r hr)
    · exact .inr (hadded r hr)
  · intro k hk
    rw [Finset.mem_union, List.mem_toFinset] at hk
    rcases hk with hk | hk
    · exact h.known k hk
    · exact (hqueued k hk).2
  · obtain ⟨l, hperm, hsub⟩ := hcov
    refine h.once.append (hperm.nodup_iff.mp (hnodup.sublist hsub)) fun r hr r' hr' he => ?_
    have hasked := h.covered r' hr'
    rw [he] at hasked
    exact (hqueued r.device (hadded r hr)).1 hasked
  · rw [along_concat]
    refine ⟨h.asked, fun ds he => ?_⟩
    cases he
    refine ⟨hnodup, fun k hk hname => (hqueued k hk).1 ?_⟩
    rw [h.names, List.mem_toFinset]
    exact hname

theorem followed_move (hm : Move e context s s') (h : s.Followed) : s'.Followed := by
  cases hm with
  | hear hh hans => exact h.hears hh fun event hevent => Event.isReturn_of_isAnswer (hans event hevent)
  | finish _ hh hall _ =>
    refine EngineState.Followed.hears (s := { s with continuousFinished := true }) ?_ hh fun event hevent =>
      Event.isReturn_of_finished (hall event hevent)
    exact ⟨h.recorded, h.names, h.covered, h.known, h.once, h.asked⟩
  | queue _ => exact ⟨h.recorded, h.names, h.covered, h.known, h.once, h.asked⟩
  | merge => exact followed_merge h
  | interrogate hdevices hcov hh hans =>
    exact (followed_interrogate h hdevices hcov).hears hh fun event hevent => Event.isReturn_of_isAnswer
      (hans event hevent)
  | scope _ _ hh hans =>
    refine EngineState.Followed.hears ?_ hh fun event hevent => Event.isReturn_of_isAnswer (hans event hevent)
    exact ⟨h.recorded, h.names, h.covered, h.known, h.once, h.asked⟩

theorem followed_pass (h : s.Followed) : (s.emit .pass).Followed := by
  refine ⟨?_, ?_, h.covered, h.known, h.once, ?_⟩
  · obtain ⟨ops, hg, hp⟩ := h.recorded
    exact ⟨ops, hg, by simpa [EngineState.emit, Event.kept] using hp⟩
  · show _ = (namesOf (s.log ++ [Event.pass])).toFinset
    rw [namesOf_concat]
    exact h.names
  · show Along Event.names AskedOnce [] (s.log ++ [Event.pass])
    rw [along_concat]
    refine ⟨h.asked, fun devices he => ?_⟩
    cases he

end Invariant

/-! ## The whole run -/

section Run

variable {W : Type}

/-- A finished run asks and reports by name: nobody is asked under the name of one already asked, coverage has one
record of a name, and what a record names is a node of the graph once it is followed through the last merge. -/
structure FollowsNames (s : EngineState W) : Prop where
  asked_once : Along Event.names AskedOnce [] s.log
  covered_once : CoveredOnce s.report.coverage
  covered_node : ∃ before aliases, s.log = before ++ [.merged aliases] ∧
    ∀ r ∈ s.report.coverage, .device (rename aliases r.device) ∈ s.report.graph.nodes

/-- A finished run asks and reports by device: no two interrogations were of what is now one device, and coverage has
one record of a device, which is a node of the graph. -/
structure PerDevice (s : EngineState W) : Prop where
  asked_once : (namesOf s.log).Nodup
  covered_once : (s.report.coverage.map fun r => r.device).Nodup
  covered_node : ∀ r ∈ s.report.coverage, .device r.device ∈ s.report.graph.nodes

variable (e : DiscoveryEngine W) (env : Environment W) (context : DiscoveryContext) (initialScope : Option IpNet)
    (w : W)

theorem followed_start (runs : List ProviderRun) :
    EngineState.Followed { e.start initialScope w with scopeRuns := [⟨none, runs⟩] } := by
  refine ⟨⟨[], rfl, .nil⟩, rfl, ?_, ?_, ?_, along_nil⟩
  · intro r hr
    cases hr
  · intro k hk
    cases hk
  · intro k _
    exact Nat.zero_le _

theorem followed_seed : (e.seed context initialScope w).Followed := by
  obtain ⟨runs, hm⟩ := move_seed e context initialScope w
  exact followed_move hm (followed_start e initialScope w runs)

theorem followed_loop (n : Nat) : (e.loop env context n (e.seed context initialScope w)).Followed :=
  seeded_loop_invariant env (followed_start e initialScope w) (fun _ => followed_pass)
    (fun _ _ hm => followed_move hm) (fun _ h => ⟨h.recorded, h.names, h.covered, h.known, h.once, h.asked⟩) n

/-- **Interrogation and coverage follow every merge of the loop.** -/
theorem run_follows_names : FollowsNames (e.run env context initialScope w) := by
  have hloop := followed_loop e env context initialScope w e.budget.maxIterations
  unfold DiscoveryEngine.run
  generalize e.loop env context e.budget.maxIterations (e.seed context initialScope w) = s at hloop
  obtain ⟨s', es, hh, hall, -, hclose⟩ := close_spec e s
  have hend : s'.Followed := hloop.hears hh fun event hevent => Event.isReturn_of_finished (hall event hevent)
  rw [hclose]
  refine ⟨?_, hend.once, s'.log, s'.graph.mergeAddressIdentities.2, rfl, ?_⟩
  · rw [along_concat]
    refine ⟨hend.asked, fun devices he => ?_⟩
    cases he
  · intro r hr
    show .device _ ∈ s'.graph.finalizeRoles.nodes
    rw [TopologyGraph.mem_nodes_finalizeRoles, TopologyGraph.mergeAddressIdentities_eq]
    have hnode := mem_nodes_rename (hend.known _ (hend.covered r hr))
    rwa [TopologyGraph.mergeAddressIdentities_eq] at hnode

/-- One machine under two names: `10.0.0.1` from one record, hardware with another address from the other. Asked, it
says that it holds both. -/
def twoNamesEngine : DiscoveryEngine Unit where
  seedProviders :=
    [.constant "arp" (fun _ => true)
      [seenHere (.deviceAddress (.address (.v4 (.new 10 0 0 1))) (.v4 (.new 10 0 0 1))),
        seenHere (.deviceAddress (.mac "00:11:22:33:44:55") (.v4 (.new 10 0 0 2)))]]
  scopeProviders :=
    [.constant "snmp" (fun context => context.target.isSome)
      [seenHere (.deviceAddress (.mac "00:11:22:33:44:55") (.v4 (.new 10 0 0 1)))]]
  continuous := []
  budget := {}

/-- The machine is interrogated twice, once under each name. -/
theorem two_names_asked_twice : ¬PerDevice (twoNamesEngine.run .silent ethernet none ()) := by
  rintro ⟨hasked, -, -⟩
  revert hasked
  decide

end Run

end Idnx
