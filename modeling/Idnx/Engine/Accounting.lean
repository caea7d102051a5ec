import Idnx.Engine.Moves

/-!
# The accounts of a run

However the loop ends, a run has processed no network twice and no more networks and passes than its budget allows,
has finished every continuous source once, and its graph is what absorbing every record it was to keep, each once,
makes of the empty graph (`run_accounted`). The records it was to keep are all that were returned, less those of a
device task that panicked: such a task is lost with everything its probes and providers had already returned.
-/

namespace Idnx

/-- The record an operation absorbs. -/
def GraphOp.record : GraphOp → Option TopologyEvidence
  | .absorb ev => some ev
  | _ => none

/-- The records a run of the graph absorbs. -/
def recordsOf (ops : List GraphOp) : List TopologyEvidence := ops.filterMap GraphOp.record

theorem recordsOf_append (ops ops' : List GraphOp) : recordsOf (ops ++ ops') = recordsOf ops ++ recordsOf ops' :=
  List.filterMap_append

theorem recordsOf_map_absorb (evs : List TopologyEvidence) : recordsOf (evs.map .absorb) = evs := by
  rw [recordsOf, List.filterMap_map]
  exact List.filterMap_some

theorem build_append_absorbs (ops : List GraphOp) (evs : List TopologyEvidence) :
    build (ops ++ evs.map .absorb) = (build ops).absorbs evs := by
  rw [build, run_append, run, List.foldl_map]
  rfl

/-- The networks of a graph are the ones that some record added. -/
theorem mem_nodes_network_build {net : IpNet} {realm : Realm} (ops : List GraphOp) :
    .network net realm ∈ (build ops).nodes ↔
      ∃ ev ∈ recordsOf ops, ev.Adds net ∧ realm = networkRealm net (Realm.of ev.origin) := by
  have hmerge : ∀ g : TopologyGraph, .network net realm ∈ g.mergeAddressIdentities.1.nodes ↔
    .network net realm ∈ g.nodes := by
    intro g
    rw [TopologyGraph.mem_nodes_merge]
    refine and_iff_left fun hid => ?_
    obtain ⟨key, owner, he, -⟩ := TopologyGraph.mem_absorbedIds.mp hid
    cases he
  refine run_induction GraphOp.apply
    (P := fun ops g => .network net realm ∈ g.nodes ↔
      ∃ ev ∈ recordsOf ops, ev.Adds net ∧ realm = networkRealm net (Realm.of ev.origin)) ?_ (fun h op ih => ?_) ops
  · simp [recordsOf, TopologyGraph.new]
  · rw [recordsOf_append]
    cases op with
    | absorb ev =>
      rw [GraphOp.apply, mem_nodes_absorb_of_ne (by simp), mem_places_network, ih]
      simp [recordsOf, GraphOp.record, or_and_right, exists_or]
    | merge =>
      rw [GraphOp.apply, hmerge, ih]
      simp [recordsOf, GraphOp.record]
    | finalize =>
      rw [GraphOp.apply, TopologyGraph.mem_nodes_finalizeRoles, hmerge, ih]
      simp [recordsOf, GraphOp.record]

namespace EngineState

variable {W : Type} (s : EngineState W)

/-- The networks that have a scope run. -/
def scopes : List IpNet := s.scopeRuns.filterMap ScopeRun.scope

/-- Networks are processed once each, within the budget, and those that were are the ones with a scope run. -/
structure ScopesOnce (budget : Budget) : Prop where
  nodup : s.scopes.Nodup
  processed : s.scopes.toFinset = s.processed
  bounded : s.processed.card ≤ budget.maxScopes

/-- The sources are finished, each once, or none is. -/
def SourcesOnce (e : DiscoveryEngine W) : Prop :=
  finishedSources s.log = if s.continuousFinished then List.range e.continuous.length else []

/-- The graph is what the records to be kept make of the empty graph. -/
def Recorded : Prop := ∃ ops, s.graph = build ops ∧ (recordsOf ops).Perm (s.log.flatMap Event.kept)

end EngineState

section Moves

variable {W : Type} {e : DiscoveryEngine W} {context : DiscoveryContext} {s s' : EngineState W} {es : List Event}

/-! ## Networks -/

theorem EngineState.ScopesOnce.congr {budget : Budget} (h : s.ScopesOnce budget) (hruns : s'.scopeRuns = s.scopeRuns)
    (hprocessed : s'.processed = s.processed) : s'.ScopesOnce budget := by
  obtain ⟨hnodup, hscopes, hbounded⟩ := h
  unfold EngineState.scopes at hnodup hscopes
  refine ⟨?_, ?_, ?_⟩
  · rwa [EngineState.scopes, hruns]
  · rwa [EngineState.scopes, hruns, hprocessed]
  · rwa [hprocessed]

theorem EngineState.ScopesOnce.scope {budget : Budget} (h : s.ScopesOnce budget) {net : IpNet}
    {runs : List ProviderRun} (hnet : net ∉ s.processed) (hcard : s.processed.card < budget.maxScopes)
    (hruns : s'.scopeRuns = s.scopeRuns ++ [⟨some net, runs⟩]) (hprocessed : s'.processed = insert net s.processed) :
    s'.ScopesOnce budget := by
  have hscopes : s'.scopes = s.scopes ++ [net] := by
    rw [EngineState.scopes, hruns, List.filterMap_append]
    rfl
  have hfresh : net ∉ s.scopes := by
    rw [← List.mem_toFinset, h.processed]
    exact hnet
  refine ⟨?_, ?_, ?_⟩
  · rw [hscopes]
    exact List.nodup_append_comm.mp (List.nodup_cons.mpr ⟨hfresh, h.nodup⟩)
  · rw [hscopes, List.toFinset_append, h.processed, hprocessed]
    ext n
    simp
  · rw [hprocessed, Finset.card_insert_of_notMem hnet]
    omega

theorem scopesOnce_move (hm : Move e context s s') (h : s.ScopesOnce e.budget) : s'.ScopesOnce e.budget := by
  cases hm with
  | hear hh _ => obtain ⟨w, evs, -, rfl⟩ := hh; exact h.congr rfl rfl
  | finish _ hh _ _ => obtain ⟨w, evs, -, rfl⟩ := hh; exact h.congr rfl rfl
  | queue _ => exact h.congr rfl rfl
  | merge => exact h.congr rfl rfl
  | interrogate _ _ hh _ => obtain ⟨w, evs, -, rfl⟩ := hh; exact h.congr rfl rfl
  | scope hnet hcard hh _ =>
    obtain ⟨w, evs, -, rfl⟩ := hh
    exact h.scope hnet hcard rfl rfl

/-! ## Passes and sources -/

theorem countP_isPass_of_answers (hans : ∀ event ∈ es, event.isAnswer = true) : es.countP Event.isPass = 0 := by
  rw [List.countP_eq_zero]
  intro event hevent
  rw [Event.not_isPass_of_isAnswer (hans event hevent)]
  exact Bool.false_ne_true

theorem finishedSources_of_answers (hans : ∀ event ∈ es, event.isAnswer = true) : finishedSources es = [] := by
  rw [finishedSources, List.filterMap_eq_nil_iff]
  intro event hevent
  exact Event.finishes_of_isAnswer (hans event hevent)

theorem finishedSources_append (log es : List Event) :
    finishedSources (log ++ es) = finishedSources log ++ finishedSources es := List.filterMap_append

theorem countP_isPass_move (hm : Move e context s s') : s'.log.countP Event.isPass = s.log.countP Event.isPass := by
  cases hm with
  | hear hh hans =>
    obtain ⟨w, evs, -, rfl⟩ := hh
    simp [countP_isPass_of_answers hans]
  | finish _ hh hall _ =>
    obtain ⟨w, evs, -, rfl⟩ := hh
    simp only [List.countP_append, Nat.add_eq_left, List.countP_eq_zero]
    intro event hevent
    obtain ⟨i, evs, rfl⟩ := hall event hevent
    exact Bool.false_ne_true
  | queue _ => rfl
  | merge => simp [EngineState.mergeIdentities, Event.isPass]
  | interrogate _ _ hh hans =>
    obtain ⟨w, evs, -, rfl⟩ := hh
    simp [countP_isPass_of_answers hans, Event.isPass]
  | scope _ _ hh hans =>
    obtain ⟨w, evs, -, rfl⟩ := hh
    simp [countP_isPass_of_answers hans]

/-- Each pass is counted once. -/
theorem countP_isPass_loop (e : DiscoveryEngine W) (env : Environment W) (context : DiscoveryContext) (n : Nat)
    (hq : s.queue.Nodup) :
    (e.loop env context n s).log.countP Event.isPass ≤ s.log.countP Event.isPass + n := by
  induction n generalizing s with
  | zero => exact Nat.le_refl _
  | succ n ih =>
    have hpass : (e.pass env context s).state.log.countP Event.isPass = s.log.countP Event.isPass + 1 := by
      have hmoves := (moves_pass e env context hq).invariant
        (P := fun s' => s'.log.countP Event.isPass = (s.emit .pass).log.countP Event.isPass)
        (fun _ _ hm h => (countP_isPass_move hm).trans h) rfl
      rw [hmoves]
      simp [EngineState.emit, Event.isPass]
    have hq' := queue_nodup_pass e env context hq
    unfold DiscoveryEngine.loop
    cases hend : e.pass env context s with
    | again s' =>
      rw [hend] at hpass hq'
      have hrest := ih hq'
      simp only [PassEnd.state] at hpass hrest
      show (e.loop env context n s').log.countP Event.isPass ≤ _
      omega
    | stop s' =>
      rw [hend] at hpass
      simp only [PassEnd.state] at hpass
      show s'.log.countP Event.isPass ≤ _
      omega

theorem sourcesOnce_move (hm : Move e context s s') (h : s.SourcesOnce e) : s'.SourcesOnce e := by
  unfold EngineState.SourcesOnce at h ⊢
  cases hm with
  | hear hh hans =>
    obtain ⟨w, evs, -, rfl⟩ := hh
    rw [finishedSources_append, finishedSources_of_answers hans, List.append_nil]
    exact h
  | finish hfin hh _ hsources =>
    obtain ⟨w, evs, -, rfl⟩ := hh
    rw [hfin] at h
    rw [finishedSources_append, h, hsources]
    rfl
  | queue _ => exact h
  | merge =>
    show finishedSources (s.log ++ [Event.merged _]) = _
    rw [finishedSources_append]
    exact (List.append_nil _).trans h
  | interrogate _ _ hh hans =>
    obtain ⟨w, evs, -, rfl⟩ := hh
    rw [finishedSources_append, finishedSources_append, finishedSources_of_answers hans, List.append_nil]
    exact (List.append_nil _).trans h
  | scope _ _ hh hans =>
    obtain ⟨w, evs, -, rfl⟩ := hh
    rw [finishedSources_append, finishedSources_of_answers hans, List.append_nil]
    exact h

/-! ## Records -/

theorem EngineState.Recorded.hears (h : s.Recorded) (hh : Hears s s' es) : s'.Recorded := by
  obtain ⟨ops, hg, hp⟩ := h
  obtain ⟨w, evs, hevs, rfl⟩ := hh
  refine ⟨ops ++ evs.map .absorb, ?_, ?_⟩
  · rw [build_append_absorbs, ← hg]
  · rw [recordsOf_append, recordsOf_map_absorb, List.flatMap_append]
    exact hp.append hevs

/-- An operation that absorbs nothing, with an event that brings nothing. -/
theorem EngineState.Recorded.concat (h : s.Recorded) (op : GraphOp) {event : Event} (hop : op.record = none)
    (hevent : event.kept = []) (hg : s'.graph = op.apply s.graph)
    (hlog : s'.log = s.log ++ [event]) : s'.Recorded := by
  obtain ⟨ops, hops, hp⟩ := h
  refine ⟨ops ++ [op], ?_, ?_⟩
  · rw [build_concat, ← hops, hg]
  · rw [recordsOf_append, hlog, List.flatMap_append]
    simpa [recordsOf, hop, hevent] using hp

theorem recorded_move (hm : Move e context s s') (h : s.Recorded) : s'.Recorded := by
  cases hm with
  | hear hh _ => exact h.hears hh
  | finish _ hh _ _ => exact EngineState.Recorded.hears (s := { s with continuousFinished := true }) h hh
  | queue _ => exact h
  | merge => exact h.concat .merge rfl rfl rfl rfl
  | interrogate _ _ hh _ =>
    refine EngineState.Recorded.hears ?_ hh
    obtain ⟨ops, hg, hp⟩ := h
    exact ⟨ops, hg, by simpa [Event.kept] using hp⟩
  | scope _ _ hh _ => exact EngineState.Recorded.hears (by exact h) hh

end Moves

/-! ## The whole run -/

section Run

variable {W : Type}

/-- The accounts of a finished run, where `records` says which of the records an event brings count. -/
structure Accounted (records : Event → List TopologyEvidence) (e : DiscoveryEngine W) (s : EngineState W) : Prop where
  scopes_once : s.scopes.Nodup
  scopes_bounded : s.scopes.length ≤ e.budget.maxScopes
  passes_bounded : s.log.countP Event.isPass ≤ e.budget.maxIterations
  finished_once : finishedSources s.log = List.range e.continuous.length
  absorbed_once : ∃ ops, s.graph = build ops ∧ (recordsOf ops).Perm (s.log.flatMap records)

variable (e : DiscoveryEngine W) (env : Environment W) (context : DiscoveryContext) (initialScope : Option IpNet)
    (w : W)

/-- What is true when the loop is left. -/
theorem accounts_loop (n : Nat) :
    (e.loop env context n (e.seed context initialScope w)).ScopesOnce e.budget ∧
      (e.loop env context n (e.seed context initialScope w)).SourcesOnce e ∧
      (e.loop env context n (e.seed context initialScope w)).Recorded := by
  refine seeded_loop_invariant
    (P := fun s => s.ScopesOnce e.budget ∧ s.SourcesOnce e ∧ s.Recorded) env ?_ ?_ ?_ ?_ n
  · intro runs
    refine ⟨⟨.nil, rfl, Nat.zero_le _⟩, ?_, [], rfl, .nil⟩
    -- without sources there is nothing to finish
    cases hc : e.continuous <;> simp [EngineState.SourcesOnce, DiscoveryEngine.start, finishedSources, hc]
  · rintro s ⟨hscopes, hsources, ops, hg, hp⟩
    refine ⟨hscopes.congr rfl rfl, ?_, ops, hg, ?_⟩
    · show finishedSources (s.log ++ [Event.pass]) = _
      rw [finishedSources_append]
      exact (List.append_nil _).trans hsources
    · simpa [EngineState.emit, Event.kept] using hp
  · rintro s s' hm ⟨hscopes, hsources, hrec⟩
    exact ⟨scopesOnce_move hm hscopes, sourcesOnce_move hm hsources, recorded_move hm hrec⟩
  · rintro s ⟨hscopes, hsources, hrec⟩
    exact ⟨hscopes.congr rfl rfl, hsources, hrec⟩

theorem scopes_seed : (e.seed context initialScope w).ScopesOnce e.budget := by
  obtain ⟨runs, hm⟩ := move_seed e context initialScope w
  exact scopesOnce_move hm ⟨.nil, rfl, Nat.zero_le _⟩

theorem passes_loop (n : Nat) :
    (e.loop env context n (e.seed context initialScope w)).log.countP Event.isPass ≤ n := by
  have hseed : (e.seed context initialScope w).log.countP Event.isPass = 0 := by
    obtain ⟨runs, hm⟩ := move_seed e context initialScope w
    rw [countP_isPass_move hm]
    rfl
  have hloop := countP_isPass_loop e env context n (queue_nodup_seed e context initialScope w)
  omega

/-- **The accounts of every run**, with any providers and sources: no network is processed twice, the budget is kept,
every source is finished once, and every record but those of a device task that panicked is absorbed, once. -/
theorem run_accounted : Accounted Event.kept e (e.run env context initialScope w) := by
  obtain ⟨hscopes, hsources, hrec⟩ := accounts_loop e env context initialScope w e.budget.maxIterations
  have hpasses := passes_loop e env context initialScope w e.budget.maxIterations
  unfold DiscoveryEngine.run
  generalize e.loop env context e.budget.maxIterations (e.seed context initialScope w) =
    s at hscopes hsources hrec hpasses
  obtain ⟨s', es, hh, hall, hlast, hclose⟩ := close_spec e s
  have hrec' : (e.close s).Recorded := by
    rw [hclose]
    exact (hrec.hears hh).concat .finalize rfl rfl rfl rfl
  obtain ⟨w', evs, -, rfl⟩ := hh
  have hscopes' : (e.close s).ScopesOnce e.budget := by
    rw [hclose]
    exact hscopes.congr rfl rfl
  refine ⟨hscopes'.nodup, ?_, ?_, ?_, hrec'⟩
  · rw [← List.toFinset_card_of_nodup hscopes'.nodup, hscopes'.processed]
    exact hscopes'.bounded
  · have hfinished : es.countP Event.isPass = 0 := by
      rw [List.countP_eq_zero]
      intro event hevent
      obtain ⟨i, evs, rfl⟩ := hall event hevent
      exact Bool.false_ne_true
    simpa [hclose, hfinished, Event.isPass] using hpasses
  · rw [hclose, finishedSources_append, finishedSources_append, hsources, hlast]
    cases s.continuousFinished <;> simp [finishedSources, Event.finishes]

/-- A provider that always answers with the same records, where it applies. -/
def DiscoveryProvider.constant (name : Text) (applies : DiscoveryContext → Bool) (evs : List TopologyEvidence) :
    DiscoveryProvider Unit where
  name := name
  applies := fun context _ => applies context
  discover := fun _ w => (⟨evs, [], true⟩, w)
  panics := fun _ _ => false

/-- Devices that answer no probe, at any of the 17 ports asked at every address or the 45 more asked at the preferred
one, and tasks that end in the order they were started in. -/
def Environment.silent : Environment Unit where
  probe := fun target _ w =>
    (some
      { evidence := []
        endpoints := target.endpoints.zipIdx.map fun p =>
          ⟨p.1.toText, p.2 == 0, if p.2 == 0 && target.worthFullInterrogation then 17 + 45 else 17⟩
        protocolsConfirmed := []
        adapterOutcomes := [] }, w)
  joined := fun _ results => results
  joined_perm := fun _ results => .refl results

/-- The context of a run from `eth0`. -/
def ethernet : DiscoveryContext := ⟨⟨"eth0", 2⟩, none, none⟩

/-- What this machine saw for itself. -/
def seenHere (fact : Fact) : TopologyEvidence where
  fact := fact
  source := .arpProbe
  confidence := .observed
  vantage := "eth0"

/-- One device to interrogate; of the two providers that apply to devices, the first finds the network `net` and the
second panics. -/
def panickingEngine (net : IpNet) : DiscoveryEngine Unit where
  seedProviders :=
    [.constant "arp" (fun _ => true) [seenHere (.deviceAddress (.mac "00:11:22:33:44:55") (.v4 (.new 10 0 0 1)))]]
  scopeProviders :=
    [.constant "snmp" (fun context => context.target.isSome) [seenHere (.network net)],
      { DiscoveryProvider.constant "http" (fun context => context.target.isSome) [] with panics := fun _ _ => true }]
  continuous := []
  budget := {}

/-- Not every record that was returned is absorbed: the network found in the device task that panicked is lost. -/
theorem panicking_task_loses_records :
    ¬Accounted Event.returned (panickingEngine (.v4 (.new 10 9 0 0) 24))
      ((panickingEngine (.v4 (.new 10 9 0 0) 24)).run .silent ethernet none ()) := by
  rintro ⟨-, -, -, -, ops, hg, hp⟩
  have hreturned : seenHere (.network (.v4 (.new 10 9 0 0) 24)) ∈
      ((panickingEngine (.v4 (.new 10 9 0 0) 24)).run .silent ethernet none ()).log.flatMap Event.returned := by
    decide
  have hnode : .network (.v4 (.new 10 9 0 0) 24) .localRealm ∈ (build ops).nodes :=
    (mem_nodes_network_build ops).mpr ⟨_, hp.mem_iff.mpr hreturned, ⟨rfl, by decide⟩, rfl⟩
  rw [← hg] at hnode
  revert hnode
  decide

end Run

end Idnx
