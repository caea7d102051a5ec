import Idnx.Engine.Coverage

/-!
# Convergence

A run that reports convergence has left nothing to do if every network this machine observed has a scope run and
nobody is left in the interrogation queue (`Complete`). A pass that stops has seen to both before it decides. If the
sources were finished by then, that settles it. Otherwise they are finished first, and what they return is held
against the networks of *all* domains and against the queue of the graph *before* its identities are merged, so two
kinds of work go unnoticed: a network that a peer had reported and that this machine now reports too, and a device
that becomes worth asking when the last merge folds another into it.

* `NothingLeft` is the condition on what finishing the sources returns;
* `converged_complete_iff`: a run that reports convergence is complete exactly under that condition.
-/

namespace Idnx

/-! ## What the sources return at the end -/

section Finish

variable {W : Type}

/-- What finishing the sources returns, in order. -/
def finishRecords : List (ContinuousSource W) → W → List TopologyEvidence
  | [], _ => []
  | source :: sources, w => (source.finish w).1 ++ finishRecords sources (source.finish w).2

theorem callSources_finish_graph (i : Nat) (sources : List (ContinuousSource W)) (s : EngineState W) :
    (callSources (·.finish) .finished i sources s).graph = s.graph.absorbs (finishRecords sources s.world) := by
  induction sources generalizing i s with
  | nil => rfl
  | cons source sources ih =>
    unfold callSources finishRecords
    rw [absorbs_append]
    exact ih (i + 1) _

/-- Finishing the sources changes the graph, by what they return, the world and the log. -/
theorem finishAll_spec (e : DiscoveryEngine W) (s : EngineState W) :
    ∃ w log, e.finishAll s =
      { s with world := w, graph := s.graph.absorbs (finishRecords e.continuous s.world), log := log } := by
  obtain ⟨es, ⟨w, evs, -, hs⟩, -, -⟩ := hears_finishAll e s
  refine ⟨w, s.log ++ es, ?_⟩
  rw [← callSources_finish_graph 0 e.continuous s]
  show _ = { s with world := w, graph := (e.finishAll s).graph, log := s.log ++ es }
  rw [hs]

end Finish

/-! ## Completeness and the condition for it -/

section Definitions

variable {W : Type}

/-- Nothing is left to do: every network this machine observed has a scope run, and the interrogation queue
is empty. -/
structure Complete (context : DiscoveryContext) (s : EngineState W) : Prop where
  networks : ∀ net ∈ s.report.graph.localNetworks, ∃ scopeRun ∈ s.report.scopeRuns, scopeRun.scope = some net
  devices : interrogationQueue s.report.graph s.interrogated context.vantage = []

theorem complete_iff (context : DiscoveryContext) (s : EngineState W) :
    Complete context s ↔
      (∀ net ∈ s.report.graph.localNetworks, ∃ scopeRun ∈ s.report.scopeRuns, scopeRun.scope = some net) ∧
        interrogationQueue s.report.graph s.interrogated context.vantage = [] :=
  ⟨fun h => ⟨h.networks, h.devices⟩, fun h => ⟨h.1, h.2⟩⟩

/-- The device is `owner`, or the next merge folds it into `owner`. -/
def TopologyGraph.PartOf (g : TopologyGraph) (owner key : DeviceKey) : Prop := key = owner ∨ g.Absorbed key owner

/-- What the sources returned when they were finished, `evs`, leaves nothing to do: a network that one of the local
records among them adds has been processed, and hardware that is not in the interrogated set and that a device is then
to be merged into stays out of the queue, because none of its parts was observed from here, or none at an address that
can be probed. -/
structure NothingLeft (s : EngineState W) (evs : List TopologyEvidence) : Prop where
  networks : ∀ ev ∈ evs, ev.origin = none → ∀ net, ev.Adds net → net ∈ s.processed
  devices : ∀ owner ∉ s.interrogated, ∀ key, (s.graph.absorbs evs).Absorbed key owner →
    (∀ k, (s.graph.absorbs evs).PartOf owner k → ¬LocallyKnown (s.graph.absorbs evs) (.device k)) ∨
      ∀ k a, (s.graph.absorbs evs).PartOf owner k → LocalMark (s.graph.absorbs evs) k a → isProbeable a = false

namespace DiscoveryEngine

variable (e : DiscoveryEngine W) (env : Environment W) (context : DiscoveryContext)

/-- The state in which the pass that left the loop began. -/
def concludingHead : Nat → EngineState W → EngineState W
  | 0, s => s
  | n + 1, s =>
    match e.pass env context s with
    | .again s' => concludingHead n s'
    | .stop _ => s

/-- The state in which the run decided that it has converged: the last pass has polled the sources and merged
identities, and not yet finished the sources. -/
def decidingState (initialScope : Option IpNet) (w : W) : EngineState W :=
  (e.poll (e.concludingHead env context e.budget.maxIterations (e.seed context initialScope w))).2

end DiscoveryEngine

end Definitions

/-! ## Networks -/

section Networks

variable {g : TopologyGraph} {net : IpNet} {realm : Realm}

theorem locallyKnown_network_absorbs (evs : List TopologyEvidence) :
    LocallyKnown (g.absorbs evs) (.network net realm) ↔
      LocallyKnown g (.network net realm) ∨
        ∃ ev ∈ evs, ev.origin = none ∧ ev.Adds net ∧ realm = networkRealm net (Realm.of ev.origin) := by
  induction evs generalizing g with
  | nil => simp [TopologyGraph.absorbs]
  | cons ev evs ih =>
    show LocallyKnown ((g.absorb ev).absorbs evs) _ ↔ _
    rw [ih, locallyKnown_network_absorb, or_assoc]
    simp only [List.mem_cons, or_and_right, exists_or, exists_eq_left]

theorem locallyKnown_network_merge :
    LocallyKnown g.mergeAddressIdentities.1 (.network net realm) ↔ LocallyKnown g (.network net realm) := by
  rw [locallyKnown_merge]
  constructor
  · rintro ⟨i, hi, hk⟩
    by_cases hid : i ∈ g.absorbedIds
    · obtain ⟨k, o, rfl, ha⟩ := TopologyGraph.mem_absorbedIds.mp hid
      rw [TopologyGraph.renameNode_absorbed ha] at hi
      cases hi
    · rw [TopologyGraph.renameNode_of_not_absorbed hid] at hi
      rwa [← hi]
  · intro hk
    refine ⟨_, TopologyGraph.renameNode_of_not_absorbed ?_, hk⟩
    rw [TopologyGraph.mem_absorbedIds]
    rintro ⟨k, o, he, -⟩
    cases he

end Networks

/-! ## Devices -/

section Devices

variable {g : TopologyGraph} {interrogated : Finset DeviceKey}

/-- Everyone worth asking was asked. -/
def AllAsked (g : TopologyGraph) (interrogated : Finset DeviceKey) : Prop :=
  ∀ k, LocallyKnown g (.device k) → (∃ a, LocalMark g k a ∧ isProbeable a = true) → k ∈ interrogated

theorem interrogationQueue_eq_nil (hkeyed : ∀ id n, g.nodes.lookup id = some n → n.id = id) (vantage : Vantage) :
    interrogationQueue g interrogated vantage = [] ↔ AllAsked g interrogated := by
  unfold interrogationQueue
  rw [queueFromGraph_eq_nil hkeyed]
  constructor
  · rintro h k ⟨n, hn, hl⟩ ⟨a, ⟨n', hn', ha⟩, hp⟩
    rw [hn] at hn'
    cases hn'
    exact h k n hn ⟨hl, a, ha, hp⟩
  · rintro h k n hn ⟨hl, a, ha, hp⟩
    exact h k ⟨n, hn, hl⟩ ⟨a, ⟨n, hn, ha⟩, hp⟩

theorem allAsked_finalizeRoles :
    AllAsked g.finalizeRoles interrogated ↔ AllAsked g.mergeAddressIdentities.1 interrogated := by
  unfold AllAsked
  simp only [locallyKnown_finalizeRoles, localMark_finalizeRoles]

/-- What becomes one device in a merge. -/
theorem rename_merges_eq_iff {k owner : DeviceKey} (howner : .device owner ∉ g.absorbedIds) :
    rename g.merges k = owner ↔ g.PartOf owner k := by
  have hnode : rename g.merges k = owner ↔ renameNode g.merges (.device k) = .device owner := by
    rw [renameNode_device, NodeId.device.injEq]
  rw [hnode]
  unfold TopologyGraph.PartOf
  constructor
  · intro h
    by_cases hid : .device k ∈ g.absorbedIds
    · obtain ⟨k', o, he, ha⟩ := TopologyGraph.mem_absorbedIds.mp hid
      cases he
      rw [TopologyGraph.renameNode_absorbed ha] at h
      cases h
      exact .inr ha
    · rw [TopologyGraph.renameNode_of_not_absorbed hid] at h
      exact .inl (NodeId.device.inj h)
  · rintro (rfl | ha)
    · exact TopologyGraph.renameNode_of_not_absorbed howner
    · exact TopologyGraph.renameNode_absorbed ha

/-- A merge leaves everyone asked exactly when no hardware outside the interrogated set gets, from all its parts, what
makes it worth asking. -/
theorem allAsked_merge (h : AllAsked g interrogated) :
    AllAsked g.mergeAddressIdentities.1 interrogated ↔
      ∀ owner ∉ interrogated, ∀ key, g.Absorbed key owner →
        (∀ k, g.PartOf owner k → ¬LocallyKnown g (.device k)) ∨
          ∀ k a, g.PartOf owner k → LocalMark g k a → isProbeable a = false := by
  constructor
  · intro hm owner howner key ha
    have hstays : .device owner ∉ g.absorbedIds :=
      TopologyGraph.mac_not_absorbed (TopologyGraph.isMac_of_mergeTarget ha.2.1).2
    by_contra hboth
    simp only [not_or, not_forall, not_not] at hboth
    obtain ⟨⟨k, hk, hknown⟩, k', a, hk', hmark, hp⟩ := hboth
    refine howner (hm owner (locallyKnown_device_merge.mpr ⟨k, (rename_merges_eq_iff hstays).mpr hk, hknown⟩)
      ⟨a, ?_, ?_⟩)
    · exact localMark_merge.mpr ⟨k', (rename_merges_eq_iff hstays).mpr hk', hmark⟩
    · simpa using hp
  · rintro hc owner hmerged ⟨a, hmarked, hp⟩
    obtain ⟨k, hk, hknown⟩ := locallyKnown_device_merge.mp hmerged
    obtain ⟨k', hk', hmark⟩ := localMark_merge.mp hmarked
    by_contra howner
    have hstays : .device owner ∉ g.absorbedIds := by
      rw [← hk, ← renameNode_device]
      exact g.renameNode_not_absorbed _
    rw [rename_merges_eq_iff hstays] at hk hk'
    have hnot : ∀ key, ¬g.Absorbed key owner := by
      intro key ha
      rcases hc owner howner key ha with hnone | hnone
      · exact hnone k hk hknown
      · rw [hnone k' a hk' hmark] at hp
        cases hp
    -- nothing is folded into `owner`, so it was worth asking before
    obtain rfl : k = owner := hk.resolve_right (hnot k)
    obtain rfl : k' = k := hk'.resolve_right (hnot k')
    exact howner (h k' hknown ⟨a, hmark, hp⟩)

end Devices

/-! ## The last pass -/

section LastPass

variable {W : Type} {e : DiscoveryEngine W} {context : DiscoveryContext} {s s' : EngineState W}

theorem keyed_of_recorded (h : s.Recorded) : ∀ id n, s.graph.nodes.lookup id = some n → n.id = id := by
  obtain ⟨ops, hg, -⟩ := h
  rw [hg]
  exact nodesKeyed_build ops

theorem Move.converged (h : Move e context s s') : s'.converged = s.converged := by
  cases h with
  | hear hh _ => obtain ⟨w, evs, -, rfl⟩ := hh; rfl
  | finish _ hh _ _ => obtain ⟨w, evs, -, rfl⟩ := hh; rfl
  | interrogate _ _ hh _ => obtain ⟨w, evs, -, rfl⟩ := hh; rfl
  | scope _ _ hh _ => obtain ⟨w, evs, -, rfl⟩ := hh; rfl
  | queue _ => rfl
  | merge => rfl

/-- What is true of the state at the head of every pass. -/
structure AtHead (e : DiscoveryEngine W) (s : EngineState W) : Prop where
  queue : s.queue.Nodup
  open_ : s.converged = false
  scopes : s.ScopesOnce e.budget
  followed : s.Followed

theorem AtHead.moves (h : AtHead e s) (hm : Moves e context (s.emit .pass) s') : AtHead e s' where
  queue := hm.invariant (fun _ _ hm => hm.queue_nodup) h.queue
  open_ := hm.invariant (P := fun t => t.converged = false) (fun _ _ hm ht => hm.converged.trans ht) h.open_
  scopes := hm.invariant (fun _ _ hm => scopesOnce_move hm) (h.scopes.congr rfl rfl)
  followed := hm.invariant (fun _ _ hm => followed_move hm) (followed_pass h.followed)

theorem atHead_seed (e : DiscoveryEngine W) (context : DiscoveryContext) (initialScope : Option IpNet) (w : W) :
    AtHead e (e.seed context initialScope w) := by
  obtain ⟨runs, hm⟩ := move_seed e context initialScope w
  exact ⟨queue_nodup_seed e context initialScope w, hm.converged, scopes_seed e context initialScope w,
    followed_seed e context initialScope w⟩

/-- A loop that was left because the run has converged was left by the pass that began in `concludingHead`. -/
theorem loop_converged (env : Environment W) (n : Nat) (h : AtHead e s)
    (hconv : (e.loop env context n s).converged = true) :
    AtHead e (e.concludingHead env context n s) ∧
      ∃ t, e.pass env context (e.concludingHead env context n s) = .stop t ∧
        e.loop env context n s = { t with converged := true } := by
  induction n generalizing s with
  | zero =>
    rw [DiscoveryEngine.loop, h.open_] at hconv
    cases hconv
  | succ n ih =>
    unfold DiscoveryEngine.loop at hconv ⊢
    unfold DiscoveryEngine.concludingHead
    have hmoves := moves_pass e env context h.queue
    cases hend : e.pass env context s with
    | again s' =>
      rw [hend] at hmoves
      simp only [hend] at hconv
      exact ih (h.moves hmoves) hconv
    | stop t => exact ⟨h, t, hend, rfl⟩

/-- With nothing pending, the networks this machine observed have been processed. -/
theorem networks_polled (h : AtHead e s) (context : DiscoveryContext) (hpending : (e.poll s).1 = []) (net : IpNet)
    (realm : Realm) (hknown : LocallyKnown (e.poll s).2.graph (.network net realm)) : net ∈
    (e.poll s).2.processed := by
  obtain ⟨-, -, -, hlocal⟩ := poll_spec e context h.queue
  have hdrained : (e.drainAll (s.emit .pass)).Recorded :=
    recorded_move (move_drainAll e context _) (followed_pass h.followed).recorded
  obtain ⟨ops, hg, -⟩ := hdrained
  rw [poll_graph, locallyKnown_network_merge] at hknown
  by_contra hnot
  have hmem := hlocal net ((mem_localNetworks (by rw [hg]; exact nodesKeyed_build ops)).mpr ⟨realm, hknown⟩) hnot
  rw [hpending] at hmem
  cases hmem

/-- A pass that leaves the loop had nothing pending and nobody outstanding, and finds nobody outstanding again if it
finishes the sources. -/
theorem pass_stop {env : Environment W} {t : EngineState W} (h : e.pass env context s = .stop t) :
    (e.poll s).1 = [] ∧ interrogationQueue (e.poll s).2.graph (e.poll s).2.interrogated context.vantage = [] ∧
      ((e.poll s).2.continuousFinished = true ∧ t = (e.poll s).2 ∨
        (e.poll s).2.continuousFinished = false ∧
          t = e.finishAll { (e.poll s).2 with continuousFinished := true } ∧
            interrogationQueue t.graph t.interrogated context.vantage = []) := by
  unfold DiscoveryEngine.pass at h
  generalize e.poll s = polled at h ⊢
  obtain ⟨pending, p⟩ := polled
  dsimp only at h ⊢
  split_ifs at h with hnone
  rw [Bool.and_eq_true, List.isEmpty_iff, List.isEmpty_iff] at hnone
  refine ⟨hnone.1, hnone.2, ?_⟩
  unfold DiscoveryEngine.conclude at h
  split_ifs at h with hfin
  · cases h
    exact .inl ⟨hfin, rfl⟩
  · dsimp only at h
    split_ifs at h with hgained
    cases h
    refine .inr ⟨by simpa using hfin, rfl, ?_⟩
    simp only [Bool.or_eq_true, not_or] at hgained
    simpa using hgained.2

end LastPass

/-! ## The whole run -/

section Run

variable {W : Type} (e : DiscoveryEngine W) (env : Environment W) (context : DiscoveryContext)
  (initialScope : Option IpNet) (w : W)

theorem close_converged (s : EngineState W) : (e.close s).report.converged = s.converged := by
  obtain ⟨s', es, ⟨w, evs, -, rfl⟩, -, -, hclose⟩ := close_spec e s
  rw [hclose]
  rfl

/-- What the loop leaves when it has converged is complete exactly when its networks are processed and, once
identities are merged, everyone was asked. -/
theorem complete_close_iff {t : EngineState W} (hfin : t.continuousFinished = true) (ht : AtHead e t) :
    Complete context (e.close { t with converged := true }) ↔
      (∀ net realm, LocallyKnown t.graph (.network net realm) → net ∈ t.processed) ∧
        AllAsked t.graph.mergeAddressIdentities.1 t.interrogated := by
  have hkeyed : ∀ id n, t.graph.finalizeRoles.nodes.lookup id = some n → n.id = id := by
    obtain ⟨ops, hg, -⟩ := ht.followed.recorded
    have hbuild := nodesKeyed_build (ops ++ [GraphOp.finalize])
    rw [build_concat, GraphOp.apply, ← hg] at hbuild
    exact hbuild
  have hscope : ∀ net, (∃ scopeRun ∈ t.scopeRuns, scopeRun.scope = some net) ↔ net ∈ t.processed := by
    intro net
    rw [← ht.scopes.processed, List.mem_toFinset, EngineState.scopes, List.mem_filterMap]
  have hnetwork : ∀ net, net ∈ t.graph.finalizeRoles.localNetworks ↔
      ∃ realm, LocallyKnown t.graph (.network net realm) := by
    intro net
    rw [mem_localNetworks hkeyed]
    simp only [locallyKnown_finalizeRoles, locallyKnown_network_merge]
  have hclose : e.close { t with converged := true } =
      { t with
        converged := true
        graph := t.graph.finalizeRoles
        log := t.log ++ [Event.merged t.graph.mergeAddressIdentities.2] } := by
    rw [DiscoveryEngine.close, if_pos hfin]
  rw [hclose]
  refine (complete_iff context _).trans (and_congr ?_ ?_)
  · dsimp only [EngineState.report]
    constructor
    · intro h net realm hknown
      exact (hscope net).mp (h net ((hnetwork net).mpr ⟨realm, hknown⟩))
    · intro h net hnet
      obtain ⟨realm, hknown⟩ := (hnetwork net).mp hnet
      exact (hscope net).mpr (h net realm hknown)
  · dsimp only [EngineState.report]
    rw [interrogationQueue_eq_nil hkeyed, allAsked_finalizeRoles]

/-- The condition is what completeness comes to when the sources are finished in the last pass. -/
theorem complete_finishing_iff {p t : EngineState W} {evs : List TopologyEvidence} (ht : AtHead e t)
    (hgraph : t.graph = p.graph.absorbs evs) (hfin : t.continuousFinished = true)
    (hprocessed : t.processed = p.processed)
    (hinterrogated : t.interrogated = p.interrogated)
    (hnets : ∀ net realm, LocallyKnown p.graph (.network net realm) → net ∈ p.processed)
    (hasked : AllAsked t.graph t.interrogated) :
    Complete context (e.close { t with converged := true }) ↔ NothingLeft p evs := by
  rw [complete_close_iff e context hfin ht, allAsked_merge hasked, hgraph, hprocessed, hinterrogated]
  constructor
  · rintro ⟨hknown, hdevices⟩
    refine ⟨fun ev hev hl net hadds => ?_, hdevices⟩
    exact hknown net _ ((locallyKnown_network_absorbs evs).mpr (.inr ⟨ev, hev, hl, hadds, rfl⟩))
  · rintro ⟨hnew, hdevices⟩
    refine ⟨fun net realm hknown => ?_, hdevices⟩
    rcases (locallyKnown_network_absorbs evs).mp hknown with hknown | ⟨ev, hev, hl, hadds, -⟩
    · exact hnets net realm hknown
    · exact hnew ev hev hl net hadds

/-- **Convergence is real** exactly when the sources had been finished before the last pass, or what they returned
when they were finished leaves nothing to do. -/
theorem converged_complete_iff (hconv : (e.run env context initialScope w).report.converged = true) :
    Complete context (e.run env context initialScope w) ↔
      (e.decidingState env context initialScope w).continuousFinished = true ∨
        NothingLeft (e.decidingState env context initialScope w)
          (finishRecords e.continuous (e.decidingState env context initialScope w).world) := by
  rw [DiscoveryEngine.run, close_converged] at hconv
  obtain ⟨hhead, t, hstop, hend⟩ :=
    loop_converged env e.budget.maxIterations (atHead_seed e context initialScope w) hconv
  unfold DiscoveryEngine.run DiscoveryEngine.decidingState
  rw [hend]
  generalize e.concludingHead env context e.budget.maxIterations (e.seed context initialScope w) = s at hhead hstop ⊢
  obtain ⟨hpending, hqueue, hcases⟩ := pass_stop hstop
  have hnets := networks_polled hhead context hpending
  have htail : AtHead e t := by
    have hmoves := moves_pass e env context hhead.queue
    rw [hstop] at hmoves
    exact hhead.moves hmoves
  rcases hcases with ⟨hfin, rfl⟩ | ⟨hfin, ht, hqueue'⟩
  · -- the graph has been merged and nothing came after
    refine iff_of_true ((complete_close_iff e context hfin htail).mpr ⟨hnets, ?_⟩) (.inl hfin)
    rw [poll_graph, TopologyGraph.merge_merge, ← poll_graph]
    rwa [interrogationQueue_eq_nil (keyed_of_recorded htail.followed.recorded)] at hqueue
  · obtain ⟨w', log, hs⟩ := finishAll_spec e { (e.poll s).2 with continuousFinished := true }
    rw [hs] at ht
    rw [interrogationQueue_eq_nil (keyed_of_recorded htail.followed.recorded)] at hqueue'
    rw [hfin]
    simp only [Bool.false_eq_true, false_or]
    exact complete_finishing_iff e context htail (by rw [ht]) (by rw [ht]) (by rw [ht]) (by rw [ht]) hnets hqueue'

/-- A source that sees a tag when it is finished. -/
def lateTagEngine : DiscoveryEngine Unit where
  seedProviders := []
  scopeProviders := []
  continuous := [⟨fun w => ([], w), fun w => ([seenHere (.vlan 77)], w)⟩]
  budget := {}

theorem lateTag_complete :
    (lateTagEngine.run .silent ethernet none ()).report.converged = true ∧
      Complete ethernet (lateTagEngine.run .silent ethernet none ()) := by
  have hconv : (lateTagEngine.run .silent ethernet none ()).report.converged = true := by decide
  refine ⟨hconv, (converged_complete_iff lateTagEngine _ ethernet none () hconv).mpr (.inr ⟨?_, ?_⟩)⟩
  · intro ev hev _ net hadds
    obtain rfl : ev = seenHere (.vlan 77) := List.mem_singleton.mp hev
    exact hadds.elim
  · intro owner _ key ha
    have hnodes : ((lateTagEngine.decidingState .silent ethernet none ()).graph.absorbs
        [seenHere (.vlan 77)]).nodes.keys = [.vlan 77 .localRealm] := by decide
    have hkey : .device key ∈ [NodeId.vlan 77 .localRealm] := hnodes ▸ AList.mem_keys.mp ha.1
    simp at hkey

/-- A peer reports the network `net`, and this machine's own capture names the same prefix in its last frames. -/
def lateNetworkEngine (net : IpNet) : DiscoveryEngine Unit where
  seedProviders := []
  scopeProviders := []
  continuous :=
    [⟨fun w => ([{ seenHere (.network net) with origin := some ⟨"peer", "eth9", 1, 0⟩ }], w), fun w => ([], w)⟩,
      ⟨fun w => ([], w), fun w => ([seenHere (.network net)], w)⟩]
  budget := {}

/-- The run reports convergence and has not looked at the private network: its prefix was among the networks already,
as the peer's. -/
theorem late_network_missed :
    ((lateNetworkEngine (.v4 (.new 10 9 9 0) 24)).run .silent ethernet none ()).report.converged = true ∧
      ¬Complete ethernet ((lateNetworkEngine (.v4 (.new 10 9 9 0) 24)).run .silent ethernet none ()) := by
  refine ⟨by decide, fun h => ?_⟩
  have hscoped := h.networks (.v4 (.new 10 9 9 0) 24) (by decide)
  revert hscoped
  decide

end Run

end Idnx
