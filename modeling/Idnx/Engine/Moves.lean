import Idnx.Engine.Orchestrator
import Mathlib.Logic.Relation
import Mathlib.Data.List.Range

/-!
# What a run does, move by move

Everything the engine does to its state after it has begun a pass is one of a few moves: calls return and their
records are absorbed, the sources are finished, the queue changes, identities are merged, devices are interrogated, a
network is processed (`Move`). `moves_pass` takes a pass apart once and for all; what holds in every
run is proved of every move (`loop_invariant`).
-/

namespace Idnx

/-! ## What the log says -/

namespace Event

/-- The records of the event that the run is to keep. -/
def kept : Event → List TopologyEvidence
  | .answered evs => evs
  | .task _ evs lost => if lost then [] else evs
  | .drained _ evs => evs
  | .finished _ evs => evs
  | _ => []

/-- Every record that some call returned. -/
def returned : Event → List TopologyEvidence
  | .answered evs => evs
  | .task _ evs _ => evs
  | .drained _ evs => evs
  | .finished _ evs => evs
  | _ => []

/-- A provider, a device task or a source returned, other than from `finish`. -/
def isAnswer : Event → Bool
  | .answered _ => true
  | .task _ _ _ => true
  | .drained _ _ => true
  | _ => false

/-- The source that was finished. -/
def finishes : Event → Option Nat
  | .finished source _ => some source
  | _ => none

def isPass : Event → Bool
  | .pass => true
  | _ => false

theorem finishes_of_isAnswer {event : Event} (h : event.isAnswer = true) : event.finishes = none := by
  cases event <;> first | rfl | cases h

theorem not_isPass_of_isAnswer {event : Event} (h : event.isAnswer = true) : event.isPass = false := by
  cases event <;> first | rfl | cases h

end Event

/-! ## Listening -/

theorem absorbs_append (g : TopologyGraph) (evs evs' : List TopologyEvidence) :
    g.absorbs (evs ++ evs') = (g.absorbs evs).absorbs evs' := List.foldl_append

section Hears

variable {W : Type} {s s' s'' : EngineState W} {es es' : List Event}

/-- All that happened is that calls returned: the events are logged and what they bring to keep is absorbed, in some
order. -/
def Hears (s s' : EngineState W) (es : List Event) : Prop :=
  ∃ w evs, evs.Perm (es.flatMap Event.kept) ∧
    s' = { s with world := w, graph := s.graph.absorbs evs, log := s.log ++ es }

theorem Hears.refl (s : EngineState W) : Hears s s [] := ⟨s.world, [], .nil, by simp [TopologyGraph.absorbs]⟩

theorem Hears.trans (h : Hears s s' es) (h' : Hears s' s'' es') : Hears s s'' (es ++ es') := by
  obtain ⟨w, evs, hp, rfl⟩ := h
  obtain ⟨w', evs', hp', rfl⟩ := h'
  refine ⟨w', evs ++ evs', ?_, ?_⟩
  · rw [List.flatMap_append]
    exact hp.append hp'
  · simp [absorbs_append]

theorem hears_hear (s : EngineState W) (event : Event) (w : W) : Hears s (s.hear event event.kept w) [event] :=
  ⟨w, event.kept, by simp, rfl⟩

theorem hears_runProviders (context : DiscoveryContext) (silent : Text) (ps : List (DiscoveryProvider W))
    (s : EngineState W) :
    ∃ es, Hears s (runProviders context silent ps s).2 es ∧ ∀ event ∈ es, event.isAnswer = true := by
  induction ps generalizing s with
  | nil => exact ⟨[], .refl s, by simp⟩
  | cons p ps ih =>
    unfold runProviders
    split_ifs with ha
    · obtain ⟨es, hes, hans⟩ := ih (s.hear (.answered (p.discover context s.world).1.evidence)
        (p.discover context s.world).1.evidence (p.discover context s.world).2)
      refine ⟨_ :: es, (hears_hear s (.answered _) _).trans hes, ?_⟩
      intro event hevent
      rcases List.mem_cons.mp hevent with rfl | hevent
      · rfl
      · exact hans event hevent
    · exact ih s

/-- Every source is called once, in order. -/
theorem hears_callSources (call : ContinuousSource W → W → List TopologyEvidence × W)
    (event : Nat → List TopologyEvidence → Event) (hevent : ∀ i evs, (event i evs).kept = evs) (i : Nat)
    (sources : List (ContinuousSource W)) (s : EngineState W) :
    ∃ evss : List (List TopologyEvidence), evss.length = sources.length ∧
      Hears s (callSources call event i sources s) ((evss.zipIdx i).map fun p => event p.2 p.1) := by
  induction sources generalizing i s with
  | nil => exact ⟨[], rfl, .refl s⟩
  | cons source sources ih =>
    unfold callSources
    obtain ⟨evss, hlen, hes⟩ := ih (i + 1) (s.hear (event i (call source s.world).1) (call source s.world).1
      (call source s.world).2)
    refine ⟨(call source s.world).1 :: evss, by simp [hlen], ?_⟩
    have hfirst := hears_hear s (event i (call source s.world).1) (call source s.world).2
    rw [hevent] at hfirst
    exact hfirst.trans hes

end Hears

/-! ## Device tasks -/

section Tasks

variable {W : Type} (env : Environment W) (providers : List (DiscoveryProvider W)) (context : DiscoveryContext)

theorem interrogateDevice_device {target : InterrogationTarget} {w : W} {result : DeviceResult}
    (h : (interrogateDevice env target context w).1 = some result) : result.2.device = target.device := by
  unfold interrogateDevice at h
  split_ifs at h
  · cases h
    rfl
  · split at h
    · cases h
    · cases h
      rfl

theorem targetProviders_device (ps : List (DiscoveryProvider W)) (result : DeviceResult) (w : W) :
    (targetProviders context ps result w).1.1.2.device = result.2.device := by
  induction ps generalizing result w with
  | nil => rfl
  | cons p ps ih =>
    unfold targetProviders
    by_cases ha : p.applies context w = true
    · by_cases hp : p.panics context w = true
      · simp only [ha, hp, if_true]
      · simp only [ha, hp, if_true]
        exact ih _ _
    · simp only [ha]
      exact ih result w

/-- What a task hands over is what it is logged to have returned to keep, and is about its device. -/
theorem deviceTask_spec (task : InterrogationTarget) (w : W) :
    (deviceTask env providers context task w).1.1.isAnswer = true ∧
      (deviceTask env providers context task w).1.1.kept =
        ((deviceTask env providers context task w).1.2.toList.flatMap fun result => result.1) ∧
      ∀ result ∈ (deviceTask env providers context task w).1.2, result.2.device = task.device := by
  unfold deviceTask
  dsimp only
  split
  · exact ⟨rfl, rfl, by simp⟩
  · rename_i result w' hresult
    have hdevice : result.2.device = task.device := interrogateDevice_device env _ (congrArg Prod.fst hresult)
    have hsame := targetProviders_device { context with target := task.endpoints.head?.map (·.address) } providers result w'
    revert hsame
    generalize targetProviders { context with target := task.endpoints.head?.map (·.address) } providers result w' =
      out
    obtain ⟨⟨final, lost⟩, w''⟩ := out
    intro hsame
    cases lost with
    | true => exact ⟨rfl, rfl, by simp⟩
    | false =>
      refine ⟨rfl, by simp [Event.kept], ?_⟩
      intro r hr
      cases hr
      exact hsame.trans hdevice

theorem deviceTasks_spec (tasks : List InterrogationTarget) (w : W) :
    (∀ event ∈ (deviceTasks env providers context tasks w).1.map Prod.fst, event.isAnswer = true) ∧
      ((deviceTasks env providers context tasks w).1.map Prod.fst).flatMap Event.kept =
        ((deviceTasks env providers context tasks w).1.filterMap Prod.snd).flatMap Prod.fst ∧
      List.Sublist (((deviceTasks env providers context tasks w).1.filterMap Prod.snd).map fun result =>
        result.2.device)
        (tasks.map fun task => task.device) := by
  induction tasks generalizing w with
  | nil => exact ⟨by simp [deviceTasks], rfl, .slnil⟩
  | cons task tasks ih =>
    unfold deviceTasks
    obtain ⟨hans, hkept, hdev⟩ := deviceTask_spec env providers context task w
    revert hans hkept hdev
    generalize deviceTask env providers context task w = out
    obtain ⟨⟨event, result⟩, w'⟩ := out
    intro hans hkept hdev
    obtain ⟨hans', hkept', hdev'⟩ := ih w'
    refine ⟨?_, ?_, ?_⟩
    · intro x hx
      rcases List.mem_cons.mp hx with rfl | hx
      · exact hans
      · exact hans' x hx
    · cases result with
      | none => simpa [hkept'] using hkept
      | some result => simpa [hkept'] using hkept
    · cases result with
      | none => exact hdev'.cons _
      | some result =>
        have hhead : result.2.device = task.device := hdev result rfl
        rw [List.map_cons, ← hhead]
        exact hdev'.cons_cons result.2.device

/-- The coverage a pass over the queue adds has at most one record for each entry of the queue. -/
theorem hears_enrichDevices (s : EngineState W) (tasks : List InterrogationTarget) :
    ∃ cov es, Hears { s with coverage := s.coverage ++ cov } (s.enrichDevices env providers context tasks) es ∧
      (∀ event ∈ es, event.isAnswer = true) ∧
        (cov.map fun r => r.device).Subperm (tasks.map fun task => task.device) := by
  unfold EngineState.enrichDevices
  obtain ⟨hans, hkept, hdev⟩ := deviceTasks_spec env providers context tasks s.world
  generalize deviceTasks env providers context tasks s.world = out at hans hkept hdev ⊢
  obtain ⟨results, w⟩ := out
  have hperm := env.joined_perm w (results.filterMap (·.2))
  refine ⟨_, results.map (·.1), ⟨w, _, ?_, rfl⟩, hans, ?_⟩
  · rw [hkept]
    exact hperm.flatMap_right _
  · have hsorted := List.perm_insertionSort (fun a b : DeviceCoverage =>
      (compare a.addresses b.addresses).isLE = true)
      ((env.joined w (results.filterMap (·.2))).map (·.2))
    have hall : ((env.joined w (results.filterMap (·.2))).map (·.2)).Perm ((results.filterMap (·.2)).map (·.2)) :=
      hperm.map _
    have hdevices := (hsorted.trans hall).map fun r => r.device
    rw [List.map_map] at hdevices
    exact hdevices.subperm.trans hdev.subperm

end Tasks

/-! ## Moves -/

section Moves

variable {W : Type} (e : DiscoveryEngine W) (context : DiscoveryContext)

/-- The sources a log says were finished, in order. -/
def finishedSources (log : List Event) : List Nat := log.filterMap Event.finishes

/-- One move of a pass. -/
inductive Move : EngineState W → EngineState W → Prop
  | hear {s s' es} : Hears s s' es → (∀ event ∈ es, event.isAnswer = true) → Move s s'
  | finish {s s' es} : s.continuousFinished = false → Hears { s with continuousFinished := true } s' es →
      (∀ event ∈ es, ∃ i evs, event = .finished i evs) → finishedSources es = List.range e.continuous.length →
        Move s s'
  | queue {s queue} : queue.Nodup → Move s { s with queue := queue }
  | merge {s} : Move s s.mergeIdentities
  | interrogate {s s' devices cov es} :
      devices = (interrogationQueue s.graph s.interrogated context.vantage).map (·.device) →
      (cov.map fun r => r.device).Subperm devices →
      Hears
        { s with
          interrogated := s.interrogated ∪ devices.toFinset
          coverage := s.coverage ++ cov
          log := s.log ++ [.queued devices] } s' es →
      (∀ event ∈ es, event.isAnswer = true) → Move s s'
  | scope {s s' net oversized runs es} : net ∉ s.processed → s.processed.card < e.budget.maxScopes →
      Hears
        { s with
          processed := insert net s.processed
          oversized := oversized
          scopeRuns := s.scopeRuns ++ [⟨some net, runs⟩] } s' es →
      (∀ event ∈ es, event.isAnswer = true) → Move s s'

/-- A sequence of moves. -/
abbrev Moves : EngineState W → EngineState W → Prop := Relation.ReflTransGen (Move e context)

variable {e context} {s s' : EngineState W}

/-- **Induction over moves.** -/
theorem Moves.invariant {P : EngineState W → Prop} (hmove : ∀ s s', Move e context s s' → P s → P s')
    (h : Moves e context s s') (hs : P s) : P s' := by
  induction h with
  | refl => exact hs
  | tail _ hm ih => exact hmove _ _ hm ih

theorem Move.queue_nodup (h : Move e context s s') (hs : s.queue.Nodup) : s'.queue.Nodup := by
  cases h with
  | queue hq => exact hq
  | hear hh _ => obtain ⟨w, evs, -, rfl⟩ := hh; exact hs
  | finish _ hh _ _ => obtain ⟨w, evs, -, rfl⟩ := hh; exact hs
  | interrogate _ _ hh _ => obtain ⟨w, evs, -, rfl⟩ := hh; exact hs
  | scope _ _ hh _ => obtain ⟨w, evs, -, rfl⟩ := hh; exact hs
  | merge => exact hs

theorem move_drainAll (e : DiscoveryEngine W) (context : DiscoveryContext) (s : EngineState W) :
    Move e context s (e.drainAll s) := by
  obtain ⟨evss, -, hh⟩ := hears_callSources (fun source => source.drain) .drained (fun _ _ => rfl) 0 e.continuous s
  refine .hear hh ?_
  intro event hevent
  obtain ⟨p, -, rfl⟩ := List.mem_map.mp hevent
  rfl

/-- What finishing the sources does. -/
theorem hears_finishAll (e : DiscoveryEngine W) (s : EngineState W) :
    ∃ es, Hears s (e.finishAll s) es ∧ (∀ event ∈ es, ∃ i evs, event = .finished i evs) ∧
      finishedSources es = List.range e.continuous.length := by
  obtain ⟨evss, hlen, hh⟩ := hears_callSources (fun source => source.finish) .finished
    (fun _ _ => rfl) 0 e.continuous s
  refine ⟨_, hh, ?_, ?_⟩
  · intro event hevent
    obtain ⟨p, -, rfl⟩ := List.mem_map.mp hevent
    exact ⟨_, _, rfl⟩
  · rw [finishedSources, List.filterMap_map, ← hlen]
    have hsome : (Event.finishes ∘ fun p : List TopologyEvidence × Nat => Event.finished p.2 p.1) =
      some ∘ Prod.snd := by
      funext p
      rfl
    rw [hsome, List.filterMap_eq_map, List.zipIdx_map_snd, List.range_eq_range']

theorem enqueue_spec (s : EngineState W) (net : IpNet) :
    ∃ queue, s.enqueue net = { s with queue := queue } ∧ (s.queue.Nodup → queue.Nodup) ∧ s.queue ⊆ queue ∧
      (net ∉ s.processed → net ∈ queue) := by
  unfold EngineState.enqueue
  split_ifs with h
  · refine ⟨s.queue ++ [net], rfl, fun hq => ?_, List.subset_append_left _ _, by simp⟩
    exact List.nodup_append_comm.mp (List.nodup_cons.mpr ⟨h.2, hq⟩)
  · refine ⟨s.queue, rfl, id, fun _ => id, fun hp => ?_⟩
    by_contra hq
    exact h ⟨hp, hq⟩

theorem foldl_enqueue_spec (nets : List IpNet) (s : EngineState W) :
    ∃ queue, nets.foldl EngineState.enqueue s = { s with queue := queue } ∧ (s.queue.Nodup → queue.Nodup) ∧
      s.queue ⊆ queue ∧ ∀ net ∈ nets, net ∉ s.processed → net ∈ queue := by
  induction nets generalizing s with
  | nil => exact ⟨s.queue, rfl, id, fun _ => id, by simp⟩
  | cons net nets ih =>
    obtain ⟨q, hq, hnodup, hsub, hnet⟩ := enqueue_spec s net
    obtain ⟨q', hq', hnodup', hsub', hnets⟩ := ih { s with queue := q }
    refine ⟨q', by rw [List.foldl_cons, hq, hq'], fun h => hnodup' (hnodup h), fun _ h => hsub' (hsub h), ?_⟩
    intro n hn hp
    rcases List.mem_cons.mp hn with rfl | hn
    · exact hsub' (hnet hp)
    · exact hnets n hn hp

/-- What a pass has before it decides: the networks of this machine that are not processed are pending. -/
theorem poll_spec (e : DiscoveryEngine W) (context : DiscoveryContext) (hq : s.queue.Nodup) :
    Moves e context (s.emit .pass) (e.poll s).2 ∧ (e.poll s).1.Nodup ∧
      (∀ net ∈ (e.poll s).1, net ∉ (e.poll s).2.processed) ∧ ∀ net ∈ (e.drainAll (s.emit .pass)).graph.localNetworks,
      net ∉ (e.poll s).2.processed → net ∈ (e.poll s).1 := by
  have hdrain : Moves e context (s.emit .pass) (e.drainAll (s.emit .pass)) :=
    .single (move_drainAll e context _)
  have hdq : (e.drainAll (s.emit .pass)).queue.Nodup := hdrain.invariant (fun _ _ hm => hm.queue_nodup) hq
  unfold DiscoveryEngine.poll
  generalize e.drainAll (s.emit .pass) = d at hdrain hdq
  obtain ⟨queue, hfold, hnodup, -, hnets⟩ := foldl_enqueue_spec d.graph.localNetworks d
  simp only [hfold]
  refine ⟨(hdrain.tail (.queue .nil)).tail .merge, (hnodup hdq).filter _, ?_, ?_⟩
  · intro net hnet
    simpa [EngineState.mergeIdentities] using (List.mem_filter.mp hnet).2
  · intro net hnet hp
    exact List.mem_filter.mpr ⟨hnets net hnet hp, by simpa [EngineState.mergeIdentities] using hp⟩

theorem poll_graph (e : DiscoveryEngine W) (s : EngineState W) :
    (e.poll s).2.graph = (e.drainAll (s.emit .pass)).graph.mergeAddressIdentities.1 := by
  unfold DiscoveryEngine.poll
  obtain ⟨queue, hfold, -, -, -⟩ :=
    foldl_enqueue_spec (e.drainAll (s.emit .pass)).graph.localNetworks (e.drainAll (s.emit .pass))
  simp only [hfold]
  rfl

theorem move_processScope (context : DiscoveryContext) (s : EngineState W) {net : IpNet} (hnet : net ∉ s.processed)
    (hcard : s.processed.card < e.budget.maxScopes) :
    Move e context s (e.processScope context s net) ∧ (e.processScope context s net).processed =
    insert net s.processed := by
  unfold DiscoveryEngine.processScope
  have hruns := hears_runProviders (context.forScope net) "no response" e.scopeProviders
    { s with
      processed := insert net s.processed
      oversized := s.oversized ++ if enumerableHostCount net > e.budget.maxEnumerableHosts then [net] else [] }
  revert hruns
  dsimp only
  generalize runProviders _ _ _ _ = out
  rintro ⟨es, ⟨w, evs, hp, hs⟩, hans⟩
  rw [hs]
  exact ⟨.scope hnet hcard ⟨w, evs, hp, rfl⟩ hans, rfl⟩

theorem moves_processScopes {nets : List IpNet} (hnodup : nets.Nodup) (hnets : ∀ net ∈ nets, net ∉ s.processed) :
    Moves e context s (e.processScopes context nets s) := by
  induction nets generalizing s with
  | nil => exact .refl
  | cons net nets ih =>
    unfold DiscoveryEngine.processScopes
    split_ifs with hcard
    · exact .refl
    · rw [List.nodup_cons] at hnodup
      obtain ⟨hmove, hprocessed⟩ :=
        move_processScope context s (hnets net List.mem_cons_self) (Nat.lt_of_not_le hcard)
      refine .head hmove (ih hnodup.2 ?_)
      intro n hn
      rw [hprocessed, Finset.mem_insert, not_or]
      exact ⟨fun heq => hnodup.1 (heq ▸ hn), hnets n (List.mem_cons_of_mem _ hn)⟩

theorem move_interrogateQueued (e : DiscoveryEngine W) (env : Environment W) (context : DiscoveryContext)
    (s : EngineState W) :
    Move e context s (e.interrogateQueued env context s) ∧
      (e.interrogateQueued env context s).processed = s.processed := by
  unfold DiscoveryEngine.interrogateQueued
  dsimp only
  obtain ⟨cov, es, ⟨w, evs, hp, hs⟩, hans, hcov⟩ := hears_enrichDevices env e.scopeProviders context
    { s with
      interrogated := s.interrogated ∪
        ((interrogationQueue s.graph s.interrogated context.vantage).map (·.device)).toFinset
      log := s.log ++ [Event.queued ((interrogationQueue s.graph s.interrogated context.vantage).map (·.device))] }
    (interrogationQueue s.graph s.interrogated context.vantage)
  rw [hs]
  exact ⟨.interrogate rfl hcov ⟨w, evs, hp, rfl⟩ hans, rfl⟩

theorem moves_conclude (e : DiscoveryEngine W) (context : DiscoveryContext) (s : EngineState W) :
    Moves e context s (e.conclude context s).state := by
  unfold DiscoveryEngine.conclude
  split_ifs with hfin
  · exact .refl
  · obtain ⟨es, hh, hall, hsources⟩ := hears_finishAll e { s with continuousFinished := true }
    have hmove : Move e context s (e.finishAll { s with continuousFinished := true }) :=
      .finish (by simpa using hfin) hh hall hsources
    dsimp only
    split_ifs
    · exact .single hmove
    · exact .single hmove

/-- One pass, taken apart. -/
theorem moves_pass (e : DiscoveryEngine W) (env : Environment W) (context : DiscoveryContext) (hq : s.queue.Nodup) :
    Moves e context (s.emit .pass) (e.pass env context s).state := by
  obtain ⟨hpoll, hnodup, hfresh, -⟩ := poll_spec e context hq
  unfold DiscoveryEngine.pass
  dsimp only
  split_ifs
  · exact hpoll.trans (moves_conclude e context _)
  · obtain ⟨hinter, hprocessed⟩ := move_interrogateQueued e env context (e.poll s).2.mergeIdentities
    refine ((hpoll.tail .merge).tail hinter).trans (moves_processScopes hnodup fun net hnet => ?_)
    rw [hprocessed]
    exact hfresh net hnet

theorem queue_nodup_pass (e : DiscoveryEngine W) (env : Environment W) (context : DiscoveryContext)
    (hq : s.queue.Nodup) : (e.pass env context s).state.queue.Nodup :=
  (moves_pass e env context hq).invariant (fun _ _ hm => hm.queue_nodup) hq

/-- **Induction over the loop.** What the beginning of a pass, every move and the last word keep holds when the loop
is left. -/
theorem loop_invariant {P : EngineState W → Prop} (env : Environment W) (hpass : ∀ s, P s → P (s.emit .pass))
    (hmove : ∀ s s', Move e context s s' → P s → P s') (hconverged : ∀ s, P s → P { s with converged := true })
    (n : Nat)
    (hq : s.queue.Nodup) (hs : P s) :
    P (e.loop env context n s) := by
  induction n generalizing s with
  | zero => exact hs
  | succ n ih =>
    have hend := (moves_pass e env context hq).invariant hmove (hpass s hs)
    have hq' := queue_nodup_pass e env context hq
    unfold DiscoveryEngine.loop
    cases hstop : e.pass env context s with
    | again s' =>
      rw [hstop] at hend hq'
      exact ih hq' hend
    | stop s' =>
      rw [hstop] at hend
      exact hconverged s' hend

theorem move_seed (e : DiscoveryEngine W) (context : DiscoveryContext) (initialScope : Option IpNet) (w : W) :
    ∃ runs, Move e context { e.start initialScope w with scopeRuns := [⟨none, runs⟩] }
    (e.seed context initialScope w) := by
  unfold DiscoveryEngine.seed
  have hruns := hears_runProviders context "no evidence from this vantage" e.seedProviders (e.start initialScope w)
  revert hruns
  dsimp only
  generalize runProviders _ _ _ _ = out
  rintro ⟨es, ⟨w', evs, hp, hs⟩, hans⟩
  refine ⟨out.1, .hear ⟨w', evs, hp, ?_⟩ hans⟩
  rw [hs]
  rfl

theorem queue_nodup_seed (e : DiscoveryEngine W) (context : DiscoveryContext) (initialScope : Option IpNet) (w : W) :
    (e.seed context initialScope w).queue.Nodup := by
  obtain ⟨runs, hseed⟩ := move_seed e context initialScope w
  refine hseed.queue_nodup ?_
  show initialScope.toList.Nodup
  cases initialScope <;> simp

/-- What holds at the start, and what the beginning of a pass, every move and the last word keep, holds when the loop
is left. -/
theorem seeded_loop_invariant {P : EngineState W → Prop} (env : Environment W) {initialScope : Option IpNet} {w : W}
    (hstart : ∀ runs, P { e.start initialScope w with scopeRuns := [⟨none, runs⟩] })
    (hpass : ∀ s, P s → P (s.emit .pass)) (hmove : ∀ s s', Move e context s s' → P s → P s')
    (hconverged : ∀ s, P s → P { s with converged := true }) (n : Nat) :
    P (e.loop env context n (e.seed context initialScope w)) := by
  obtain ⟨runs, hseed⟩ := move_seed e context initialScope w
  exact loop_invariant env hpass hmove hconverged n (queue_nodup_seed e context initialScope w)
    (hmove _ _ hseed (hstart runs))

/-- The end of a run: the sources are finished if they are not, then roles are assigned. -/
theorem close_spec (e : DiscoveryEngine W) (s : EngineState W) :
    ∃ s' es, Hears s s' es ∧ (∀ event ∈ es, ∃ i evs, event = .finished i evs) ∧
      (finishedSources es = if s.continuousFinished then [] else List.range e.continuous.length) ∧
      e.close s =
        { s' with
          graph := s'.graph.finalizeRoles
          log := s'.log ++ [Event.merged s'.graph.mergeAddressIdentities.2] } := by
  unfold DiscoveryEngine.close
  by_cases hfin : s.continuousFinished = true
  · refine ⟨s, [], .refl s, by simp, ?_, ?_⟩
    · rw [if_pos hfin]
      rfl
    · rw [if_pos hfin]
  · obtain ⟨es, hh, hall, hsources⟩ := hears_finishAll e s
    refine ⟨e.finishAll s, es, hh, hall, ?_, ?_⟩
    · rw [if_neg hfin, hsources]
    · rw [if_neg hfin]

end Moves

end Idnx
