import Idnx.Engine.Enrich
import Idnx.Topology.Networks
import Mathlib.Data.List.Destutter

/-!
# The discovery engine

`DiscoveryEngine.run` runs providers to a fixed point over everything discovered. A pass polls the continuous sources,
queues the networks this machine observed, merges identities, and then either interrogates the devices and processes
the networks that are outstanding, or, with nothing outstanding, finishes the sources and decides whether the run has
converged.

Providers and sources are arbitrary functions of a world `W` that the run hands from one call to the next; so are the
probes sent to a device, and the order in which the device tasks end (`Environment`). The run also keeps a log of the
calls it made and of what they returned (`Event`), which the source does not have and nothing of the run reads.
-/

namespace Idnx

/-! ## What a run is given -/

/-- The interface a run is made from. -/
structure Vantage where
  interface : Text
  index : UInt32
  deriving DecidableEq, Repr

/-- What a provider is being asked to examine. -/
structure DiscoveryContext where
  vantage : Vantage
  scope : Option IpNet
  target : Option IpAddr
  deriving DecidableEq, Repr

def DiscoveryContext.forScope (context : DiscoveryContext) (scope : IpNet) : DiscoveryContext :=
  { context with scope := some scope, target := none }

/-- What one provider pass produced. -/
structure ProviderOutput where
  evidence : List TopologyEvidence
  notes : List Text
  attempted : Bool

/-- A source of topology evidence. A call that panics ends the run without a report, except in a device task, which is
lost alone: `panics` is asked there only. -/
structure DiscoveryProvider (W : Type) where
  name : Text
  applies : DiscoveryContext → W → Bool
  discover : DiscoveryContext → W → ProviderOutput × W
  panics : DiscoveryContext → W → Bool

/-- A source that observes continuously rather than when asked. -/
structure ContinuousSource (W : Type) where
  drain : W → List TopologyEvidence × W
  finish : W → List TopologyEvidence × W

/-- Safety limits. -/
structure Budget where
  maxScopes : Nat := 64
  maxIterations : Nat := 8
  maxEnumerableHosts : Nat := 4096

structure DiscoveryEngine (W : Type) where
  seedProviders : List (DiscoveryProvider W)
  scopeProviders : List (DiscoveryProvider W)
  continuous : List (ContinuousSource W)
  budget : Budget

/-! ## What a run reports -/

structure ProviderRun where
  provider : Text
  evidenceCount : Nat
  note : Option Text

/-- What a single scope's provider pass produced; no scope for the seed pass. -/
structure ScopeRun where
  scope : Option IpNet
  runs : List ProviderRun

/-- What was probed at one address. -/
structure EndpointCoverage where
  endpoint : Text
  primary : Bool
  tcpAttempted : Nat

/-- What was attempted against one device, and what came back. -/
structure DeviceCoverage where
  device : DeviceKey
  addresses : List Text
  tier : DeviceTier
  discoverySources : List Text
  endpoints : List EndpointCoverage
  protocolsConfirmed : List Text
  adapterOutcomes : List Text
  skipped : Option Text

def DeviceCoverage.tcpAttempted (record : DeviceCoverage) : Nat := (record.endpoints.map (·.tcpAttempted)).sum

/-- How a provider pass is described: its own notes, nothing when it yielded evidence, and `silent` only when
something was transmitted. -/
def runNote (produced : ProviderOutput) (silent : Text) : Option Text :=
  if !produced.notes.isEmpty then some (List.intercalate ("; " : Text) produced.notes)
  else if !produced.evidence.isEmpty then none
  else some (if produced.attempted then silent else ("not attempted" : Text))

/-- Number of addresses that would be enumerated for a prefix, as a `usize`. -/
def enumerableHostCount : IpNet → Nat
  | .v4 _ len => if 32 - len.toNat ≥ 32 then 2 ^ 64 - 1 else 2 ^ (32 - len.toNat) - 2
  | .v6 _ _ => 2 ^ 64 - 1

def Endpoint.toText (e : Endpoint) : Text :=
  match e.zone with
  | some zone => e.address.toText ++ '%' :: zone
  | none => e.address.toText

/-- Addresses of devices with established infrastructure behaviour. -/
def TopologyGraph.pivotAddresses (g : TopologyGraph) : List IpAddr :=
  (((g.pivotDevices.filterMap fun key => g.nodes.lookup (.device key)).flatMap fun n =>
    (reachableAddresses n).filter fun a => isInterrogable a).insertionSort fun a b =>
      (compare a b).isLE).destutter (· ≠ ·)

/-! ## The run -/

/-- What probing a device found, to be filed in its coverage record. -/
structure Findings where
  evidence : List TopologyEvidence
  endpoints : List EndpointCoverage
  protocolsConfirmed : List Text
  adapterOutcomes : List Text

/-- What a device task that ran to its end hands over. -/
abbrev DeviceResult := List TopologyEvidence × DeviceCoverage

/-- What the engine does not decide: what the probes of a device find, if they do not panic, and in which order device
tasks end. -/
structure Environment (W : Type) where
  probe : InterrogationTarget → DiscoveryContext → W → Option Findings × W
  joined : W → List DeviceResult → List DeviceResult
  joined_perm : ∀ w results, (joined w results).Perm results

/-- What the run does, in order: the calls it makes and what they return. -/
inductive Event where
  /-- A pass begins. -/
  | pass
  /-- A provider of a seed or scope pass returned. -/
  | answered (evidence : List TopologyEvidence)
  /-- These devices are interrogated. -/
  | queued (devices : List DeviceKey)
  /-- The records a device task returned, and whether they were lost to a panic. -/
  | task (device : DeviceKey) (evidence : List TopologyEvidence) (lost : Bool)
  | drained (source : Nat) (evidence : List TopologyEvidence)
  | finished (source : Nat) (evidence : List TopologyEvidence)
  /-- A merge of identities returned these aliases. -/
  | merged (aliases : List (DeviceKey × DeviceKey))

/-- The variables of the run. -/
structure EngineState (W : Type) where
  world : W
  graph : TopologyGraph
  scopeRuns : List ScopeRun
  processed : Finset IpNet
  interrogated : Finset DeviceKey
  oversized : List IpNet
  coverage : List DeviceCoverage
  queue : List IpNet
  continuousFinished : Bool
  converged : Bool
  log : List Event

/-- Absorbs records one after the other. -/
def TopologyGraph.absorbs (g : TopologyGraph) (evs : List TopologyEvidence) : TopologyGraph := evs.foldl .absorb g

namespace EngineState

variable {W : Type} (s : EngineState W)

def emit (event : Event) : EngineState W := { s with log := s.log ++ [event] }

/-- Takes in what a call returned. -/
def hear (event : Event) (evs : List TopologyEvidence) (w : W) : EngineState W :=
  { s with world := w, graph := s.graph.absorbs evs, log := s.log ++ [event] }

/-- Puts a network on the queue unless it has been processed or is there already. -/
def enqueue (net : IpNet) : EngineState W :=
  if net ∉ s.processed ∧ net ∉ s.queue then { s with queue := s.queue ++ [net] } else s

end EngineState

/-- Rewrites interrogation state onto the surviving identity of one alias. -/
def followAlias (held : Finset DeviceKey × List DeviceCoverage) (pair : DeviceKey × DeviceKey) :
    Finset DeviceKey × List DeviceCoverage :=
  (if pair.1 ∈ held.1 then insert pair.2 (held.1.erase pair.1) else held.1,
    held.2.map fun record => if record.device = pair.1 then { record with device := pair.2 } else record)

/-- By identity, and of one identity the record that learned more first. -/
def coverageLE (a b : DeviceCoverage) : Bool :=
  ((compare (describeKey a.device) (describeKey b.device)).then (compare b.tcpAttempted a.tcpAttempted)).isLE

/-- Rewrites interrogation state onto surviving identities after a merge. -/
def applyAliases (aliases : List (DeviceKey × DeviceKey)) (interrogated : Finset DeviceKey)
    (coverage : List DeviceCoverage) : Finset DeviceKey × List DeviceCoverage :=
  let held := aliases.foldl followAlias (interrogated, coverage)
  (held.1, (held.2.insertionSort fun a b => coverageLE a b).destutter fun a b => a.device ≠ b.device)

/-- Devices still awaiting interrogation, infrastructure first. -/
def interrogationQueue (graph : TopologyGraph) (interrogated : Finset DeviceKey) (vantage : Vantage) :
    List InterrogationTarget :=
  queueFromGraph graph interrogated vantage.interface vantage.index

/-- Merges identities and lets the interrogation state follow. -/
def EngineState.mergeIdentities {W : Type} (s : EngineState W) : EngineState W :=
  let merged := s.graph.mergeAddressIdentities
  let held := applyAliases merged.2 s.interrogated s.coverage
  { s with
    graph := merged.1
    interrogated := held.1
    coverage := held.2
    log := s.log ++ [.merged merged.2] }

/-! ### Device tasks -/

section Tasks

variable {W : Type} (env : Environment W) (providers : List (DiscoveryProvider W))

/-- Probes one device; nothing comes back from a panic. -/
def interrogateDevice (target : InterrogationTarget) (context : DiscoveryContext) (w : W) : Option DeviceResult × W :=
  if target.endpoints.isEmpty then
    (some ([],
      { device := target.device
        addresses := []
        tier := target.tier
        discoverySources := []
        endpoints := []
        protocolsConfirmed := []
        adapterOutcomes := []
        skipped := some ("no reachable address: the device is known only by link-layer identity" : Text) }), w)
  else
    match env.probe target context w with
    | (none, w) => (none, w)
    | (some found, w) =>
      (some (found.evidence,
        { device := target.device
          addresses := target.endpoints.map Endpoint.toText
          tier := target.tier
          discoverySources := target.discoverySources
          endpoints := found.endpoints
          protocolsConfirmed := found.protocolsConfirmed
          adapterOutcomes := found.adapterOutcomes
          skipped := none }), w)

/-- The providers of a device task, in order, until one panics: what was returned so far, and whether all of it was
lost. -/
def targetProviders (context : DiscoveryContext) :
    List (DiscoveryProvider W) → DeviceResult → W → (DeviceResult × Bool) × W
  | [], result, w => ((result, false), w)
  | p :: ps, result, w =>
    if p.applies context w then
      let (produced, w') := p.discover context w
      if p.panics context w then ((result, true), w')
      else
        targetProviders context ps
          (result.1 ++ produced.evidence,
            { result.2 with
              protocolsConfirmed :=
                result.2.protocolsConfirmed ++ if produced.evidence.isEmpty then [] else [p.name]
              adapterOutcomes := result.2.adapterOutcomes ++ produced.notes }) w'
    else targetProviders context ps result w

/-- One device task: the event it is logged as, and what it hands over unless it panicked. -/
def deviceTask (context : DiscoveryContext) (task : InterrogationTarget) (w : W) :
    (Event × Option DeviceResult) × W :=
  let targeted := { context with target := task.endpoints.head?.map (·.address) }
  match interrogateDevice env task targeted w with
  | (none, w) => ((.task task.device [] true, none), w)
  | (some result, w) =>
    let ((result, lost), w) := targetProviders targeted providers result w
    ((.task task.device result.1 lost, if lost then none else some result), w)

/-- Every queued device's task. -/
def deviceTasks (context : DiscoveryContext) :
    List InterrogationTarget → W → List (Event × Option DeviceResult) × W
  | [], w => ([], w)
  | task :: tasks, w =>
    let (result, w) := deviceTask env providers context task w
    let (results, w) := deviceTasks context tasks w
    (result :: results, w)

/-- Interrogates every queued device, takes in what the tasks that ended well found, and files their coverage. -/
def EngineState.enrichDevices (s : EngineState W) (context : DiscoveryContext) (tasks : List InterrogationTarget) :
    EngineState W :=
  let (results, w) := deviceTasks env providers context tasks s.world
  let joined := env.joined w (results.filterMap (·.2))
  { s with
    world := w
    graph := s.graph.absorbs (joined.flatMap (·.1))
    coverage := s.coverage ++ (joined.map (·.2)).insertionSort fun a b => (compare a.addresses b.addresses).isLE
    log := s.log ++ results.map (·.1) }

end Tasks

/-! ### Passes -/

section Passes

variable {W : Type}

/-- Asks every provider that applies, in order. -/
def runProviders (context : DiscoveryContext) (silent : Text) :
    List (DiscoveryProvider W) → EngineState W → List ProviderRun × EngineState W
  | [], s => ([], s)
  | p :: ps, s =>
    if p.applies context s.world then
      let (produced, w) := p.discover context s.world
      let (runs, s) := runProviders context silent ps (s.hear (.answered produced.evidence) produced.evidence w)
      (⟨p.name, produced.evidence.length, runNote produced silent⟩ :: runs, s)
    else runProviders context silent ps s

/-- Calls every continuous source, in order, and takes in what it returns. -/
def callSources (call : ContinuousSource W → W → List TopologyEvidence × W)
    (event : Nat → List TopologyEvidence → Event) : Nat → List (ContinuousSource W) → EngineState W → EngineState W
  | _, [], s => s
  | i, source :: sources, s =>
    let (evs, w) := call source s.world
    callSources call event (i + 1) sources (s.hear (event i evs) evs w)

/-- How a pass ends: the loop goes on, or it is left because the run has converged. -/
inductive PassEnd (W : Type) where
  | again (s : EngineState W)
  | stop (s : EngineState W)

def PassEnd.state : PassEnd W → EngineState W
  | .again s => s
  | .stop s => s

namespace DiscoveryEngine

variable (e : DiscoveryEngine W) (env : Environment W) (context : DiscoveryContext)

def drainAll (s : EngineState W) : EngineState W := callSources (·.drain) .drained 0 e.continuous s

def finishAll (s : EngineState W) : EngineState W := callSources (·.finish) .finished 0 e.continuous s

/-- The variables as the run begins, with the operator's scope on the queue. -/
def start (initialScope : Option IpNet) (w : W) : EngineState W where
  world := w
  graph := .new
  scopeRuns := []
  processed := ∅
  interrogated := ∅
  oversized := []
  coverage := []
  queue := initialScope.toList
  continuousFinished := e.continuous.isEmpty
  converged := false
  log := []

/-- Seeds from local OS state. -/
def seed (initialScope : Option IpNet) (w : W) : EngineState W :=
  let (runs, s) := runProviders context "no evidence from this vantage" e.seedProviders (e.start initialScope w)
  { s with scopeRuns := s.scopeRuns ++ [⟨none, runs⟩] }

/-- What a pass does before it decides: poll the sources, collect the networks to process, merge identities. -/
def poll (s : EngineState W) : List IpNet × EngineState W :=
  let s := e.drainAll (s.emit .pass)
  let s := s.graph.localNetworks.foldl .enqueue s
  (s.queue.filter fun net => net ∉ s.processed, { s with queue := [] }.mergeIdentities)

/-- Nothing is outstanding. Finish the sources, unless they are, and conclude unless they added something. -/
def conclude (s : EngineState W) : PassEnd W :=
  if s.continuousFinished then .stop s
  else
    let s' := e.finishAll { s with continuousFinished := true }
    let gainedNetwork := s'.graph.networks.any fun net => net ∉ s.graph.networks
    let gainedPivot := s'.graph.pivotAddresses.any fun address => address ∉ s.graph.pivotAddresses
    let gainedDevice := !(interrogationQueue s'.graph s'.interrogated context.vantage).isEmpty
    if gainedNetwork || gainedPivot || gainedDevice then .again s' else .stop s'

/-- Interrogates what is queued. -/
def interrogateQueued (s : EngineState W) : EngineState W :=
  let queued := interrogationQueue s.graph s.interrogated context.vantage
  let devices := queued.map (·.device)
  let s : EngineState W :=
    { s with interrogated := s.interrogated ∪ devices.toFinset, log := s.log ++ [.queued devices] }
  s.enrichDevices env e.scopeProviders context queued

/-- Runs the scope providers on one network. An oversized network is noted as such. -/
def processScope (s : EngineState W) (scope : IpNet) : EngineState W :=
  let s :=
    { s with
      processed := insert scope s.processed
      oversized := s.oversized ++ if enumerableHostCount scope > e.budget.maxEnumerableHosts then [scope] else [] }
  let (runs, s) := runProviders (context.forScope scope) "no response" e.scopeProviders s
  { s with scopeRuns := s.scopeRuns ++ [⟨some scope, runs⟩] }

/-- Processes the networks in order, as far as the budget goes. -/
def processScopes : List IpNet → EngineState W → EngineState W
  | [], s => s
  | scope :: scopes, s =>
    if s.processed.card ≥ e.budget.maxScopes then s else processScopes scopes (e.processScope context s scope)

/-- One pass. -/
def pass (s : EngineState W) : PassEnd W :=
  let (pending, s) := e.poll s
  if pending.isEmpty && (interrogationQueue s.graph s.interrogated context.vantage).isEmpty then e.conclude context s
  else .again (e.processScopes context pending (e.interrogateQueued env context s.mergeIdentities))

/-- At most `n` passes. -/
def loop : Nat → EngineState W → EngineState W
  | 0, s => s
  | n + 1, s =>
    match e.pass env context s with
    | .again s => loop n s
    | .stop s => { s with converged := true }

/-- Finishes the sources if the loop has not, and assigns roles. The aliases of this last merge go nowhere. -/
def close (s : EngineState W) : EngineState W :=
  let s := if s.continuousFinished then s else e.finishAll s
  { s with graph := s.graph.finalizeRoles, log := s.log ++ [.merged s.graph.mergeAddressIdentities.2] }

/-- The complete workflow, from the given starting context. -/
def run (initialScope : Option IpNet) (w : W) : EngineState W :=
  e.close (e.loop env context e.budget.maxIterations (e.seed context initialScope w))

end DiscoveryEngine

/-- Result of a complete discovery run. -/
structure DiscoveryReport where
  graph : TopologyGraph
  scopeRuns : List ScopeRun
  coverage : List DeviceCoverage
  oversizedScopes : List IpNet
  converged : Bool

def EngineState.report (s : EngineState W) : DiscoveryReport where
  graph := s.graph
  scopeRuns := s.scopeRuns
  coverage := s.coverage
  oversizedScopes := s.oversized
  converged := s.converged

end Passes

end Idnx
