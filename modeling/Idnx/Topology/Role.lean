import Idnx.Topology.Evidence
import Mathlib.Algebra.BigOperators.Group.Finset.Basic
import Mathlib.Algebra.Order.BigOperators.Group.Finset

/-!
# Roles

A device becomes a router or a switch because of what it was observed doing, scored over all its signals at once.
-/

namespace Idnx

/-- The role a device plays in the network. -/
inductive DeviceRole where
  | router
  | switch
  | layer3Switch
  | host
  deriving DecidableEq, Repr

/-- Score at which a device is accepted as network infrastructure. -/
def infrastructureThreshold : Nat := 70

/-- Whether a signal argues that the device routes. -/
def RoleSignal.routes : RoleSignal → Bool
  | .defaultGateway => true
  | .dhcpRouter => true
  | .routerAdvertisement => true
  | .internetGatewayDevice => true
  | .snmpForwarding => true
  | .observedForwarding => true
  | .kernelNextHop => true
  | .linkLayerCapability c => Text.contains c "Router"
  | _ => false

/-- Whether a signal argues that the device bridges. -/
def RoleSignal.bridges : RoleSignal → Bool
  | .spanningTreeBridge => true
  | .linkLayerCapability c => Text.contains c "Bridge"
  | _ => false

/-- Decides a device's role from the set of behaviours observed for it. -/
def scoreRole (signals : Finset RoleSignal) : DeviceRole :=
  if signals = ∅ then .host
  else if ∑ s ∈ signals, s.weight < infrastructureThreshold then .host
  else
    match decide (∃ s ∈ signals, s.routes = true), decide (∃ s ∈ signals, s.bridges = true) with
    | true, true => .layer3Switch
    | true, false => .router
    | false, true => .switch
    | false, false => .host

/-! ## More signals -/

/-- A role in which the device routes. -/
def DeviceRole.routes : DeviceRole → Bool
  | .router => true
  | .layer3Switch => true
  | _ => false

/-- A role in which the device bridges. -/
def DeviceRole.bridges : DeviceRole → Bool
  | .switch => true
  | .layer3Switch => true
  | _ => false

section Capabilities

variable {signals more : Finset RoleSignal}

/-- The signals weigh enough, and one of them argues for the capability. -/
def Established (capability : RoleSignal → Bool) (signals : Finset RoleSignal) : Prop :=
  infrastructureThreshold ≤ ∑ s ∈ signals, s.weight ∧ ∃ s ∈ signals, capability s = true

theorem Established.mono {capability : RoleSignal → Bool} (h : Established capability signals)
    (hsub : signals ⊆ more) :
    Established capability more := by
  obtain ⟨hweight, s, hs, hcap⟩ := h
  exact ⟨hweight.trans (Finset.sum_le_sum_of_subset hsub), s, hsub hs, hcap⟩

/-- A role is the capabilities that are established. -/
theorem scoreRole_iff : ((scoreRole signals).routes = true ↔ Established RoleSignal.routes signals) ∧
    ((scoreRole signals).bridges = true ↔ Established RoleSignal.bridges signals) := by
  unfold scoreRole
  split
  case isTrue hempty =>
    subst hempty
    simp [DeviceRole.routes, DeviceRole.bridges, Established]
  split
  case isTrue hlight =>
    simp only [DeviceRole.routes, DeviceRole.bridges, Established, Bool.false_eq_true, false_iff, not_and]
    exact ⟨fun h => by omega, fun h => by omega⟩
  case isFalse hheavy =>
    have hweight : infrastructureThreshold ≤ ∑ s ∈ signals, s.weight := by omega
    by_cases hroutes : ∃ s ∈ signals, s.routes = true
    · by_cases hbridges : ∃ s ∈ signals, s.bridges = true
      · simp only [hroutes, hbridges, Established, hweight, DeviceRole.routes, DeviceRole.bridges, decide_true,
          and_self]
      · simp [hroutes, hbridges, Established, hweight, DeviceRole.routes, DeviceRole.bridges]
    · by_cases hbridges : ∃ s ∈ signals, s.bridges = true
      · simp [hroutes, hbridges, Established, hweight, DeviceRole.routes, DeviceRole.bridges]
      · simp [hroutes, hbridges, Established, hweight, DeviceRole.routes, DeviceRole.bridges]

/-- Further signals never take a capability away. -/
theorem routes_scoreRole_mono (hsub : signals ⊆ more) (h : (scoreRole signals).routes = true) :
    (scoreRole more).routes = true :=
  scoreRole_iff.1.mpr ((scoreRole_iff.1.mp h).mono hsub)

theorem bridges_scoreRole_mono (hsub : signals ⊆ more) (h : (scoreRole signals).bridges = true) :
    (scoreRole more).bridges = true :=
  scoreRole_iff.2.mpr ((scoreRole_iff.2.mp h).mono hsub)

/-- Every signal that argues for routing carries a device over the threshold alone, except a hop on a path. -/
theorem weight_of_routes {s : RoleSignal} (hroutes : s.routes = true) (hs : s ≠ .observedForwarding) :
    infrastructureThreshold ≤ s.weight := by
  cases s with
  | observedForwarding => exact absurd rfl hs
  | linkLayerCapability c => exact (by decide : 70 ≤ 70)
  | ripRouteAdvertisement => cases hroutes
  | spanningTreeBridge => cases hroutes
  | managementSurface => cases hroutes
  | _ => decide

end Capabilities

example : scoreRole {.managementSurface} = .host := by decide
example : scoreRole {.managementSurface, .observedForwarding} = .router := by decide
example : scoreRole {.spanningTreeBridge, .snmpForwarding} = .layer3Switch := by decide

end Idnx
