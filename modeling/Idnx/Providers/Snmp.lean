import Idnx.Probes.InetRoute
import Idnx.Providers.Passive
import Idnx.Topology.Role

/-!
# Evidence of a harvested device

What one device disclosed over SNMP, as evidence (`snmpHarvestEvidence`). Its routes come from two tables:
`ipRouteTable`, where one gate (`promotableRoute`) decides both whether a row counts as forwarding and what is said
about it, and `inetCidrRouteTable`, where `inetRouteImpliesForwarding` decides the one and `inetRowEvidence` the
other.

* `snmp_gate_iff`: exactly when the rows that count are the rows that are emitted, when a table without routes to
  other networks makes no router, and when one routing state means the same in both tables.
-/

namespace Idnx

/-! ## What was harvested -/

/-- A row of the ARP cache. -/
structure SnmpArpEntry where
  ip : Ipv4Addr
  mac : Text
  deriving DecidableEq, Repr

/-- A row of `ipRouteTable`. `routeType` is 2 for an invalid row, 3 for a direct and 4 for an indirect one. -/
structure SnmpRouteEntry where
  destNetwork : Ipv4Addr
  mask : Ipv4Addr
  nextHop : Ipv4Addr
  routeType : Option Int
  deriving DecidableEq, Repr

namespace SnmpRouteEntry

variable (entry : SnmpRouteEntry)

/-- Whether the device presents this row as a usable route. -/
def usable : Bool := entry.routeType != some 2

/-- Whether the device says it is directly attached to the destination. -/
def direct : Bool := entry.routeType == some 3

end SnmpRouteEntry

/-- What a device disclosed. `forwarding` is `ipForwarding.0`, where it was answered. -/
structure SnmpDeviceInfo where
  forwarding : Option Bool := none
  sysName : Option Text := none
  arpCache : List SnmpArpEntry := []
  routes : List SnmpRouteEntry := []
  localIps : List (Ipv4Addr × Ipv4Addr) := []
  deriving DecidableEq, Repr

/-! ## The rows of `ipRouteTable` -/

inductive RouteKind where
  | direct
  | indirect
  | unstated
  deriving DecidableEq, Repr

/-- A route row validated once, for every consumer of it. -/
structure PromotableRoute where
  network : IpNet
  nextHop : Option IpAddr
  kind : RouteKind
  deriving DecidableEq, Repr

/-- Whether this row is evidence that the device forwards. A direct row is not, and one of no stated type only if it
names a next hop. -/
def PromotableRoute.impliesForwarding (route : PromotableRoute) : Bool :=
  match route.kind with
  | .indirect => true
  | .unstated => route.nextHop.isSome
  | .direct => false

/-- The single gate a route row passes before anything is said about it. -/
def promotableRoute (entry : SnmpRouteEntry) : Option PromotableRoute := do
  if !entry.usable then none
  let len ← contiguousPrefixLen entry.mask
  if ¬(1 ≤ len ∧ len ≤ 31) ∨ entry.destNetwork.isUnspecified then none
  let net ← Ipv4Net.new entry.destNetwork len
  return {
    network := net.trunc.toNet
    nextHop := if entry.nextHop.isUnspecified then none else some (.v4 entry.nextHop)
    kind := if entry.direct then .direct else if entry.routeType = some 4 then .indirect else .unstated }

/-! ## The rows of `inetCidrRouteTable` -/

/-- Whether a prefix from a routing table is a network this run examines: not a default route, not a host route. -/
def usableRoutePrefix : IpNet → Bool
  | .v4 _ len => 1 ≤ len.val && len.val ≤ 31
  | .v6 _ len => 1 ≤ len.val && len.val ≤ 127

/-- Whether a modern row is evidence that the device forwards. -/
def inetRouteImpliesForwarding (route : InetRoute) : Bool :=
  if !route.active then false
  else
    match route.routeType with
    | .valid .remote => route.usableNextHop.isSome
    | .valid .other => route.usableNextHop.isSome
    | .valid .localRoute => false
    | .valid .reject => false
    | .valid .blackhole => false
    | .missing => route.usableNextHop.isSome
    | .invalid _ => false

section Evidence

variable (vantage : Text) (now : Nat) (device : DeviceKey)

/-- A record of this harvest. -/
def harvested (fact : Fact) (detail : Option Text := none) : TopologyEvidence :=
  seen vantage now .snmp .advertised fact detail

/-- The destination of a row as text. -/
def InetRoute.describeDestination (route : InetRoute) : Text :=
  route.index.destination.describe ++ '/' :: Text.ofNat route.index.prefixLen.toNat

/-- What is said about a row instead of anything about the network. -/
def inetRemark (route : InetRoute) (text : Text) : List TopologyEvidence :=
  [harvested vantage now (.deviceDescription device text) (some route.describe)]

/-- What a row in force, of a type that forwards or attaches, states: only a usable prefix becomes a network, and only
a next hop that can be identified a route. -/
def inetNetworkEvidence (route : InetRoute) : List TopologyEvidence :=
  match route.index.network with
  | none =>
    inetRemark vantage now device route
      (("routes to " : Text) ++ route.index.destination.describe ++ (" within its own scope" : Text))
  | some net =>
    if !usableRoutePrefix net then []
    else
      harvested vantage now (.network net) (some route.describe) ::
        if route.routeType.valid? = some .localRoute then
          [harvested vantage now (.attachedTo device net) (some route.describe)]
        else route.usableNextHop.toList.map fun hop =>
          harvested vantage now (.routesTo device net (some hop)) (some route.describe)

/-- What one modern row states. A row that is not in force, is unreadable or discards traffic is reported as such. -/
def inetRowEvidence (route : InetRoute) : List TopologyEvidence :=
  let remark := inetRemark vantage now device route
  if !route.active then
    let why :=
      match route.status with
      | .valid status => ("row status " : Text) ++ Text.ofInt status
      | column => column.describe "row status"
    remark (("routing row for " : Text) ++ route.describeDestination ++ (" not promoted: " : Text) ++ why)
  else
    match route.routeType with
    | .invalid reason =>
      remark (("routing row for " : Text) ++ route.describeDestination ++ (" not promoted: " : Text) ++ reason)
    | .missing => inetNetworkEvidence vantage now device route
    | .valid kind =>
      if kind.discards then
        remark (("discards traffic to " : Text) ++ route.describeDestination ++ (" (" : Text) ++ kind.label ++
          (")" : Text))
      else inetNetworkEvidence vantage now device route

/-- Turns the version-neutral routing table into evidence. -/
def inetRouteEvidence (routes : List InetRoute) : List TopologyEvidence :=
  routes.flatMap (inetRowEvidence vantage now device)

/-- What one row of `ipRouteTable` states. -/
def legacyRowEvidence (entry : SnmpRouteEntry) : List TopologyEvidence :=
  match promotableRoute entry with
  | none => []
  | some route =>
    harvested vantage now (.network route.network) ::
      match route.kind with
      | .direct => [harvested vantage now (.attachedTo device route.network)]
      | .indirect =>
        [harvested vantage now (.routesTo device route.network route.nextHop) (some "ipRouteType indirect(4)")]
      | .unstated =>
        [harvested vantage now (.routesTo device route.network route.nextHop)
          (some "ipRouteType not returned; directness unstated")]

/-- What one row of `ipAddrTable` states: an address of the device, and the network it is attached to there. -/
def localIpEvidence (target : Ipv4Addr) : Ipv4Addr × Ipv4Addr → List TopologyEvidence
  | (addr, mask) =>
    (if addr ≠ target then [harvested vantage now (.deviceAddress device (.v4 addr))] else []) ++
      match contiguousPrefixLen mask with
      | none => []
      | some len =>
        if 1 ≤ len ∧ len ≤ 31 then
          match Ipv4Net.new addr len with
          | none => []
          | some net =>
            [harvested vantage now (.network net.trunc.toNet),
              harvested vantage now (.attachedTo device net.trunc.toNet)]
        else []

/-- Why the device counts as forwarding, if it does. -/
def forwardingBasis (forwarding : Option Bool) (legacyRows modernRows : Nat) : Option Text :=
  let rowsFrom : Text :=
    match legacyRows, modernRows with
    | legacy, 0 => Text.ofNat legacy ++ (" forwarding route(s) from ipRouteTable" : Text)
    | 0, modern => Text.ofNat modern ++ (" forwarding route(s) from inetCidrRouteTable" : Text)
    | legacy, modern =>
      Text.ofNat (legacy + modern) ++ (" forwarding route(s) across SNMP routing tables (" : Text) ++
        Text.ofNat legacy ++ (" from ipRouteTable, " : Text) ++ Text.ofNat modern ++
        (" from inetCidrRouteTable)" : Text)
  match forwarding, legacyRows + modernRows with
  | some true, 0 => some "reports ipForwarding(1)"
  | some true, _ => some (("reports ipForwarding(1) and " : Text) ++ rowsFrom)
  | _, rows => if rows > 0 then some (("returned " : Text) ++ rowsFrom) else none

end Evidence

/-- Turns one device's harvested state into evidence. -/
def snmpHarvestEvidence (info : SnmpDeviceInfo) (inetRoutes : List InetRoute) (target : Ipv4Addr) (vantage : Text)
    (now : Nat) : List TopologyEvidence :=
  let device := DeviceKey.address (.v4 target)
  let legacyRows := ((info.routes.filterMap promotableRoute).filter PromotableRoute.impliesForwarding).length
  let modernRows := (inetRoutes.filter inetRouteImpliesForwarding).length
  [seen vantage now .snmp .observed (.deviceAddress device (.v4 target))] ++
    ((forwardingBasis info.forwarding legacyRows modernRows).toList.map fun basis =>
      harvested vantage now (.deviceRoleSignal device .snmpForwarding) (some basis)) ++
    (info.sysName.toList.map fun name => harvested vantage now (.deviceHostname device name)) ++
    info.localIps.flatMap (localIpEvidence vantage now device target) ++
    info.routes.flatMap (legacyRowEvidence vantage now device) ++
    inetRouteEvidence vantage now device inetRoutes ++
    info.arpCache.map fun entry => harvested vantage now (.deviceAddress (.ofMac entry.mac) (.v4 entry.ip))

/-! ## What the evidence says -/

/-- Some record states the fact. -/
def Stated (evs : List TopologyEvidence) (fact : Fact) : Prop := ∃ ev ∈ evs, ev.fact = fact

/-- The signals the records hold for a device. -/
def signalsFrom (evs : List TopologyEvidence) (device : DeviceKey) : List RoleSignal :=
  evs.filterMap fun ev =>
    match ev.fact with
    | .deviceRoleSignal d signal => if d = device then some signal else none
    | _ => none

/-- The role the records come to for a device, by its signals. -/
def roleFrom (evs : List TopologyEvidence) (device : DeviceKey) : DeviceRole :=
  scoreRole (signalsFrom evs device).toFinset

section Stated

variable {evs more : List TopologyEvidence} {fact : Fact}

theorem stated_append : Stated (evs ++ more) fact ↔ Stated evs fact ∨ Stated more fact := by
  simp only [Stated, List.mem_append, or_and_right, exists_or]

theorem stated_cons {ev : TopologyEvidence} : Stated (ev :: evs) fact ↔ ev.fact = fact ∨ Stated evs fact := by
  simp [Stated]

theorem stated_nil : ¬Stated [] fact := by
  simp [Stated]

theorem stated_map {α : Type} {f : α → TopologyEvidence} {l : List α} :
    Stated (l.map f) fact ↔ ∃ a ∈ l, (f a).fact = fact := by
  simp [Stated]

theorem stated_flatMap {α : Type} {f : α → List TopologyEvidence} {l : List α} :
    Stated (l.flatMap f) fact ↔ ∃ a ∈ l, Stated (f a) fact := by
  simp only [Stated, List.mem_flatMap]
  constructor
  · rintro ⟨ev, ⟨a, ha, hev⟩, hfact⟩
    exact ⟨a, ha, ev, hev, hfact⟩
  · rintro ⟨a, ha, ev, hev, hfact⟩
    exact ⟨ev, ⟨a, ha, hev⟩, hfact⟩

theorem mem_signalsFrom {device : DeviceKey} {signal : RoleSignal} :
    signal ∈ signalsFrom evs device ↔ Stated evs (.deviceRoleSignal device signal) := by
  simp only [signalsFrom, List.mem_filterMap, Stated]
  constructor
  · rintro ⟨ev, hev, h⟩
    refine ⟨ev, hev, ?_⟩
    split at h
    · split_ifs at h with hd
      cases h
      rename_i hfact
      rw [hfact, hd]
    · cases h
  · rintro ⟨ev, hev, hfact⟩
    exact ⟨ev, hev, by simp [hfact]⟩

end Stated

/-- The network of an address and a mask that is neither a default nor a host route. -/
def blockOf (addr mask : Ipv4Addr) : Option IpNet :=
  match contiguousPrefixLen mask with
  | none => none
  | some len => if 1 ≤ len ∧ len ≤ 31 then (Ipv4Net.new addr len).map fun net => net.trunc.toNet else none

/-- The row counts toward the forwarding signal. -/
def SnmpRouteEntry.Counted (entry : SnmpRouteEntry) : Prop :=
  ∃ route, promotableRoute entry = some route ∧ route.impliesForwarding = true

/-- The row is in force, and forwards or attaches: of a type that was read and does not discard, or of none. -/
def InetRoute.Promoted (route : InetRoute) : Prop :=
  route.active = true ∧ (route.routeType = .missing ∨ ∃ kind, route.routeType = .valid kind ∧ kind.discards = false)

/-- The network a modern row puts on the map. -/
def InetRoute.Names (route : InetRoute) (net : IpNet) : Prop :=
  route.Promoted ∧ route.index.network = some net ∧ usableRoutePrefix net = true

section Rows

variable {vantage : Text} {now : Nat} {device : DeviceKey}

theorem promotableRoute_eq (entry : SnmpRouteEntry) :
    promotableRoute entry =
      if entry.usable = true ∧ entry.destNetwork.isUnspecified = false then
        (blockOf entry.destNetwork entry.mask).map fun net =>
          { network := net
            nextHop := if entry.nextHop.isUnspecified then none else some (.v4 entry.nextHop)
            kind := if entry.direct then .direct else if entry.routeType = some 4 then .indirect else .unstated }
      else none := by
  unfold promotableRoute blockOf
  cases hu : entry.usable with
  | false => simp
  | true =>
    cases hz : entry.destNetwork.isUnspecified with
    | true => cases contiguousPrefixLen entry.mask <;> simp
    | false =>
      cases contiguousPrefixLen entry.mask with
      | none => simp
      | some len =>
        by_cases hlen : 1 ≤ len ∧ len ≤ 31
        · have hshort : ¬31 < len := by omega
          cases hnet : Ipv4Net.new entry.destNetwork len <;> simp [hlen, hshort, hnet]
        · simp [hlen]

theorem stated_localIp {target : Ipv4Addr} {row : Ipv4Addr × Ipv4Addr} {net : IpNet} :
    Stated (localIpEvidence vantage now device target row) (.network net) ↔ blockOf row.1 row.2 = some net := by
  obtain ⟨addr, mask⟩ := row
  have haddress : ¬Stated (if addr ≠ target then [harvested vantage now (.deviceAddress device (.v4 addr))] else [])
      (.network net) := by
    split_ifs <;> simp [Stated, harvested, seen]
  rw [localIpEvidence, stated_append, or_iff_right haddress, blockOf]
  cases contiguousPrefixLen mask with
  | none => simp [Stated]
  | some len =>
    dsimp only
    split_ifs
    · cases Ipv4Net.new addr len <;> simp [Stated, harvested, seen]
    · simp [Stated]

theorem stated_legacyRow {entry : SnmpRouteEntry} {net : IpNet} :
    Stated (legacyRowEvidence vantage now device entry) (.network net) ↔
      ∃ route, promotableRoute entry = some route ∧ route.network = net := by
  unfold legacyRowEvidence
  cases promotableRoute entry with
  | none => simp [Stated]
  | some route =>
    dsimp only
    cases route.kind <;> simp [Stated, harvested, seen]

theorem stated_inetNetwork {route : InetRoute} {net : IpNet} :
    Stated (inetNetworkEvidence vantage now device route) (.network net) ↔
      route.index.network = some net ∧ usableRoutePrefix net = true := by
  unfold inetNetworkEvidence
  cases route.index.network with
  | none => simp [Stated, inetRemark, harvested, seen]
  | some found =>
    dsimp only
    cases hu : usableRoutePrefix found with
    | false =>
      simp only [Bool.not_false, if_true, Option.some.injEq]
      refine ⟨fun h => absurd h stated_nil, ?_⟩
      rintro ⟨rfl, h⟩
      rw [hu] at h
      cases h
    | true =>
      simp only [Bool.not_true, Bool.false_eq_true, if_false, stated_cons, Option.some.injEq]
      have hrest : ¬Stated (if route.routeType.valid? = some .localRoute then
          [harvested vantage now (.attachedTo device found) (some route.describe)]
        else route.usableNextHop.toList.map fun hop =>
          harvested vantage now (.routesTo device found (some hop)) (some route.describe)) (.network net) := by
        split_ifs <;> simp [Stated, harvested, seen]
      rw [or_iff_left hrest]
      constructor
      · intro h
        cases h
        exact ⟨rfl, hu⟩
      · rintro ⟨rfl, -⟩
        rfl

/-- What a row that passes the first checks says is what it says about the network. -/
theorem inetRowEvidence_of_promoted {route : InetRoute} (h : route.Promoted) :
    inetRowEvidence vantage now device route = inetNetworkEvidence vantage now device route := by
  obtain ⟨ha, ht | ⟨kind, ht, hd⟩⟩ := h
  · simp [inetRowEvidence, ha, ht]
  · simp [inetRowEvidence, ha, ht, hd]

/-- Any other row is only remarked on. -/
theorem inetRowEvidence_of_not_promoted (vantage : Text) (now : Nat) (device : DeviceKey) {route : InetRoute}
    (h : ¬route.Promoted) :
    ∃ text, inetRowEvidence vantage now device route = inetRemark vantage now device route text := by
  unfold inetRowEvidence
  cases ha : route.active with
  | false => exact ⟨_, rfl⟩
  | true =>
    cases ht : route.routeType with
    | invalid reason => exact ⟨_, rfl⟩
    | missing => exact absurd ⟨ha, .inl ht⟩ h
    | valid kind =>
      cases hd : kind.discards with
      | true => exact ⟨_, by simp [hd]; rfl⟩
      | false => exact absurd ⟨ha, .inr ⟨kind, ht, hd⟩⟩ h

theorem stated_inetRow {route : InetRoute} {net : IpNet} :
    Stated (inetRowEvidence vantage now device route) (.network net) ↔ route.Names net := by
  by_cases h : route.Promoted
  · rw [inetRowEvidence_of_promoted h, stated_inetNetwork, InetRoute.Names, and_iff_right h]
  · obtain ⟨text, he⟩ := inetRowEvidence_of_not_promoted vantage now device h
    rw [he, InetRoute.Names, iff_false_right (fun hn => h hn.1)]
    simp [Stated, inetRemark, harvested, seen]

section Signals

variable {d : DeviceKey} {signal : RoleSignal}

theorem not_stated_signal_localIp {target : Ipv4Addr} {row : Ipv4Addr × Ipv4Addr} :
    ¬Stated (localIpEvidence vantage now device target row) (.deviceRoleSignal d signal) := by
  obtain ⟨addr, mask⟩ := row
  rw [localIpEvidence, stated_append, not_or]
  constructor
  · split_ifs <;> simp [Stated, harvested, seen]
  · cases contiguousPrefixLen mask with
    | none => exact stated_nil
    | some len =>
      dsimp only
      split_ifs
      · cases Ipv4Net.new addr len <;> simp [Stated, harvested, seen]
      · exact stated_nil

theorem not_stated_signal_legacyRow {entry : SnmpRouteEntry} :
    ¬Stated (legacyRowEvidence vantage now device entry) (.deviceRoleSignal d signal) := by
  unfold legacyRowEvidence
  cases promotableRoute entry with
  | none => exact stated_nil
  | some route =>
    dsimp only
    cases route.kind <;> simp [Stated, harvested, seen]

theorem not_stated_signal_inetRow {route : InetRoute} :
    ¬Stated (inetRowEvidence vantage now device route) (.deviceRoleSignal d signal) := by
  by_cases h : route.Promoted
  · rw [inetRowEvidence_of_promoted h, inetNetworkEvidence]
    cases route.index.network with
    | none => simp [Stated, inetRemark, harvested, seen]
    | some net =>
      dsimp only
      split_ifs <;> simp [Stated, harvested, seen]
  · obtain ⟨text, he⟩ := inetRowEvidence_of_not_promoted vantage now device h
    simp [he, Stated, inetRemark, harvested, seen]

end Signals

end Rows

section Harvest

variable {info : SnmpDeviceInfo} {inetRoutes : List InetRoute} {target : Ipv4Addr} {vantage : Text} {now : Nat}

/-- The networks on the map: those of the device's own addresses, and those of the rows of the two tables. -/
theorem stated_network {net : IpNet} :
    Stated (snmpHarvestEvidence info inetRoutes target vantage now) (.network net) ↔
      (∃ row ∈ info.localIps, blockOf row.1 row.2 = some net) ∨
      (∃ entry ∈ info.routes, ∃ route, promotableRoute entry = some route ∧ route.network = net) ∨
        ∃ route ∈ inetRoutes, route.Names net := by
  unfold snmpHarvestEvidence inetRouteEvidence
  simp only [stated_append, stated_cons, stated_map, stated_flatMap, stated_localIp, stated_legacyRow, stated_inetRow]
  simp [Stated, harvested, seen, or_assoc]

theorem forwardingBasis_isSome {forwarding : Option Bool} {legacyRows modernRows : Nat} :
    (forwardingBasis forwarding legacyRows modernRows).isSome = true ↔
      forwarding = some true ∨ 0 < legacyRows ∨ 0 < modernRows := by
  have hunsaid : ∀ said, said ≠ some true →
      ((forwardingBasis said legacyRows modernRows).isSome = true ↔ 0 < legacyRows ∨ 0 < modernRows) := by
    intro said hsaid
    have hrows : (0 < legacyRows ∨ 0 < modernRows) ↔ legacyRows + modernRows > 0 := by omega
    rw [hrows]
    match said with
    | some true => exact absurd rfl hsaid
    | some false =>
      unfold forwardingBasis
      dsimp only
      split_ifs with h <;> simp [h]
    | none =>
      unfold forwardingBasis
      dsimp only
      split_ifs with h <;> simp [h]
  by_cases hsaid : forwarding = some true
  · subst hsaid
    unfold forwardingBasis
    cases legacyRows + modernRows <;> simp
  · rw [hunsaid forwarding hsaid, or_iff_right hsaid]

/-- A signal is raised: by what the device says of itself, or by a row that counts. -/
def Raised (info : SnmpDeviceInfo) (inetRoutes : List InetRoute) : Prop :=
  info.forwarding = some true ∨ (∃ entry ∈ info.routes, entry.Counted) ∨
    ∃ route ∈ inetRoutes, inetRouteImpliesForwarding route = true

/-- The one signal there can be, and when there is one. -/
theorem stated_signal {d : DeviceKey} {signal : RoleSignal} :
    Stated (snmpHarvestEvidence info inetRoutes target vantage now) (.deviceRoleSignal d signal) ↔
      (d = .address (.v4 target) ∧ signal = .snmpForwarding) ∧ Raised info inetRoutes := by
  have hlegacy : 0 < ((info.routes.filterMap promotableRoute).filter PromotableRoute.impliesForwarding).length ↔
      ∃ entry ∈ info.routes, entry.Counted := by
    simp only [List.length_pos_iff_exists_mem, List.mem_filter, List.mem_filterMap, SnmpRouteEntry.Counted]
    constructor
    · rintro ⟨route, ⟨entry, hmem, hroute⟩, hforwards⟩
      exact ⟨entry, hmem, route, hroute, hforwards⟩
    · rintro ⟨entry, hmem, route, hroute, hforwards⟩
      exact ⟨route, ⟨entry, hmem, hroute⟩, hforwards⟩
  have hmodern : 0 < (inetRoutes.filter inetRouteImpliesForwarding).length ↔
      ∃ route ∈ inetRoutes, inetRouteImpliesForwarding route = true := by
    simp only [List.length_pos_iff_exists_mem, List.mem_filter]
  rw [Raised, ← hlegacy, ← hmodern, ← forwardingBasis_isSome]
  unfold snmpHarvestEvidence inetRouteEvidence
  simp only [stated_append, stated_cons, stated_map, stated_flatMap, not_stated_signal_localIp,
    not_stated_signal_legacyRow, not_stated_signal_inetRow]
  cases forwardingBasis info.forwarding
    ((info.routes.filterMap promotableRoute).filter PromotableRoute.impliesForwarding).length
    (inetRoutes.filter inetRouteImpliesForwarding).length with
  | none => simp [Stated, harvested, seen]
  | some basis => simp [Stated, harvested, seen, eq_comm]

/-- The role of the device: a router if a signal is raised, else a host. -/
theorem roleFrom_harvest :
    (Raised info inetRoutes →
      roleFrom (snmpHarvestEvidence info inetRoutes target vantage now) (.address (.v4 target)) = .router) ∧
    (¬Raised info inetRoutes →
      roleFrom (snmpHarvestEvidence info inetRoutes target vantage now) (.address (.v4 target)) = .host) := by
  have hmem : ∀ signal, signal ∈ (signalsFrom (snmpHarvestEvidence info inetRoutes target vantage now)
      (.address (.v4 target))).toFinset ↔ signal = .snmpForwarding ∧ Raised info inetRoutes := by
    intro signal
    rw [List.mem_toFinset, mem_signalsFrom, stated_signal]
    simp
  constructor
  · intro h
    have hone : (signalsFrom (snmpHarvestEvidence info inetRoutes target vantage now)
        (.address (.v4 target))).toFinset = {.snmpForwarding} := by
      ext signal
      rw [hmem, and_iff_left h, Finset.mem_singleton]
    rw [roleFrom, hone]
    decide
  · intro h
    have hnone : (signalsFrom (snmpHarvestEvidence info inetRoutes target vantage now)
        (.address (.v4 target))).toFinset = ∅ := by
      ext signal
      simp [hmem, h]
    rw [roleFrom, hnone]
    decide

/-- Two harvests of one device come to the same role if both raise a signal or neither does. -/
theorem roleFrom_harvest_eq_iff {other : SnmpDeviceInfo} {others : List InetRoute} :
    roleFrom (snmpHarvestEvidence info inetRoutes target vantage now) (.address (.v4 target)) =
        roleFrom (snmpHarvestEvidence other others target vantage now) (.address (.v4 target)) ↔
      (Raised info inetRoutes ↔ Raised other others) := by
  by_cases h : Raised info inetRoutes
  · by_cases h' : Raised other others
    · simp [roleFrom_harvest.1 h, roleFrom_harvest.1 h', h, h']
    · simp [roleFrom_harvest.1 h, roleFrom_harvest.2 h', h, h']
  · by_cases h' : Raised other others
    · simp [roleFrom_harvest.2 h, roleFrom_harvest.1 h', h, h']
    · simp [roleFrom_harvest.2 h, roleFrom_harvest.2 h', h, h']

end Harvest

/-! ## The gate -/

/-- A row's records are among those of the harvest, and state a network and a route of the device to it. -/
def Emitted (out row : List TopologyEvidence) (device : DeviceKey) : Prop :=
  row ⊆ out ∧ ∃ net hop, Stated row (.network net) ∧ Stated row (.routesTo device net hop)

/-- A row of `ipRouteTable` that is no route to another network: a default or a host route, a connected one, or one
whose destination or mask is unusable. -/
def SnmpRouteEntry.Idle (entry : SnmpRouteEntry) : Prop :=
  entry.direct = true ∨ entry.destNetwork.isUnspecified = true ∨ blockOf entry.destNetwork entry.mask = none

namespace InetRoute

variable (route : InetRoute)

/-- The row is about a network that can be placed on the map. -/
def Placeable : Prop := ∃ net, route.index.network = some net ∧ usableRoutePrefix net = true

/-- A modern row that is no route to another network. -/
def Idle : Prop := route.routeType = .valid .localRoute ∨ ¬route.Placeable

/-- The row is in force, of a type that may forward, and names a next hop. -/
def Forwards : Prop :=
  route.active = true ∧
    (route.routeType = .missing ∨ route.routeType = .valid .remote ∨ route.routeType = .valid .other) ∧
    route.usableNextHop.isSome = true

variable {route}

theorem impliesForwarding_iff : inetRouteImpliesForwarding route = true ↔ route.Forwards := by
  unfold inetRouteImpliesForwarding Forwards
  cases ha : route.active with
  | false => simp
  | true =>
    cases ht : route.routeType with
    | missing => simp
    | invalid reason => simp
    | valid kind => cases kind <;> simp

theorem Forwards.promoted (h : route.Forwards) : route.Promoted := by
  obtain ⟨ha, ht | ht | ht, -⟩ := h
  · exact ⟨ha, .inl ht⟩
  · exact ⟨ha, .inr ⟨_, ht, rfl⟩⟩
  · exact ⟨ha, .inr ⟨_, ht, rfl⟩⟩

end InetRoute

/-- Every modern row that forwards is about a network that can be placed. -/
def Gated (inetRoutes : List InetRoute) : Prop := ∀ route ∈ inetRoutes, route.Forwards → route.Placeable

section Emission

variable {vantage : Text} {now : Nat} {device : DeviceKey}

/-- A row of `ipRouteTable` that counts states its network and a route to it: one gate decides both. -/
theorem stated_of_counted {entry : SnmpRouteEntry} (h : entry.Counted) :
    ∃ net hop, Stated (legacyRowEvidence vantage now device entry) (.network net) ∧
      Stated (legacyRowEvidence vantage now device entry) (.routesTo device net hop) := by
  obtain ⟨route, hroute, hforwards⟩ := h
  refine ⟨route.network, route.nextHop, ?_⟩
  unfold legacyRowEvidence
  rw [hroute]
  dsimp only
  unfold PromotableRoute.impliesForwarding at hforwards
  cases hk : route.kind with
  | direct =>
    rw [hk] at hforwards
    cases hforwards
  | indirect => simp [Stated, harvested, seen]
  | unstated => simp [Stated, harvested, seen]

/-- A modern row that forwards does so only if its network can be placed. -/
theorem stated_iff_placeable {route : InetRoute} (h : route.Forwards) :
    (∃ net hop, Stated (inetRowEvidence vantage now device route) (.network net) ∧
      Stated (inetRowEvidence vantage now device route) (.routesTo device net hop)) ↔ route.Placeable := by
  constructor
  · rintro ⟨net, -, hnet, -⟩
    obtain ⟨-, hname, husable⟩ := stated_inetRow.mp hnet
    exact ⟨net, hname, husable⟩
  · rintro ⟨net, hname, husable⟩
    obtain ⟨hop, hhop⟩ := Option.isSome_iff_exists.mp h.2.2
    refine ⟨net, some hop, stated_inetRow.mpr ⟨h.promoted, hname, husable⟩, ?_⟩
    have hremote : route.routeType.valid? ≠ some .localRoute := by
      obtain ⟨-, ht | ht | ht, -⟩ := h <;> simp [ht, Column.valid?]
    rw [inetRowEvidence_of_promoted h.promoted, inetNetworkEvidence, hname]
    simp [husable, hremote, hhop, Stated, harvested, seen]

end Emission

/-- A row of one table and a row of the other describe one IPv4 route: the same destination, length and next hop, the
same type where it is stated, and in force. -/
structure SameRoute (entry : SnmpRouteEntry) (route : InetRoute) : Prop where
  active : route.active = true
  address : route.index.destination.address = some (.v4 entry.destNetwork)
  zone : route.index.destination.zone = none
  length : contiguousPrefixLen entry.mask = some route.index.prefixLen.toNat
  hop : route.usableNextHop = if entry.nextHop.isUnspecified then none else some (.v4 entry.nextHop)
  type : (entry.routeType, route.routeType) ∈
    [(some 1, .valid .other), (some 3, .valid .localRoute), (some 4, .valid .remote), (none, .missing)]

namespace SnmpRouteEntry

variable (entry : SnmpRouteEntry)

/-- The row is not connected and names a next hop. -/
def Via : Prop := entry.direct = false ∧ entry.nextHop.isUnspecified = false

/-- The row is about a network that can be placed on the map. -/
def Placeable : Prop :=
  entry.destNetwork.isUnspecified = false ∧ (blockOf entry.destNetwork entry.mask).isSome = true

end SnmpRouteEntry

namespace SameRoute

variable {entry : SnmpRouteEntry} {route : InetRoute} (h : SameRoute entry route)
include h

theorem usable : entry.usable = true := by
  have ht := h.type
  simp only [List.mem_cons, Prod.mk.injEq, List.not_mem_nil, or_false] at ht
  obtain ⟨ht, -⟩ | ⟨ht, -⟩ | ⟨ht, -⟩ | ⟨ht, -⟩ := ht <;> simp [SnmpRouteEntry.usable, ht]

theorem promoted : route.Promoted := by
  refine ⟨h.active, ?_⟩
  have ht := h.type
  simp only [List.mem_cons, Prod.mk.injEq, List.not_mem_nil, or_false] at ht
  obtain ⟨-, ht⟩ | ⟨-, ht⟩ | ⟨-, ht⟩ | ⟨-, ht⟩ := ht
  · exact .inr ⟨_, ht, rfl⟩
  · exact .inr ⟨_, ht, rfl⟩
  · exact .inr ⟨_, ht, rfl⟩
  · exact .inl ht

/-- The modern row forwards if the route is not connected and has a next hop. -/
theorem forwards_iff : route.Forwards ↔ entry.Via := by
  have hhop : route.usableNextHop.isSome = true ↔ entry.nextHop.isUnspecified = false := by
    rw [h.hop]
    cases entry.nextHop.isUnspecified <;> simp
  have ht := h.type
  simp only [List.mem_cons, Prod.mk.injEq, List.not_mem_nil, or_false] at ht
  unfold InetRoute.Forwards SnmpRouteEntry.Via SnmpRouteEntry.direct
  rw [hhop, and_iff_right h.active]
  obtain ⟨he, hr⟩ | ⟨he, hr⟩ | ⟨he, hr⟩ | ⟨he, hr⟩ := ht <;> simp [he, hr]

/-- The other row counts if its network can be placed and it is indirect, or has a next hop and is not connected. -/
theorem counted_iff : entry.Counted ↔ entry.Placeable ∧ (entry.routeType = some 4 ∨ entry.Via) := by
  unfold SnmpRouteEntry.Counted SnmpRouteEntry.Placeable SnmpRouteEntry.Via
  rw [promotableRoute_eq]
  cases hz : entry.destNetwork.isUnspecified with
  | true => simp
  | false =>
    cases blockOf entry.destNetwork entry.mask with
    | none => simp
    | some net =>
      cases hd : entry.direct with
      | true =>
        have h3 : entry.routeType = some 3 := by simpa [SnmpRouteEntry.direct] using hd
        simp [h.usable, PromotableRoute.impliesForwarding, h3]
      | false =>
        by_cases h4 : entry.routeType = some 4
        · simp [h.usable, PromotableRoute.impliesForwarding, h4]
        · cases entry.nextHop.isUnspecified <;> simp [h.usable, PromotableRoute.impliesForwarding, h4]

theorem names_iff {net : IpNet} : route.Names net ↔ blockOf entry.destNetwork entry.mask = some net := by
  unfold InetRoute.Names InetRouteIndex.network blockOf
  rw [and_iff_right h.promoted, h.address, h.zone, h.length]
  simp only [IpNet.new, Ipv4Net.new, Option.map_map]
  generalize route.index.prefixLen.toNat = len
  by_cases hlen : len < 33
  · rw [dif_pos hlen]
    constructor
    · rintro ⟨hnet, husable⟩
      cases hnet
      have hbounds : 1 ≤ len ∧ len ≤ 31 := by
        simpa [usableRoutePrefix, Ipv4Net.toNet, IpNet.trunc] using husable
      rw [if_pos hbounds]
      rfl
    · intro hnet
      split_ifs at hnet with hbounds
      cases hnet
      exact ⟨rfl, by simpa [usableRoutePrefix, Ipv4Net.toNet, Ipv4Net.trunc] using hbounds⟩
  · have hbounds : ¬(1 ≤ len ∧ len ≤ 31) := by omega
    simp [hlen, hbounds]

theorem network_iff {net : IpNet} : (∃ promoted, promotableRoute entry = some promoted ∧ promoted.network = net) ↔
    entry.destNetwork.isUnspecified = false ∧ blockOf entry.destNetwork entry.mask = some net := by
  rw [promotableRoute_eq]
  cases hz : entry.destNetwork.isUnspecified with
  | true => simp
  | false => cases blockOf entry.destNetwork entry.mask <;> simp [h.usable]

end SameRoute

section Tables

variable {info : SnmpDeviceInfo} {inetRoutes : List InetRoute} {target : Ipv4Addr} {vantage : Text} {now : Nat}

theorem emitted_iff_gated :
    ((∀ entry ∈ info.routes, entry.Counted →
        Emitted (snmpHarvestEvidence info inetRoutes target vantage now)
          (legacyRowEvidence vantage now (.address (.v4 target)) entry) (.address (.v4 target))) ∧
      ∀ route ∈ inetRoutes, inetRouteImpliesForwarding route = true →
        Emitted (snmpHarvestEvidence info inetRoutes target vantage now)
          (inetRowEvidence vantage now (.address (.v4 target)) route) (.address (.v4 target))) ↔
          Gated inetRoutes := by
  constructor
  · rintro ⟨-, h⟩ route hmem hforwards
    exact (stated_iff_placeable hforwards).mp (h route hmem (InetRoute.impliesForwarding_iff.mpr hforwards)).2
  · intro h
    constructor
    · intro entry hmem hcounted
      refine ⟨fun ev hev => ?_, stated_of_counted hcounted⟩
      unfold snmpHarvestEvidence
      simp only [List.mem_append, List.mem_flatMap]
      exact .inl (.inl (.inr ⟨entry, hmem, hev⟩))
    · intro route hmem himplies
      have hforwards := InetRoute.impliesForwarding_iff.mp himplies
      refine ⟨fun ev hev => ?_, (stated_iff_placeable hforwards).mpr (h route hmem hforwards)⟩
      unfold snmpHarvestEvidence inetRouteEvidence
      simp only [List.mem_append, List.mem_flatMap]
      exact .inl (.inr ⟨route, hmem, hev⟩)

theorem SnmpRouteEntry.Idle.not_counted {entry : SnmpRouteEntry} (h : entry.Idle) : ¬entry.Counted := by
  rintro ⟨route, hroute, hforwards⟩
  rw [promotableRoute_eq, Option.ite_none_right_eq_some] at hroute
  obtain ⟨hpass, hroute⟩ := hroute
  obtain ⟨net, hnet, rfl⟩ := Option.map_eq_some_iff.mp hroute
  obtain hd | hz | hb := h
  · simp [PromotableRoute.impliesForwarding, hd] at hforwards
  · rw [hz] at hpass
    cases hpass.2
  · rw [hb] at hnet
    cases hnet

theorem InetRoute.Idle.not_placeable {route : InetRoute} (h : route.Idle) (hforwards : route.Forwards) :
    ¬route.Placeable := by
  obtain hlocal | hplace := h
  · obtain ⟨-, ht | ht | ht, -⟩ := hforwards <;> simp [hlocal] at ht
  · exact hplace

/-- Where no row is a route to another network, a signal is raised exactly by a modern row that is not gated. -/
theorem raised_iff_not_gated (hsaid : info.forwarding ≠ some true) (hlegacy : ∀ entry ∈ info.routes, entry.Idle)
    (hmodern : ∀ route ∈ inetRoutes, route.Idle) : Raised info inetRoutes ↔ ¬Gated inetRoutes := by
  constructor
  · rintro (h | ⟨entry, hmem, hcounted⟩ | ⟨route, hmem, himplies⟩) hgated
    · exact hsaid h
    · exact (hlegacy entry hmem).not_counted hcounted
    · have hforwards := InetRoute.impliesForwarding_iff.mp himplies
      exact (hmodern route hmem).not_placeable hforwards (hgated route hmem hforwards)
  · intro hgated
    simp only [Gated, not_forall] at hgated
    obtain ⟨route, hmem, hforwards, -⟩ := hgated
    exact .inr (.inr ⟨route, hmem, InetRoute.impliesForwarding_iff.mpr hforwards⟩)

section SameState

variable {entries : List SnmpRouteEntry} {routes : List InetRoute} (h : List.Forall₂ SameRoute entries routes)
include h

/-- What one table has some row for, the other has some row for. -/
theorem exists_mem_iff_of_same {p : InetRoute → Prop} {q : SnmpRouteEntry → Prop}
    (hpq : ∀ {entry route}, SameRoute entry route → (p route ↔ q entry)) :
    (∃ route ∈ routes, p route) ↔ ∃ entry ∈ entries, q entry := by
  induction h with
  | nil => simp
  | cons hsame _ ih => simp [hpq hsame, ih]

theorem exists_mem_congr_of_same {p q : SnmpRouteEntry → Prop}
    (hpq : ∀ {entry route}, SameRoute entry route → (p entry ↔ q entry)) :
    (∃ entry ∈ entries, p entry) ↔ ∃ entry ∈ entries, q entry := by
  induction h with
  | nil => simp
  | cons hsame _ ih => simp [hpq hsame, ih]

/-- The two tables come to one role if the device says itself that it forwards, or some row counts in both or in
neither. -/
theorem same_role_iff :
    roleFrom (snmpHarvestEvidence { info with routes := entries } [] target vantage now) (.address (.v4 target)) =
        roleFrom (snmpHarvestEvidence { info with routes := [] } routes target vantage now) (.address (.v4 target)) ↔
      info.forwarding = some true ∨
        ((∃ entry ∈ entries, entry.Placeable ∧ (entry.routeType = some 4 ∨ entry.Via)) ↔
          ∃ entry ∈ entries, entry.Via) := by
  rw [roleFrom_harvest_eq_iff, Raised, Raised, exists_mem_congr_of_same h SameRoute.counted_iff,
    exists_mem_iff_of_same h fun hsame => InetRoute.impliesForwarding_iff.trans hsame.forwards_iff]
  by_cases hsaid : info.forwarding = some true
  · simp [hsaid]
  · simp [hsaid]

/-- The two tables put the same networks on the map, but for those whose address is all zeros. -/
theorem same_networks_iff :
    (∀ net, Stated (snmpHarvestEvidence { info with routes := entries } [] target vantage now) (.network net) ↔
        Stated (snmpHarvestEvidence { info with routes := [] } routes target vantage now) (.network net)) ↔
      ∀ entry ∈ entries, entry.destNetwork.isUnspecified = true →
        ∀ net, blockOf entry.destNetwork entry.mask = some net →
          (∃ row ∈ info.localIps, blockOf row.1 row.2 = some net) ∨
            ∃ other ∈ entries, other.destNetwork.isUnspecified = false ∧
              blockOf other.destNetwork other.mask = some net := by
  have hlegacy : ∀ net, (∃ entry ∈ entries, ∃ route, promotableRoute entry = some route ∧ route.network = net) ↔
      ∃ entry ∈ entries, entry.destNetwork.isUnspecified = false ∧ blockOf entry.destNetwork entry.mask = some net :=
    fun net => exists_mem_congr_of_same h fun hsame => hsame.network_iff
  have hmodern : ∀ net, (∃ route ∈ routes, route.Names net) ↔
      ∃ entry ∈ entries, blockOf entry.destNetwork entry.mask = some net :=
    fun net => exists_mem_iff_of_same h fun hsame => hsame.names_iff
  simp only [stated_network, hlegacy, hmodern, List.not_mem_nil, false_and, exists_false, or_false, false_or]
  constructor
  · intro hsame entry hmem _ net hnet
    exact (hsame net).mpr (.inr ⟨entry, hmem, hnet⟩)
  · intro hzero net
    constructor
    · rintro (hown | ⟨entry, hmem, -, hnet⟩)
      · exact .inl hown
      · exact .inr ⟨entry, hmem, hnet⟩
    · rintro (hown | ⟨entry, hmem, hnet⟩)
      · exact .inl hown
      · cases hz : entry.destNetwork.isUnspecified with
        | true => exact hzero entry hmem hz net hnet
        | false => exact .inr ⟨entry, hmem, hz, hnet⟩

end SameState

end Tables

/-- **One gate for role and topology, and where it is two.** A row of `ipRouteTable` that counts as forwarding always
states its network and a route to it. A modern row that counts does so exactly if its network can be placed; so with
no route to another network in either table, the device is made a router exactly by a modern row that forwards toward
none that can be placed. And one IPv4 routing state means the same role and the same networks in both tables exactly
as stated. -/
theorem snmp_gate_iff (info : SnmpDeviceInfo) (inetRoutes : List InetRoute) (target : Ipv4Addr) (vantage : Text)
    (now : Nat) :
    (((∀ entry ∈ info.routes, entry.Counted →
          Emitted (snmpHarvestEvidence info inetRoutes target vantage now)
            (legacyRowEvidence vantage now (.address (.v4 target)) entry) (.address (.v4 target))) ∧
        ∀ route ∈ inetRoutes, inetRouteImpliesForwarding route = true →
          Emitted (snmpHarvestEvidence info inetRoutes target vantage now)
            (inetRowEvidence vantage now (.address (.v4 target)) route) (.address (.v4 target))) ↔ Gated inetRoutes) ∧
      (info.forwarding ≠ some true → (∀ entry ∈ info.routes, entry.Idle) → (∀ route ∈ inetRoutes, route.Idle) →
        ((roleFrom (snmpHarvestEvidence info inetRoutes target vantage now) (.address (.v4 target))).routes = false ↔
          Gated inetRoutes)) ∧
      ∀ entries routes, List.Forall₂ SameRoute entries routes →
        ((roleFrom (snmpHarvestEvidence { info with routes := entries } [] target vantage now)
        (.address (.v4 target)) =
              roleFrom (snmpHarvestEvidence { info with routes := [] } routes target vantage now)
                (.address (.v4 target)) ↔
            info.forwarding = some true ∨
              ((∃ entry ∈ entries, entry.Placeable ∧ (entry.routeType = some 4 ∨ entry.Via)) ↔
                ∃ entry ∈ entries, entry.Via)) ∧
          ((∀ net, Stated (snmpHarvestEvidence { info with routes := entries } [] target vantage now) (.network net) ↔
              Stated (snmpHarvestEvidence { info with routes := [] } routes target vantage now) (.network net)) ↔
            ∀ entry ∈ entries, entry.destNetwork.isUnspecified = true →
              ∀ net, blockOf entry.destNetwork entry.mask = some net →
                (∃ row ∈ info.localIps, blockOf row.1 row.2 = some net) ∨
                  ∃ other ∈ entries, other.destNetwork.isUnspecified = false ∧
                    blockOf other.destNetwork other.mask = some net)) := by
  refine ⟨emitted_iff_gated, ?_, fun entries routes h => ⟨same_role_iff h, same_networks_iff h⟩⟩
  intro hsaid hlegacy hmodern
  have hraised := raised_iff_not_gated hsaid hlegacy hmodern
  by_cases hgated : Gated inetRoutes
  · simp [roleFrom_harvest.2 (fun h => hraised.mp h hgated), hgated, DeviceRole.routes]
  · simp [roleFrom_harvest.1 (hraised.mpr hgated), hgated, DeviceRole.routes]

/-- A route as a row of `ipRouteTable` has it, through 10.0.0.1. -/
def viaGateway (dest mask : Ipv4Addr) : SnmpRouteEntry where
  destNetwork := dest
  mask := mask
  nextHop := .new 10 0 0 1
  routeType := some 4

/-- The route as a row of `inetCidrRouteTable`. -/
def inetViaGateway (dest : Ipv4Addr) (len : UInt8) : InetRoute where
  index :=
    { destination := { family := .ipv4, address := some (.v4 dest), zone := none }
      prefixLen := len
      policy := []
      nextHop := { family := .ipv4, address := some (.v4 (.new 10 0 0 1)), zone := none } }
  instanceOid := []
  ifIndex := none
  routeType := .valid .remote
  proto := none
  metric := none
  status := .valid 1

/-- A route to another network makes one role and one set of networks of both tables, and a connected one
no router. -/
theorem snmp_gate_iff_one_route :
    roleFrom (snmpHarvestEvidence { routes := [viaGateway (.new 10 1 0 0) (.new 255 255 0 0)] } []
    (.new 10 0 0 2) [] 0)
        (.address (.v4 (.new 10 0 0 2))) =
      roleFrom (snmpHarvestEvidence {} [inetViaGateway (.new 10 1 0 0) 16] (.new 10 0 0 2) [] 0)
        (.address (.v4 (.new 10 0 0 2))) ∧
    (roleFrom (snmpHarvestEvidence
        { routes := [{ viaGateway (.new 10 0 0 0) (.new 255 255 255 0) with routeType := some 3 }] } []
          (.new 10 0 0 2) [] 0)
      (.address (.v4 (.new 10 0 0 2)))).routes = false := by
  have hsame : SameRoute (viaGateway (.new 10 1 0 0) (.new 255 255 0 0)) (inetViaGateway (.new 10 1 0 0) 16) := by
    refine ⟨by decide, rfl, rfl, by decide, by decide, by decide⟩
  refine ⟨((snmp_gate_iff {} [] (.new 10 0 0 2) [] 0).2.2 _ _ (.cons hsame .nil)).1.mpr (.inr ?_), ?_⟩
  · simp only [List.mem_singleton, exists_eq_left]
    have hvia : (viaGateway (.new 10 1 0 0) (.new 255 255 0 0)).Via := ⟨by decide, by decide⟩
    have hplace : (viaGateway (.new 10 1 0 0) (.new 255 255 0 0)).Placeable := ⟨by decide, by decide⟩
    simp only [hvia, hplace, or_true, and_self]
  · refine ((snmp_gate_iff _ [] (.new 10 0 0 2) [] 0).2.1 (by decide) ?_ (List.forall_mem_nil _)).mpr
      (List.forall_mem_nil _)
    rw [List.forall_mem_singleton]
    exact .inl (by decide)

/-- An ordinary host's default route, read from the modern table, makes the host a router without a network or a route
being stated for it; from the other table it does not. -/
theorem default_route_makes_a_router :
    (inetRouteImpliesForwarding (inetViaGateway (.new 0 0 0 0) 0) = true ∧
      ¬Emitted (snmpHarvestEvidence {} [inetViaGateway (.new 0 0 0 0) 0] (.new 10 0 0 2) [] 0)
        (inetRowEvidence [] 0 (.address (.v4 (.new 10 0 0 2))) (inetViaGateway (.new 0 0 0 0) 0))
        (.address (.v4 (.new 10 0 0 2)))) ∧
    ((inetViaGateway (.new 0 0 0 0) 0).Idle ∧
      roleFrom (snmpHarvestEvidence {} [inetViaGateway (.new 0 0 0 0) 0] (.new 10 0 0 2) [] 0)
        (.address (.v4 (.new 10 0 0 2))) = .router) ∧
    SameRoute (viaGateway (.new 0 0 0 0) (.new 0 0 0 0)) (inetViaGateway (.new 0 0 0 0) 0) ∧
      roleFrom (snmpHarvestEvidence { routes := [viaGateway (.new 0 0 0 0) (.new 0 0 0 0)] } [] (.new 10 0 0 2) [] 0)
        (.address (.v4 (.new 10 0 0 2))) = .host := by
  have hforwards : (inetViaGateway (.new 0 0 0 0) 0).Forwards :=
    ⟨by decide, .inr (.inl rfl), by decide⟩
  have hplace : ¬(inetViaGateway (.new 0 0 0 0) 0).Placeable := by
    rintro ⟨net, hnet, husable⟩
    have hzero : (inetViaGateway (.new 0 0 0 0) 0).index.network = some (.v4 (.new 0 0 0 0) 0) := by decide
    rw [hzero] at hnet
    cases hnet
    revert husable
    decide
  have himplies := InetRoute.impliesForwarding_iff.mpr hforwards
  refine ⟨⟨himplies, fun h => hplace ((stated_iff_placeable hforwards).mp h.2)⟩,
    ⟨.inr hplace, roleFrom_harvest.1 (.inr (.inr ⟨_, List.mem_singleton_self _, himplies⟩))⟩,
    ⟨by decide, rfl, rfl, by decide, by decide, by decide⟩, roleFrom_harvest.2 ?_⟩
  rintro (h | ⟨entry, hmem, hcounted⟩ | ⟨route, hmem, -⟩)
  · cases h
  · cases List.mem_singleton.mp hmem
    exact SnmpRouteEntry.Idle.not_counted (.inr (.inl (by decide))) hcounted
  · cases hmem

end Idnx
