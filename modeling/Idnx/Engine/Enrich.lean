import Idnx.Topology.Passes

/-!
# The device work queue

`queueFromGraph` turns the graph into the list of devices to interrogate, each with the endpoints it may be probed at:
the addresses of its node that something on this machine observed. The tier of a device decides when it is worked, not
how.
-/

namespace Idnx

/-- Evidence sources that establish a device is alive. -/
def currentlyLive : EvidenceSource → Bool
  | .arpProbe | .ndpProbe | .icmpProbe | .tcpProbe => true
  | .mdns | .nbns | .llmnr | .ssdp | .mndp | .lldp | .cdp | .stp | .routerAdvertisement | .rip => true
  | .snmp | .vendorDiscovery | .natPmp | .aiProtocol | .mcp => true
  | _ => false

/-- Whether a device is worth interrogating: a looser bar than `currentlyLive`. -/
def worthInterrogating (source : EvidenceSource) : Bool :=
  currentlyLive source || match source with
    | .arpCache | .ndpCache | .dhcpLease => true
    | _ => false

/-! ## Endpoints -/

/-- A reachable address, with the link it must be reached over when that matters. -/
structure Endpoint where
  address : IpAddr
  zone : Option Text
  zoneIndex : UInt32
  deriving DecidableEq, Repr

namespace Endpoint

/-- Whether an address is meaningless without knowing which link it was seen on (`net::endpoint::requires_zone`). -/
def needsZone : IpAddr → Bool
  | .v4 _ => false
  | .v6 a => a.isLinkLocal

/-- An endpoint with a scope index already known (`Endpoint::scoped`). A zone on a routable address is dropped. -/
def ofScoped (address : IpAddr) (zone : Option Text) (zoneIndex : UInt32) : Endpoint where
  address := address
  zone := if needsZone address then zone else none
  zoneIndex := if needsZone address then zoneIndex else 0

/-- An address with no link qualification (`Endpoint::global`). -/
def ofGlobal (address : IpAddr) : Endpoint := ⟨address, none, 0⟩

end Endpoint

/-- Whether an address can be used as a probe destination. -/
def isProbeable : IpAddr → Bool
  | .v4 a => !a.isLoopback && !a.isLinkLocal && !a.isMulticast && !a.isUnspecified
  | .v6 a => !a.isLoopback && !a.isMulticast && !a.isUnspecified

/-- True when an address is worth sending a query to. -/
def isInterrogable : IpAddr → Bool
  | .v4 a => !a.isLoopback && !a.isLinkLocal && !a.isMulticast && !a.isUnspecified
  | .v6 a => !a.isLoopback && !a.isMulticast && !a.isUnspecified && !a.isLinkLocal

/-- The elements of `locallyObservedAddresses` in increasing order. -/
def reachableAddresses (n : Node) : List IpAddr :=
  ((n.addressProvenance.filter fun e => !e.2).map Prod.fst).dedup.insertionSort fun a b => (compare a b).isLE

/-- Every probeable address of a device, most preferred first: IPv4, then routable IPv6, then link-local IPv6, which
carries the zone of the vantage. -/
def preferredEndpoints (n : Node) (vantage : Text) (index : UInt32) : List Endpoint :=
  let reachable := (reachableAddresses n).filter fun a => isProbeable a
  let v4 := reachable.filter fun
    | .v4 _ => true
    | .v6 _ => false
  let v6Routable := reachable.filter fun
    | .v4 _ => false
    | .v6 a => !a.isLinkLocal
  let v6LinkLocal := reachable.filter fun
    | .v4 _ => false
    | .v6 a => a.isLinkLocal
  v4.map .ofGlobal ++ v6Routable.map .ofGlobal ++ v6LinkLocal.map fun a => .ofScoped a (some vantage) index

/-! ## Tiers -/

/-- What is already known about a device, which decides when it is worked. -/
inductive DeviceTier where
  | establishedPivot
  | candidate
  | host
  deriving DecidableEq, Repr

/-- Scheduling order. -/
def DeviceTier.priority : DeviceTier → Nat
  | .establishedPivot => 0
  | .candidate => 1
  | .host => 2

/-- Hostname tokens that suggest network equipment. -/
def infrastructureHostnameTokens : List Text :=
  (["router", "gateway", "gw", "switch", "ap", "accesspoint", "firewall", "modem", "bridge", "wifi", "wlan",
    "edgerouter", "unifi", "openwrt"] : List String).map String.toList

/-- Manufacturers whose registrations commonly cover network equipment. -/
def networkEquipmentVendors : List Text :=
  (["asustek", "asus", "linksys", "netgear", "tp-link", "d-link", "mikrotik", "ubiquiti", "cisco", "meraki", "zyxel",
    "draytek", "fortinet", "juniper", "aruba", "ruckus", "belkin", "tenda", "huawei", "openwrt", "netcomm",
    "sagemcom", "technicolor", "arris", "actiontec", "eero"] : List String).map String.toList

/-- A token is a keyword, or a keyword followed by digits only. -/
def isInfrastructureToken (token : Text) : Bool :=
  infrastructureHostnameTokens.any fun keyword =>
    token == keyword || (Text.startsWith token keyword && !(token.drop keyword.length).isEmpty &&
      (token.drop keyword.length).all Char.isDigit)

/-- True when a hostname carries an infrastructure token as a whole word, or as two adjacent words. -/
def hostnameSuggestsInfrastructure (hostname : Text) : Bool :=
  let tokens := (hostname.toAsciiLowercase.splitOnP fun c => !c.isAlphanum).filter fun t => !t.isEmpty
  tokens.any isInfrastructureToken || (tokens.zip tokens.tail).any fun pair => isInfrastructureToken
    (pair.1 ++ pair.2)

/-- Weak hints that a device may be network equipment. -/
def isInfrastructureCandidate (n : Node) : Bool :=
  if n.kind = .service then false
  else
    (match n.vendor with
      | some vendor => networkEquipmentVendors.any fun v => Text.contains vendor.toAsciiLowercase v
      | none => false) ||
    decide (∃ h ∈ n.hostnames, hostnameSuggestsInfrastructure h = true) ||
    decide ((n.addresses.filter fun a => isInterrogable a = true).card > 1)

namespace TopologyGraph

variable (g : TopologyGraph)

/-- Devices with positive role evidence that this machine observed. -/
def pivotDevices : List DeviceKey :=
  g.roleWeights.sortedKeys.filterMap fun
    | .device key => match g.nodes.lookup (.device key) with
      | some n => if n.locallyObserved then some key else none
      | none => none
    | _ => none

/-- Devices worth interrogating on a hint. -/
def candidateDevices : List DeviceKey :=
  (g.nodes.sortedKeys.filterMap fun id => g.nodes.lookup id).filterMap fun n =>
    if n.locallyObserved && isInfrastructureCandidate n then
      match n.id with
      | .device key => some key
      | _ => none
    else none

/-- When a device is worked. -/
def tierOf (key : DeviceKey) : DeviceTier :=
  if key ∈ g.pivotDevices then .establishedPivot else if key ∈ g.candidateDevices then .candidate else .host

end TopologyGraph

/-! ## The queue -/

/-- What interrogation may choose adapters by. -/
structure DeviceFingerprint where
  vendor : Option Text
  openPorts : List UInt16
  hostnames : Finset Text
  descriptions : Finset Text

/-- One device to interrogate, with everything already known about it. -/
structure InterrogationTarget where
  device : DeviceKey
  tier : DeviceTier
  endpoints : List Endpoint
  known : DeviceFingerprint
  discoverySources : List Text
  worthFullInterrogation : Bool

/-- The labels of the sources that support a node, in order and without repetition. -/
def evidenceSources (n : Node) : List Text :=
  (n.provenance.map fun p => p.source.label).dedup.insertionSort fun a b => (compare a b).isLE

/-- The queue entry of a node, if it has one. -/
def queueEntry (g : TopologyGraph) (interrogated : Finset DeviceKey) (vantage : Text) (index : UInt32) (n : Node) :
    Option InterrogationTarget :=
  match n.id with
  | .device key =>
    if key ∈ interrogated then none
    -- nothing a peer reported is reachable from here
    else if !n.locallyObserved then none
    else
      let endpoints := preferredEndpoints n vantage index
      if endpoints.isEmpty then none
      else
        some
          { device := key
            tier := g.tierOf key
            endpoints := endpoints
            known := ⟨n.vendor, [], n.hostnames, n.descriptions⟩
            discoverySources := evidenceSources n
            worthFullInterrogation := n.provenance.any fun p => worthInterrogating p.source }
  | _ => none

/-- Builds the queue from the graph, skipping devices already interrogated; infrastructure first. -/
def queueFromGraph (g : TopologyGraph) (interrogated : Finset DeviceKey) (vantage : Text) (index : UInt32) :
    List InterrogationTarget :=
  let nodes := g.nodes.sortedKeys.filterMap fun id => g.nodes.lookup id
  (nodes.filterMap (queueEntry g interrogated vantage index)).insertionSort fun a b =>
    a.tier.priority ≤ b.tier.priority

/-! ## What is queued -/

theorem mem_reachableAddresses {n : Node} {a : IpAddr} :
    a ∈ reachableAddresses n ↔ a ∈ n.locallyObservedAddresses := by
  unfold reachableAddresses Node.locallyObservedAddresses
  rw [List.mem_insertionSort, List.mem_dedup, List.mem_toFinset]

/-- **Only what this machine observed is an endpoint**, and only if it can be probed. -/
theorem mem_preferredEndpoints {n : Node} {vantage : Text} {index : UInt32} {ep : Endpoint}
    (h : ep ∈ preferredEndpoints n vantage index) :
    ep.address ∈ n.locallyObservedAddresses ∧ isProbeable ep.address = true := by
  have hreach : ∀ {p : IpAddr → Bool} {f : IpAddr → Endpoint}, (∀ a, (f a).address = a) →
      ep ∈ ((((reachableAddresses n).filter fun a => isProbeable a).filter p).map f) →
        ep.address ∈ n.locallyObservedAddresses ∧ isProbeable ep.address = true := by
    intro p f hf hep
    obtain ⟨a, ha, rfl⟩ := List.mem_map.mp hep
    rw [List.mem_filter, List.mem_filter] at ha
    rw [hf]
    exact ⟨mem_reachableAddresses.mp ha.1.1, ha.1.2⟩
  unfold preferredEndpoints at h
  rcases List.mem_append.mp h with h | h
  · rcases List.mem_append.mp h with h | h
    · exact hreach (fun _ => rfl) h
    · exact hreach (fun _ => rfl) h
  · exact hreach (fun _ => rfl) h

/-- Every address this machine observed that can be probed is an endpoint. -/
theorem exists_mem_preferredEndpoints {n : Node} {vantage : Text} {index : UInt32} {a : IpAddr}
    (ha : a ∈ n.locallyObservedAddresses) (hp : isProbeable a = true) :
    ∃ ep ∈ preferredEndpoints n vantage index, ep.address = a := by
  have hreach : a ∈ (reachableAddresses n).filter fun a => isProbeable a :=
    List.mem_filter.mpr ⟨mem_reachableAddresses.mpr ha, hp⟩
  unfold preferredEndpoints
  simp only [List.mem_append, List.mem_map, List.mem_filter] at hreach ⊢
  cases a with
  | v4 x => exact ⟨_, .inl (.inl ⟨.v4 x, ⟨hreach, rfl⟩, rfl⟩), rfl⟩
  | v6 x =>
    cases hl : x.isLinkLocal with
    | false => exact ⟨_, .inl (.inr ⟨.v6 x, ⟨hreach, by simp [hl]⟩, rfl⟩), rfl⟩
    | true => exact ⟨_, .inr ⟨.v6 x, ⟨hreach, hl⟩, rfl⟩, rfl⟩

/-- A node is worth an entry: this machine observed it, and has an address to probe it at. -/
def Node.Queueable (n : Node) : Prop :=
  n.locallyObserved = true ∧ ∃ a ∈ n.locallyObservedAddresses, isProbeable a = true

theorem preferredEndpoints_isEmpty (n : Node) (vantage : Text) (index : UInt32) :
    (preferredEndpoints n vantage index).isEmpty = false ↔ ∃ a ∈ n.locallyObservedAddresses,
    isProbeable a = true := by
  constructor
  · intro h
    obtain ⟨ep, hep⟩ := List.exists_mem_of_ne_nil _ (List.isEmpty_eq_false_iff.mp h)
    exact ⟨ep.address, mem_preferredEndpoints hep⟩
  · rintro ⟨a, ha, hp⟩
    obtain ⟨ep, hep, -⟩ := exists_mem_preferredEndpoints ha hp
    exact List.isEmpty_eq_false_iff.mpr (List.ne_nil_of_mem hep)

section Queue

variable {g : TopologyGraph} {interrogated : Finset DeviceKey} {vantage : Text} {index : UInt32}

/-- The nodes with an entry, and what it says. -/
theorem queueEntry_eq_some {n : Node} {task : InterrogationTarget}
    (h : queueEntry g interrogated vantage index n = some task) :
    n.id = .device task.device ∧ task.device ∉ interrogated ∧ n.Queueable ∧
      task.endpoints = preferredEndpoints n vantage index := by
  unfold queueEntry at h
  split at h
  · rename_i key hid
    dsimp only at h
    split_ifs at h with hi hl hep
    cases h
    exact ⟨hid, hi, ⟨by simpa using hl, (preferredEndpoints_isEmpty n vantage index).mp (by simpa using hep)⟩, rfl⟩
  · cases h

theorem exists_queueEntry {n : Node} {key : DeviceKey} (hid : n.id = .device key) (hi : key ∉ interrogated)
    (hn : n.Queueable) : ∃ task, queueEntry g interrogated vantage index n = some task ∧ task.device = key := by
  have hep := (preferredEndpoints_isEmpty n vantage index).mpr hn.2
  unfold queueEntry
  rw [hid]
  simp [hi, hn.1, hep]

/-- An entry of the queue is a device of the graph that this machine observed, at addresses it observed. -/
theorem mem_queueFromGraph {task : InterrogationTarget} (h : task ∈ queueFromGraph g interrogated vantage index) :
    ∃ id n, g.nodes.lookup id = some n ∧ n.id = .device task.device ∧ n.locallyObserved = true ∧
      task.device ∉ interrogated ∧ ∀ ep ∈ task.endpoints, ep.address ∈ n.locallyObservedAddresses := by
  unfold queueFromGraph at h
  rw [List.mem_insertionSort, List.mem_filterMap] at h
  obtain ⟨n, hn, he⟩ := h
  obtain ⟨id, -, hlookup⟩ := List.mem_filterMap.mp hn
  obtain ⟨hid, hi, hq, hep⟩ := queueEntry_eq_some he
  refine ⟨id, n, hlookup, hid, hq.1, hi, fun ep hmem => ?_⟩
  rw [hep] at hmem
  exact (mem_preferredEndpoints hmem).1

/-- Every device has one entry at most. -/
theorem nodup_queueFromGraph (hkeyed : ∀ id n, g.nodes.lookup id = some n → n.id = id) :
    ((queueFromGraph g interrogated vantage index).map fun task => task.device).Nodup := by
  unfold queueFromGraph
  refine ((List.perm_insertionSort _ _).map _).nodup_iff.mpr ?_
  rw [List.filterMap_filterMap, List.map_filterMap]
  refine List.Nodup.filterMap ?_ (Map.sortedKeys_nodup g.nodes)
  have hdevice : ∀ {id key}, key ∈ ((g.nodes.lookup id).bind (queueEntry g interrogated vantage index)).map
      (fun task => task.device) → id = .device key := by
    intro id key hmem
    rw [Option.mem_def, Option.map_eq_some_iff] at hmem
    obtain ⟨task, hbind, rfl⟩ := hmem
    obtain ⟨n, hn, he⟩ := Option.bind_eq_some_iff.mp hbind
    rw [← hkeyed id n hn, (queueEntry_eq_some he).1]
  intro id id' key h h'
  rw [hdevice h, hdevice h']

/-- There is something to do exactly when a device that was not interrogated is worth an entry. -/
theorem queueFromGraph_eq_nil (hkeyed : ∀ id n, g.nodes.lookup id = some n → n.id = id) :
    queueFromGraph g interrogated vantage index = [] ↔
      ∀ key n, g.nodes.lookup (.device key) = some n → n.Queueable → key ∈ interrogated := by
  rw [List.eq_nil_iff_forall_not_mem]
  unfold queueFromGraph
  simp only [List.mem_insertionSort, List.mem_filterMap, Map.mem_sortedKeys]
  constructor
  · intro h key n hn hq
    by_contra hi
    obtain ⟨task, htask, -⟩ := exists_queueEntry (g := g) (hkeyed _ n hn) hi hq
    exact h task ⟨n, ⟨_, Map.mem_of_lookup hn, hn⟩, htask⟩
  · rintro h task ⟨n, ⟨id, -, hn⟩, htask⟩
    obtain ⟨hid, hi, hq, -⟩ := queueEntry_eq_some htask
    rw [← hkeyed id n hn, hid] at hn
    exact hi (h task.device n hn hq)

end Queue

end Idnx
