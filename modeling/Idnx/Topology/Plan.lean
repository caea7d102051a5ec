import Idnx.Topology.Passes

/-!
# What one record does, command by command

Every arm of `absorb` is a short list of commands: add a node, annotate it, weigh a signal, link two nodes, note a tag
or a hop, claim an address. The list depends on the record and on who owns the few slots the record consults
(`plan_congr`), and absorbing is running it (`absorb_eq_plan`). What holds of every graph is proved here once per
command, not once per kind of fact.
-/

namespace Idnx

/-- What an arm writes on a node besides the evidence for it. -/
inductive Note where
  | hostname (name : Text)
  | vendor (name : Text)
  | description (text : Text)
  | roleSignal (text : Text)
  | capability (text : Text)
  | boundary (why : Text)

/-- A node with a note; what a peer says does not replace what was established here. -/
def Note.write (remote : Bool) (n : Node) : Note → Node
  | .hostname h => { n with hostnames := insert h n.hostnames }
  | .vendor v => if remote && (n.vendor.isSome && n.locallyObserved) then n else { n with vendor := some v }
  | .description t => { n with descriptions := insert t n.descriptions }
  | .roleSignal t => { n with roleSignals := insert t n.roleSignals }
  | .capability t => { n with capabilities := insert t n.capabilities }
  | .boundary w =>
    if remote && (n.opaqueReason.isSome && n.locallyObserved) then n else { n with opaqueReason := some w }

/-- One command. -/
inductive Command where
  | upsert (id : NodeId) (kind : NodeKind)
  | note (id : NodeId) (note : Note)
  | weigh (id : NodeId) (signal : RoleSignal)
  | link (source target : NodeId) (relationship : Relationship) (prov : Provenance)
  | vlanSeen (vlan : VlanRef)
  | vlanBound (vlan : VlanRef)
  | hop (distance : UInt8) (id : NodeId)
  | claim (slot : Slot) (key : DeviceKey)

/-- Runs one command of the plan for `ev`. -/
def exec (ev : TopologyEvidence) (g : TopologyGraph) : Command → TopologyGraph
  | .upsert id kind => g.upsert id kind ev.confidence (.fromEvidence ev)
  | .note id note => g.modifyNode id fun n => note.write ev.isRemote n
  | .weigh id signal => { g with roleWeights := g.roleWeights.upd id fun signals => insert signal (signals.getD ∅) }
  | .link source target relationship prov => g.link source target relationship ev.confidence prov
  | .vlanSeen vlan => { g with vlansWithoutPrefix := insert vlan g.vlansWithoutPrefix }
  | .vlanBound vlan => { g with vlansWithoutPrefix := g.vlansWithoutPrefix.erase vlan }
  | .hop distance id => { g with egressPath := g.egressPath.insert distance id }
  | .claim slot key => g.settleClaim slot key ev.source !(Realm.of ev.origin).isLocal

/-! ## The plan of a record -/

section Plan

variable (owner : Slot → Option DeviceKey)

/-- The slot of an address in a domain. -/
def slotIn (address : IpAddr) (zone : Option Text) (realm : Realm) : Slot :=
  ⟨address, zone, addressRealm address realm⟩

theorem slotIn_local (x : IpAddr) (z : Option Text) : slotIn x z .localRealm = ⟨x, z, .localRealm⟩ := by
  unfold slotIn addressRealm
  split_ifs <;> rfl

/-- `canonicalKey`, given who owns which slot. -/
def resolveKey (key : DeviceKey) (address : Option IpAddr) (realm : Realm) : DeviceKey :=
  match key.address? with
  | none => key
  | some addr =>
    match owner (slotIn addr (TopologyGraph.keyZone key) realm) with
    | some holder => holder
    | none =>
      match address with
      | none => key
      | some addr => (owner (slotIn addr (TopologyGraph.keyZone key) realm)).getD key

/-- The slot a record about `address` claims or resolves. -/
def recordSlot (ev : TopologyEvidence) (address : IpAddr) : Slot :=
  slotIn address (TopologyGraph.zoneOf address ev.vantage) (Realm.of ev.origin)

/-- The commands that add a device and a network and link them. -/
def planAttach (ev : TopologyEvidence) (device : NodeId) (network : IpNet) (relationship : Relationship) :
    List Command :=
  .upsert device .host ::
    if isTopologyNetwork network then
      let net := NodeId.network network (networkRealm network (Realm.of ev.origin))
      [.upsert net .network, .link device net relationship (.fromEvidence ev)]
    else []

/-- The commands of a fact whose identities are qualified. -/
def planFact (ev : TopologyEvidence) (fact : Fact) : List Command :=
  let realm := Realm.of ev.origin
  let prov := Provenance.fromEvidence ev
  let device := fun key => NodeId.device (resolveKey owner key none realm)
  let describe := fun key note => [Command.upsert (device key) .host, .note (device key) note]
  match fact with
  | .network net =>
    if isTopologyNetwork net then [.upsert (.network net (networkRealm net realm)) .network] else []
  | .interfaceNetwork interface net =>
    if isTopologyNetwork net then
      let netId := NodeId.network net (networkRealm net realm)
      let ifaceId := NodeId.interface interface (scopedRealm realm)
      [.upsert netId .network, .upsert ifaceId .interface, .link ifaceId netId .attachedTo prov]
    else []
  | .vlan id => [.upsert (.vlan id (scopedRealm realm)) .vlan, .vlanSeen ⟨id, scopedRealm realm⟩]
  | .vlanNetwork vlan network =>
    let vlanId := NodeId.vlan vlan (scopedRealm realm)
    let netId := NodeId.network network (networkRealm network realm)
    [.upsert vlanId .vlan, .upsert netId .network, .link vlanId netId .carriesNetwork prov,
      .vlanBound ⟨vlan, scopedRealm realm⟩]
  | .deviceAddress key address =>
    let key := resolveKey owner key (some address) realm
    [.upsert (.device key) .host, .claim (recordSlot ev address) key]
  | .deviceHostname key hostname => describe key (.hostname hostname)
  | .deviceVendor key vendor => describe key (.vendor vendor)
  | .deviceDescription key text => describe key (.description text)
  | .deviceRoleSignal key signal => describe key (.roleSignal signal.describe) ++ [.weigh (device key) signal]
  | .deviceCapability key capability detail =>
    describe key (.capability (match detail with
      | some d => capability.label ++ (" (" : Text) ++ d ++ (")" : Text)
      | none => capability.label))
  | .gatewayFor key network => planAttach ev (device key) network .gatewayFor
  | .routesTo key network nextHop =>
    planAttach ev (device key) network .routesTo ++
      match isTopologyNetwork network, nextHop with
      | true, some hop => [.upsert (.device (resolveKey owner (.address hop) (some hop) realm)) .host]
      | _, _ => []
  | .attachedTo key network => planAttach ev (device key) network .attachedTo
  | .bridgeLink bridgeId rootId port =>
    match (bridgeIdentity bridgeId).map (qualifyDevice · realm), (bridgeIdentity rootId).map
      (qualifyDevice · realm) with
    | some bridge, some root =>
      [.upsert (.device bridge) .switch, .upsert (.device root) .switch] ++
        if NodeId.device bridge ≠ .device root then
          [.link (.device bridge) (.device root) .possibleUplink
            { prov with detail := TopologyGraph.portDetail prov.detail port }]
        else []
    | _, _ => []
  | .forwardsToward key toward distance previous =>
    [.upsert (device key) .host, .hop distance (device key)] ++
      match previous with
      | none => []
      | some previous =>
        if device previous ≠ device key then
          [.link (device previous) (device key) .forwardsToward
            (prov.withNote (("hop " : Text) ++ Text.ofNat distance.toNat ++ (" toward " : Text) ++ toward.toText ++
              (" from " : Text) ++ ev.vantage))]
        else []
  | .observedBehind key via =>
    [.upsert (device key) .host, .upsert (device via) .host, .link (device key) (device via) .observedBehind prov]
  | .opaqueBoundary key why => describe key (.boundary why)
  | .service address port protocol detail =>
    let id := NodeId.service address port (addressRealm address realm)
    [.upsert id .service, .note id (.description (Text.ofNat port.toNat ++ '/' :: protocol ++ (match detail with
      | some d => ' ' :: d
      | none => [])))] ++
      match owner (recordSlot ev address) with
      | some holder => [.link (.device holder) id .advertises prov]
      | none => []
  | .resolvedAs name address =>
    match owner (recordSlot ev address) with
    | some holder => [.upsert (.device holder) .host, .note (.device holder) (.hostname name)]
    | none => []

/-- The commands of one record. -/
def plan (ev : TopologyEvidence) : List Command := planFact owner ev (qualifyFact ev.fact (Realm.of ev.origin))

end Plan

theorem canonicalKey_eq (g : TopologyGraph) (key : DeviceKey) (address : Option IpAddr) (realm : Realm) :
    g.canonicalKey key address realm = resolveKey (g.addressOwner.lookup ·) key address realm := rfl

theorem upsertNetwork_eq (g : TopologyGraph) (net : IpNet) (realm : Realm) (c : Confidence) (p : Provenance) :
    g.upsertNetwork net realm c p = if isTopologyNetwork net then
      (g.upsert (.network net (networkRealm net realm)) .network c p, true) else (g, false) := rfl

/-- **Absorbing a record is running its plan.** -/
theorem absorbFact_eq_plan (g : TopologyGraph) (ev : TopologyEvidence) (fact : Fact) :
    g.absorbFact ev fact = (planFact (g.addressOwner.lookup ·) ev fact).foldl (exec ev) g := by
  cases fact with
  | network net =>
    cases hn : isTopologyNetwork net <;>
      simp [TopologyGraph.absorbFact, planFact, upsertNetwork_eq, hn, exec]
  | vlan id => rfl
  | vlanNetwork vlan network => rfl
  | interfaceNetwork interface net =>
    cases hn : isTopologyNetwork net <;>
      simp [TopologyGraph.absorbFact, planFact, upsertNetwork_eq, hn, exec]
  | deviceAddress device address => rfl
  | deviceHostname device hostname => rfl
  | deviceVendor device vendor => rfl
  | deviceDescription device text => rfl
  | deviceRoleSignal device signal => rfl
  | deviceCapability device capability detail => rfl
  | gatewayFor device network =>
    cases hn : isTopologyNetwork network <;>
      simp [TopologyGraph.absorbFact, planFact, TopologyGraph.attachDevice, planAttach, upsertNetwork_eq, hn, exec,
        canonicalKey_eq]
  | routesTo device network nextHop =>
    cases hn : isTopologyNetwork network <;> cases nextHop <;>
      simp [TopologyGraph.absorbFact, planFact, TopologyGraph.absorbRoutesTo, planAttach, upsertNetwork_eq, hn, exec,
        canonicalKey_eq]
  | attachedTo device network =>
    cases hn : isTopologyNetwork network <;>
      simp [TopologyGraph.absorbFact, planFact, TopologyGraph.attachDevice, planAttach, upsertNetwork_eq, hn, exec,
        canonicalKey_eq]
  | bridgeLink bridgeId rootId port =>
    simp only [TopologyGraph.absorbFact, planFact, TopologyGraph.absorbBridgeLink]
    generalize (bridgeIdentity bridgeId).map (qualifyDevice · (Realm.of ev.origin)) = bridge
    generalize (bridgeIdentity rootId).map (qualifyDevice · (Realm.of ev.origin)) = root
    cases bridge <;> cases root <;> try rfl
    simp only [List.foldl_append]
    split_ifs <;> rfl
  | forwardsToward device toward distance previous =>
    cases previous with
    | none => rfl
    | some previous =>
      simp only [TopologyGraph.absorbFact, planFact, TopologyGraph.absorbForwardsToward, canonicalKey_eq,
        TopologyGraph.upsert_addressOwner, List.foldl_append]
      rw [apply_ite (List.foldl (exec ev) _)]
      rfl
  | observedBehind device via => rfl
  | opaqueBoundary device why => rfl
  | service address port protocol detail =>
    simp only [TopologyGraph.absorbFact, planFact, List.foldl_append]
    show (match g.addressOwner.lookup (recordSlot ev address) with | some owner => _ | none => _) = _
    split <;> rfl
  | resolvedAs name address =>
    simp only [TopologyGraph.absorbFact, planFact]
    show (match g.addressOwner.lookup (recordSlot ev address) with | some owner => _ | none => _) = _
    split <;> rfl

theorem absorb_eq_plan (g : TopologyGraph) (ev : TopologyEvidence) :
    g.absorb ev = (plan (g.addressOwner.lookup ·) ev).foldl (exec ev) g :=
  absorbFact_eq_plan g ev _

/-! ## Frames -/

section Frames

variable {g : TopologyGraph} {ev : TopologyEvidence} {slot : Slot} {key : DeviceKey} {source : EvidenceSource}
  {remote : Bool}

/-- A part of the graph that neither the nodes nor the slots are in is not touched by a claim. -/
theorem settleClaim_frame {β : Type} (π : TopologyGraph → β) (hn : ∀ g id f, π (g.modifyNode id f) = π g)
    (hs : ∀ g o b c, π { g with addressOwner := o, addressBinding := b, contestedAddresses := c } = π g) :
    π (g.settleClaim slot key source remote) = π g := by
  unfold TopologyGraph.settleClaim
  split
  · exact (hn _ _ _).trans (hs g _ _ _)
  · generalize g.addressOwner.lookup slot = heldBy
    have htake : ∀ g : TopologyGraph, π (g.takeSlot slot key source remote) = π g := fun g =>
      (hn _ _ _).trans (hs g _ _ _)
    have hstart : ∀ previous, π (g.startDispute slot previous key remote) = π g := fun previous =>
      ((hn _ _ _).trans (hn _ _ _)).trans (hs g _ _ _)
    unfold TopologyGraph.carryOut
    split
    · exact htake g
    · exact htake g
    · rw [htake, hn]
    · exact htake g
    · exact hn _ _ _
    · rfl
    · exact hn _ _ _
    · exact hstart _
    · rfl

@[simp] theorem settleClaim_edges : (g.settleClaim slot key source remote).edges = g.edges :=
  settleClaim_frame (·.edges) (fun _ _ _ => rfl) (fun _ _ _ _ => rfl)

@[simp] theorem settleClaim_egressPath : (g.settleClaim slot key source remote).egressPath = g.egressPath :=
  settleClaim_frame (·.egressPath) (fun _ _ _ => rfl) (fun _ _ _ _ => rfl)

@[simp] theorem settleClaim_vlansWithoutPrefix :
    (g.settleClaim slot key source remote).vlansWithoutPrefix = g.vlansWithoutPrefix :=
  settleClaim_frame (·.vlansWithoutPrefix) (fun _ _ _ => rfl) (fun _ _ _ _ => rfl)

@[simp] theorem settleClaim_roleWeights : (g.settleClaim slot key source remote).roleWeights = g.roleWeights :=
  settleClaim_frame (·.roleWeights) (fun _ _ _ => rfl) (fun _ _ _ _ => rfl)

/-- A part of the graph that no command of a list changes is not changed by the list. -/
theorem foldl_exec_frame {β : Type} (π : TopologyGraph → β) {cs : List Command}
    (h : ∀ c ∈ cs, ∀ g, π (exec ev g c) = π g) (g : TopologyGraph) : π (cs.foldl (exec ev) g) = π g := by
  induction cs generalizing g with
  | nil => rfl
  | cons c cs ih =>
    rw [List.foldl_cons, ih (fun d hd => h d (by simp [hd])), h c (by simp)]

/-- An invariant that every command of a list keeps is kept by the list. -/
theorem foldl_exec_inv {P : TopologyGraph → Prop} {cs : List Command}
    (h : ∀ c ∈ cs, ∀ g, P g → P (exec ev g c)) {g : TopologyGraph} (hg : P g) : P (cs.foldl (exec ev) g) := by
  induction cs generalizing g with
  | nil => exact hg
  | cons c cs ih => exact ih (fun d hd => h d (by simp [hd])) (h c (by simp) g hg)

theorem mem_nodes_settleClaim {id : NodeId} : id ∈ (g.settleClaim slot key source remote).nodes ↔ id ∈ g.nodes :=
  iff_of_eq (settleClaim_frame (fun g => id ∈ g.nodes) (fun _ _ _ => propext Map.mem_modify) (fun _ _ _ _ => rfl))

/-- The nodes after a list of commands: those that were there and those it adds. -/
theorem mem_nodes_foldl {cs : List Command} {id : NodeId} :
    id ∈ (cs.foldl (exec ev) g).nodes ↔ id ∈ g.nodes ∨ ∃ kind, Command.upsert id kind ∈ cs := by
  induction cs generalizing g with
  | nil => simp
  | cons c cs ih =>
    rw [List.foldl_cons, ih]
    cases c with
    | upsert j kind =>
      have hmem : id ∈ (exec ev g (.upsert j kind)).nodes ↔ id = j ∨ id ∈ g.nodes := Map.mem_upd
      rw [hmem]
      constructor
      · rintro ((rfl | h) | ⟨k, hk⟩)
        · exact .inr ⟨kind, List.mem_cons_self⟩
        · exact .inl h
        · exact .inr ⟨k, List.mem_cons_of_mem _ hk⟩
      · rintro (h | ⟨k, hk⟩)
        · exact .inl (.inr h)
        · rcases List.mem_cons.mp hk with he | hk
          · cases he; exact .inl (.inl rfl)
          · exact .inr ⟨k, hk⟩
    | note j note =>
      have hmem : id ∈ (exec ev g (.note j note)).nodes ↔ id ∈ g.nodes := Map.mem_modify
      simp [hmem]
    | claim slot key =>
      have hmem : id ∈ (exec ev g (.claim slot key)).nodes ↔ id ∈ g.nodes := mem_nodes_settleClaim
      simp [hmem]
    | _ => simp [exec]

theorem mem_nodes_absorb {id : NodeId} :
    id ∈ (g.absorb ev).nodes ↔ id ∈ g.nodes ∨ ∃ kind, Command.upsert id kind ∈ plan (g.addressOwner.lookup ·) ev := by
  rw [absorb_eq_plan]
  exact mem_nodes_foldl

/-- The edges after a list of commands. -/
theorem mem_edges_foldl {cs : List Command} {k : EdgeKey} :
    k ∈ (cs.foldl (exec ev) g).edges ↔
      k ∈ g.edges ∨ ∃ prov, Command.link k.source k.target k.relationship prov ∈ cs := by
  induction cs generalizing g with
  | nil => simp
  | cons c cs ih =>
    rw [List.foldl_cons, ih]
    cases c with
    | link a b rel prov =>
      have hmem : k ∈ (exec ev g (.link a b rel prov)).edges ↔ k = ⟨a, b, rel⟩ ∨ k ∈ g.edges := Map.mem_upd
      rw [hmem]
      constructor
      · rintro ((rfl | h) | ⟨p, hp⟩)
        · exact .inr ⟨prov, List.mem_cons_self⟩
        · exact .inl h
        · exact .inr ⟨p, List.mem_cons_of_mem _ hp⟩
      · rintro (h | ⟨p, hp⟩)
        · exact .inl (.inr h)
        · rcases List.mem_cons.mp hp with he | hp
          · cases he; exact .inl (.inl rfl)
          · exact .inr ⟨p, hp⟩
    | claim slot key => simp [exec]
    | _ => simp [exec]

/-- A hop of the path after a list of commands was there, or the list put it there. -/
theorem lookup_egressPath_foldl {cs : List Command} {d : UInt8} {id : NodeId}
    (h : (cs.foldl (exec ev) g).egressPath.lookup d = some id) :
    g.egressPath.lookup d = some id ∨ Command.hop d id ∈ cs := by
  induction cs generalizing g with
  | nil => exact .inl h
  | cons c cs ih =>
    rcases ih h with hs | hs
    · cases c with
      | hop d' id' =>
        rw [exec, Map.lookup_insert_ite] at hs
        split_ifs at hs with hd
        · subst hd
          cases hs
          exact .inr List.mem_cons_self
        · exact .inl hs
      | claim slot key => rw [exec, settleClaim_egressPath] at hs; exact .inl hs
      | _ => exact .inl hs
    · exact .inr (List.mem_cons_of_mem _ hs)

end Frames

/-! ## Claims -/

/-- The slot a record claims and the identity it names, in its own domain. -/
def statedClaim (ev : TopologyEvidence) : Option (Slot × DeviceKey) :=
  match qualifyFact ev.fact (Realm.of ev.origin) with
  | .deviceAddress key address => some (recordSlot ev address, key)
  | _ => none

/-- The slot a record claims and the device it claims it for, once its identity is resolved. -/
def TopologyGraph.claimOf (g : TopologyGraph) (ev : TopologyEvidence) : Option (Slot × DeviceKey) :=
  match qualifyFact ev.fact (Realm.of ev.origin) with
  | .deviceAddress key address =>
    some (recordSlot ev address, g.canonicalKey key (some address) (Realm.of ev.origin))
  | _ => none

/-! ## What a record consults -/

/-- The address an identity stands for, if any. -/
def DeviceKey.addresses (key : DeviceKey) : List IpAddr := key.address?.toList

/-- The addresses a fact names: those of its identities, and those it is about. -/
def Fact.addresses : Fact → List IpAddr
  | .deviceAddress device address => device.addresses ++ [address]
  | .deviceHostname device _ => device.addresses
  | .deviceVendor device _ => device.addresses
  | .deviceDescription device _ => device.addresses
  | .deviceRoleSignal device _ => device.addresses
  | .deviceCapability device _ _ => device.addresses
  | .gatewayFor device _ => device.addresses
  | .routesTo device _ nextHop => device.addresses ++ nextHop.toList
  | .attachedTo device _ => device.addresses
  | .observedBehind device via => device.addresses ++ via.addresses
  | .forwardsToward device _ _ previous => device.addresses ++ (previous.map DeviceKey.addresses).getD []
  | .opaqueBoundary device _ => device.addresses
  | .service address _ _ _ => [address]
  | .resolvedAs _ address => [address]
  | _ => []

theorem addresses_qualifyDevice (key : DeviceKey) (realm : Realm) :
    (qualifyDevice key realm).addresses = key.addresses := by
  unfold qualifyDevice
  split_ifs
  · rfl
  · cases key with
    | mac m => dsimp only; split_ifs <;> rfl
    | address a => dsimp only; split_ifs <;> rfl
    | scopedAddress a z => rfl

/-- Qualification does not change the addresses. -/
theorem addresses_qualifyFact (fact : Fact) (realm : Realm) :
    (qualifyFact fact realm).addresses = fact.addresses := by
  unfold qualifyFact
  split_ifs
  · rfl
  · cases fact <;> simp only [Fact.addresses, addresses_qualifyDevice]

/-- A previous hop stays what it is: the record is passed through as it stands. -/
theorem qualifyFact_forwardsToward {fact : Fact} {realm : Realm} {device : DeviceKey} {toward : IpAddr}
    {distance : UInt8}
    {previous : Option DeviceKey} :
    qualifyFact fact realm = .forwardsToward device toward distance previous ↔
      fact = .forwardsToward device toward distance previous := by
  unfold qualifyFact
  split_ifs
  · rfl
  · cases fact <;> simp

section Congr

variable {owner owner' : Slot → Option DeviceKey} {realm : Realm}

theorem resolveKey_congr {key : DeviceKey} {address : Option IpAddr}
    (h : ∀ x ∈ key.addresses ++ address.toList, ∀ z, owner (slotIn x z realm) = owner' (slotIn x z realm)) :
    resolveKey owner key address realm = resolveKey owner' key address realm := by
  unfold resolveKey
  cases hk : key.address? with
  | none => rfl
  | some addr =>
    have hown := h addr (by simp [DeviceKey.addresses, hk]) (TopologyGraph.keyZone key)
    dsimp only
    rw [hown]
    cases address with
    | none => rfl
    | some a =>
      dsimp only
      rw [h a (by simp) (TopologyGraph.keyZone key)]

/-- **The plan of a record depends on nothing but who owns the slots of the addresses it names.** -/
theorem planFact_congr {ev : TopologyEvidence} {fact : Fact}
    (h : ∀ x ∈ fact.addresses, ∀ z,
      owner (slotIn x z (Realm.of ev.origin)) = owner' (slotIn x z (Realm.of ev.origin))) :
    planFact owner ev fact = planFact owner' ev fact := by
  have hkey : ∀ key : DeviceKey, (∀ x ∈ key.addresses, x ∈ fact.addresses) →
      resolveKey owner key none (Realm.of ev.origin) = resolveKey owner' key none (Realm.of ev.origin) := by
    intro key hsub
    refine resolveKey_congr fun x hx z => h x (hsub x ?_) z
    simpa using hx
  have hrecord : ∀ x ∈ fact.addresses, owner (recordSlot ev x) = owner' (recordSlot ev x) := fun x hx => h x hx _
  cases fact with
  | deviceAddress device address =>
    have hd : resolveKey owner device (some address) (Realm.of ev.origin) =
        resolveKey owner' device (some address) (Realm.of ev.origin) := resolveKey_congr h
    simp only [planFact, hd]
  | routesTo device network nextHop =>
    have hd := hkey device (fun x hx => by simp [Fact.addresses, hx])
    cases nextHop with
    | none => cases hn : isTopologyNetwork network <;> simp only [planFact, hd, hn]
    | some hop =>
      have hhop : resolveKey owner (.address hop) (some hop) (Realm.of ev.origin) =
          resolveKey owner' (.address hop) (some hop) (Realm.of ev.origin) := by
        refine resolveKey_congr fun x hx z => h x ?_ z
        simp [DeviceKey.addresses, DeviceKey.address?] at hx
        simp [Fact.addresses, hx]
      cases hn : isTopologyNetwork network <;> simp only [planFact, hd, hhop, hn]
  | observedBehind device via =>
    have hd := hkey device (fun x hx => by simp [Fact.addresses, hx])
    have hv := hkey via (fun x hx => by simp [Fact.addresses, hx])
    simp only [planFact, hd, hv]
  | forwardsToward device toward distance previous =>
    have hd := hkey device (fun x hx => by simp [Fact.addresses, hx])
    cases previous with
    | none => simp only [planFact, hd]
    | some previous =>
      have hp := hkey previous (fun x hx => by simp [Fact.addresses, hx])
      simp only [planFact, hd, hp]
  | service address port protocol detail =>
    simp only [planFact, hrecord address (by simp [Fact.addresses])]
  | resolvedAs name address => simp only [planFact, hrecord address (by simp [Fact.addresses])]
  | deviceHostname device x => simp only [planFact, hkey device (fun x hx => hx)]
  | deviceVendor device x => simp only [planFact, hkey device (fun x hx => hx)]
  | deviceDescription device x => simp only [planFact, hkey device (fun x hx => hx)]
  | deviceRoleSignal device x => simp only [planFact, hkey device (fun x hx => hx)]
  | deviceCapability device x y => simp only [planFact, hkey device (fun x hx => hx)]
  | gatewayFor device x => simp only [planFact, hkey device (fun x hx => hx)]
  | attachedTo device x => simp only [planFact, hkey device (fun x hx => hx)]
  | opaqueBoundary device x => simp only [planFact, hkey device (fun x hx => hx)]
  | _ => rfl

theorem plan_congr {ev : TopologyEvidence}
    (h : ∀ x ∈ ev.fact.addresses, ∀ z,
      owner (slotIn x z (Realm.of ev.origin)) = owner' (slotIn x z (Realm.of ev.origin))) :
    plan owner ev = plan owner' ev :=
  planFact_congr (by rw [addresses_qualifyFact]; exact h)

end Congr

/-- So does the claim of a record. -/
theorem claimOf_congr {g g' : TopologyGraph} {ev : TopologyEvidence}
    (h : ∀ x ∈ ev.fact.addresses, ∀ z, g.addressOwner.lookup (slotIn x z (Realm.of ev.origin)) =
      g'.addressOwner.lookup (slotIn x z (Realm.of ev.origin))) : g.claimOf ev = g'.claimOf ev := by
  unfold TopologyGraph.claimOf
  split
  · rename_i device address hf
    rw [canonicalKey_eq, canonicalKey_eq]
    refine congrArg (fun k => some (recordSlot ev address, k)) (resolveKey_congr fun x hx z => h x ?_ z)
    rw [← addresses_qualifyFact ev.fact (Realm.of ev.origin), hf]
    exact hx
  · rfl

/-- The address of the slot a record claims is one it names. -/
theorem address_of_claimOf {g : TopologyGraph} {ev : TopologyEvidence} {slot : Slot} {key : DeviceKey}
    (h : g.claimOf ev = some (slot, key)) :
    slot.address ∈ ev.fact.addresses ∧ slot = recordSlot ev slot.address := by
  unfold TopologyGraph.claimOf at h
  split at h
  · rename_i device address hf
    cases h
    refine ⟨?_, rfl⟩
    rw [← addresses_qualifyFact ev.fact (Realm.of ev.origin), hf]
    simp [Fact.addresses, recordSlot, slotIn]
  · cases h

end Idnx
