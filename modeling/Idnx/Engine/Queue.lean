import Idnx.Engine.Probing

/-!
# What the queue holds

The queue of a graph, device by device and address by address (`QueueOf`): who is in it, in which order, and at which
endpoints. Devices that only a peer has observed are left out even where one of their addresses carries the mark of a
local record (`marked_device_not_queued`).
-/

namespace Idnx

/-- Where an address stands among those of its device: IPv4, then routable IPv6, then link-local IPv6. -/
def IpAddr.preference : IpAddr → Nat
  | .v4 _ => 0
  | .v6 a => if a.isLinkLocal then 2 else 1

/-- The endpoints of a device: every address of it that this machine observed and can probe, once, in order of
preference, with the link of the vantage where the address needs one. -/
structure EndpointsOf (n : Node) (vantage : Text) (index : UInt32) (endpoints : List Endpoint) : Prop where
  once : (endpoints.map Endpoint.address).Nodup
  mem : ∀ a, a ∈ endpoints.map Endpoint.address ↔ a ∈ n.locallyObservedAddresses ∧ isProbeable a = true
  ordered : (endpoints.map Endpoint.address).Pairwise fun a b => a.preference ≤ b.preference
  zoned : ∀ ep ∈ endpoints, ep.zone = (if ep.address.preference = 2 then some vantage else none) ∧
    ep.zoneIndex = if ep.address.preference = 2 then index else 0

/-- The queue of a graph: every device that this machine observed, has not interrogated and can probe somewhere, once,
pivots first, then candidates, then hosts. -/
structure QueueOf (g : TopologyGraph) (interrogated : Finset DeviceKey) (vantage : Text) (index : UInt32)
    (queue : List InterrogationTarget) : Prop where
  once : (queue.map InterrogationTarget.device).Nodup
  mem : ∀ key, key ∈ queue.map InterrogationTarget.device ↔
    key ∉ interrogated ∧ ∃ n, g.nodes.lookup (.device key) = some n ∧ n.locallyObserved = true ∧
      ∃ a ∈ n.locallyObservedAddresses, isProbeable a = true
  ordered : queue.Pairwise fun a b => a.tier.priority ≤ b.tier.priority
  entry : ∀ task ∈ queue, task.tier = g.tierOf task.device ∧
    ∃ n, g.nodes.lookup (.device task.device) = some n ∧ EndpointsOf n vantage index task.endpoints

/-! ## Endpoints -/

section Endpoints

variable {n : Node} {vantage : Text} {index : UInt32}

/-- The addresses of a device in the order in which they are tried. -/
def preferredAddresses (n : Node) : List IpAddr :=
  let reachable := (reachableAddresses n).filter fun a => isProbeable a
  reachable.filter (fun a => a.preference = 0) ++ reachable.filter (fun a => a.preference = 1) ++
    reachable.filter fun a => a.preference = 2

/-- A routable address drops the zone it is given. -/
theorem ofGlobal_eq {a : IpAddr} (h : a.preference ≠ 2) : Endpoint.ofGlobal a = .ofScoped a (some vantage) index := by
  have hzone : Endpoint.needsZone a = false := by
    cases a with
    | v4 x => rfl
    | v6 x =>
      cases hlocal : x.isLinkLocal with
      | false => exact hlocal
      | true => simp [IpAddr.preference, hlocal] at h
  simp [Endpoint.ofGlobal, Endpoint.ofScoped, hzone]

/-- One of the three parts of the list. -/
theorem map_filter_preference (l : List IpAddr) {p : IpAddr → Bool} {f f' : IpAddr → Endpoint} {k : Nat}
    (hp : ∀ a, p a = decide (a.preference = k)) (hf : ∀ a, a.preference = k → f a = f' a) :
    (l.filter p).map f = (l.filter fun a => a.preference = k).map f' := by
  have hsame : p = fun a => decide (a.preference = k) := funext hp
  rw [hsame]
  exact List.map_congr_left fun a ha => hf a (of_decide_eq_true (List.mem_filter.mp ha).2)

theorem preferredEndpoints_eq (n : Node) (vantage : Text) (index : UInt32) :
    preferredEndpoints n vantage index = (preferredAddresses n).map fun a => .ofScoped a (some vantage) index := by
  unfold preferredEndpoints preferredAddresses
  dsimp only
  rw [List.map_append, List.map_append]
  refine congrArg₂ (· ++ ·) (congrArg₂ (· ++ ·) ?_ ?_) ?_
  · refine map_filter_preference _ (fun a => ?_) fun a ha => ofGlobal_eq (by omega)
    cases a with
    | v4 x => rfl
    | v6 x => cases hlocal : x.isLinkLocal <;> simp [IpAddr.preference, hlocal]
  · refine map_filter_preference _ (fun a => ?_) fun a ha => ofGlobal_eq (by omega)
    cases a with
    | v4 x => rfl
    | v6 x => cases hlocal : x.isLinkLocal <;> simp [IpAddr.preference, hlocal]
  · refine map_filter_preference _ (fun a => ?_) fun a _ => rfl
    cases a with
    | v4 x => rfl
    | v6 x => cases hlocal : x.isLinkLocal <;> simp [IpAddr.preference, hlocal]

theorem preference_le_two (a : IpAddr) : a.preference ≤ 2 := by
  cases a with
  | v4 x => exact Nat.zero_le 2
  | v6 x => cases hlocal : x.isLinkLocal <;> simp [IpAddr.preference, hlocal]

theorem mem_preferredAddresses {a : IpAddr} :
    a ∈ preferredAddresses n ↔ a ∈ n.locallyObservedAddresses ∧ isProbeable a = true := by
  have hrank := preference_le_two a
  unfold preferredAddresses
  simp only [List.mem_append, List.mem_filter, decide_eq_true_eq, mem_reachableAddresses]
  constructor
  · rintro ((h | h) | h)
    · exact h.1
    · exact h.1
    · exact h.1
  · intro h
    obtain hk | hk | hk : a.preference = 0 ∨ a.preference = 1 ∨ a.preference = 2 := by omega
    · exact .inl (.inl ⟨h, hk⟩)
    · exact .inl (.inr ⟨h, hk⟩)
    · exact .inr ⟨h, hk⟩

/-- Parts that are filtered by a number, one after the other, do not run into each other. -/
theorem disjoint_filter_preference {l l' : List IpAddr} {j k : Nat} (hjk : j ≠ k) :
    (l.filter fun a => a.preference = j).Disjoint (l'.filter fun a => a.preference = k) := by
  intro a ha ha'
  have hj := of_decide_eq_true (List.mem_filter.mp ha).2
  have hk := of_decide_eq_true (List.mem_filter.mp ha').2
  exact hjk (hj.symm.trans hk)

theorem nodup_preferredAddresses (n : Node) : (preferredAddresses n).Nodup := by
  have hreach : ((reachableAddresses n).filter fun a => isProbeable a).Nodup := by
    refine List.Nodup.filter _ ?_
    unfold reachableAddresses
    exact (List.perm_insertionSort _ _).nodup_iff.mpr (List.nodup_dedup _)
  unfold preferredAddresses
  refine List.Nodup.append (List.Nodup.append (hreach.filter _) (hreach.filter _) ?_) (hreach.filter _) ?_
  · exact disjoint_filter_preference (by decide)
  · rw [List.disjoint_append_left]
    exact ⟨disjoint_filter_preference (by decide), disjoint_filter_preference (by decide)⟩

theorem pairwise_preferredAddresses (n : Node) :
    (preferredAddresses n).Pairwise fun a b => a.preference ≤ b.preference := by
  have hpart : ∀ (l : List IpAddr) (k : Nat),
      (l.filter fun a => a.preference = k).Pairwise fun a b => a.preference ≤ b.preference := by
    intro l k
    refine List.pairwise_of_forall_mem_list fun a ha b hb => ?_
    rw [of_decide_eq_true (List.mem_filter.mp ha).2, of_decide_eq_true (List.mem_filter.mp hb).2]
  unfold preferredAddresses
  simp only [List.pairwise_append]
  refine ⟨⟨hpart _ 0, hpart _ 1, ?_⟩, hpart _ 2, ?_⟩
  · intro a ha b _
    rw [of_decide_eq_true (List.mem_filter.mp ha).2]
    exact Nat.zero_le _
  · intro a _ b hb
    rw [of_decide_eq_true (List.mem_filter.mp hb).2]
    exact preference_le_two a

/-- The endpoints of a device are as they should be. -/
theorem endpointsOf_preferredEndpoints (n : Node) (vantage : Text) (index : UInt32) :
    EndpointsOf n vantage index (preferredEndpoints n vantage index) := by
  rw [preferredEndpoints_eq]
  have haddresses : ((preferredAddresses n).map fun a => Endpoint.ofScoped a (some vantage) index).map
      Endpoint.address = preferredAddresses n := by
    rw [List.map_map]
    exact List.map_id _
  constructor
  · rw [haddresses]
    exact nodup_preferredAddresses n
  · rw [haddresses]
    exact fun a => mem_preferredAddresses
  · rw [haddresses]
    exact pairwise_preferredAddresses n
  · intro ep hep
    obtain ⟨a, -, rfl⟩ := List.mem_map.mp hep
    have hzone : (a.preference = 2) ↔ Endpoint.needsZone a = true := by
      cases a with
      | v4 x => simp [IpAddr.preference, Endpoint.needsZone]
      | v6 x => cases hlocal : x.isLinkLocal <;> simp [IpAddr.preference, Endpoint.needsZone, hlocal]
    simp [Endpoint.ofScoped, hzone]

end Endpoints

/-! ## The queue -/

section Queue

variable {g : TopologyGraph} {interrogated : Finset DeviceKey} {vantage : Text} {index : UInt32}

/-- An entry of the queue and the node it was made from. -/
theorem mem_queue {task : InterrogationTarget} (hkeyed : ∀ id n, g.nodes.lookup id = some n → n.id = id) :
    task ∈ queueFromGraph g interrogated vantage index ↔
      ∃ n, g.nodes.lookup (.device task.device) = some n ∧
        queueEntry g interrogated vantage index n = some task := by
  unfold queueFromGraph
  simp only [List.mem_insertionSort, List.mem_filterMap, Map.mem_sortedKeys]
  constructor
  · rintro ⟨n, ⟨id, -, hn⟩, htask⟩
    have hid := (queueEntry_eq_some htask).1
    rw [hkeyed id n hn] at hid
    exact ⟨n, hid ▸ hn, htask⟩
  · rintro ⟨n, hn, htask⟩
    exact ⟨n, ⟨_, Map.mem_of_lookup hn, hn⟩, htask⟩

theorem queueEntry_tier {n : Node} {task : InterrogationTarget}
    (h : queueEntry g interrogated vantage index n = some task) : task.tier = g.tierOf task.device := by
  unfold queueEntry at h
  split at h
  · dsimp only at h
    split_ifs at h
    cases h
    rfl
  · cases h

theorem queueOf_queueFromGraph (hkeyed : ∀ id n, g.nodes.lookup id = some n → n.id = id) :
    QueueOf g interrogated vantage index (queueFromGraph g interrogated vantage index) where
  once := nodup_queueFromGraph hkeyed
  mem := by
    intro key
    rw [List.mem_map]
    constructor
    · rintro ⟨task, htask, rfl⟩
      obtain ⟨n, hn, hentry⟩ := (mem_queue hkeyed).mp htask
      obtain ⟨-, hnew, hqueueable, -⟩ := queueEntry_eq_some hentry
      exact ⟨hnew, n, hn, hqueueable⟩
    · rintro ⟨hnew, n, hn, hqueueable⟩
      obtain ⟨task, htask, rfl⟩ := exists_queueEntry (g := g) (hkeyed _ n hn) hnew hqueueable
      exact ⟨task, (mem_queue hkeyed).mpr ⟨n, hn, htask⟩, rfl⟩
  ordered := List.pairwise_insertionSort _ _
  entry := by
    intro task htask
    obtain ⟨n, hn, hentry⟩ := (mem_queue hkeyed).mp htask
    refine ⟨queueEntry_tier hentry, n, hn, ?_⟩
    rw [(queueEntry_eq_some hentry).2.2.2]
    exact endpointsOf_preferredEndpoints n vantage index

end Queue

/-- **The queue of every graph**: who is interrogated next, in which order and where. -/
theorem queue_of_build (ops : List GraphOp) (interrogated : Finset DeviceKey) (vantage : Text) (index : UInt32) :
    QueueOf (build ops) interrogated vantage index (queueFromGraph (build ops) interrogated vantage index) :=
  queueOf_queueFromGraph (nodesKeyed_build ops)

/-- A peer's machine whose address a machine here answers for too: the address is marked on it as seen from here, and
it is not queued, for nothing here has observed the machine itself. -/
theorem marked_device_not_queued :
    ¬∀ (ops : List GraphOp) (interrogated : Finset DeviceKey) (vantage : Text) (index : UInt32) (key : DeviceKey),
      key ∈ (queueFromGraph (build ops) interrogated vantage index).map InterrogationTarget.device ↔
        key ∉ interrogated ∧ ∃ n, (build ops).nodes.lookup (.device key) = some n ∧
          ∃ a ∈ n.locallyObservedAddresses, isProbeable a = true := by
  intro h
  let ops : List GraphOp := [.absorb (sighting hwB (ip 8 8 8 8) .arpProbe (some branch)),
    .absorb (sighting hwA (ip 8 8 8 8) .arpProbe none)]
  have hmarked : ∃ n, (build ops).nodes.lookup (.device hwB) = some n ∧
      ∃ a ∈ n.locallyObservedAddresses, isProbeable a = true := by
    have hlookup : ((build ops).nodes.lookup (.device hwB)).any
        (fun n => decide (∃ a ∈ n.locallyObservedAddresses, isProbeable a = true)) = true := by decide
    obtain ⟨n, hn, ha⟩ := (Option.any_eq_true _ _).mp hlookup
    exact ⟨n, hn, of_decide_eq_true ha⟩
  have hqueued := (h ops ∅ "eth0" 2 hwB).mpr ⟨Finset.notMem_empty _, hmarked⟩
  revert hqueued
  decide

end Idnx
