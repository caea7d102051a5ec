import Idnx.Probes.RipMessages

/-!
# What the routes of a RIP response are

A response is four bytes of header and its entries, one after the other (`parseResponse_iff`). A route of version 2
repeats the fields of its own entry (`describesEntry_of_ripRoute`). A RIPng route does so too, and has the next hop of
the last next-hop entry in front of it (`mem_routes_ripngRead`).
-/

namespace Idnx

open Outcome

/-! ## Chunks of a whole -/

theorem flatten_asChunks {n : Nat} (hn : 0 < n) {bytes : Bytes} (h : bytes.length % n = 0) :
    (asChunks n bytes).flatten = bytes := by
  induction hlen : bytes.length using Nat.strong_induction_on generalizing bytes with
  | _ len ih =>
    subst hlen
    by_cases hshort : bytes.length < n
    · have hnil : bytes = [] := List.length_eq_zero_iff.mp ((Nat.mod_eq_of_lt hshort).symm.trans h)
      rw [asChunks_of_lt hshort, hnil, List.flatten_nil]
    · have hmore : n ≤ bytes.length := Nat.le_of_not_lt hshort
      have hdrop : (bytes.drop n).length = bytes.length - n := List.length_drop
      have hrest : (bytes.drop n).length % n = 0 := by rw [hdrop, ← Nat.mod_eq_sub_mod hmore, h]
      rw [asChunks_cons hn hmore, List.flatten_cons, ih _ (by omega) hrest rfl, List.take_append_drop]

theorem length_asChunks (n : Nat) (bytes : Bytes) : (asChunks n bytes).length = bytes.length / n := by
  rw [asChunks, List.length_map, List.length_range]

/-- The datagram is a header of the version and these entries, all whole. -/
def HasEntries (version : UInt8) (datagram : Bytes) (entries : List Bytes) : Prop :=
  datagram = [2, version, 0, 0] ++ entries.flatten ∧ ∀ entry ∈ entries, entry.length = 20

theorem IsTable.hasEntries {version : UInt8} {body : Bytes} (h : IsTable version body) :
    HasEntries version body (asChunks 20 (body.drop 4)) := by
  have hheader : body.take 4 = [2, version, 0, 0] := h.1
  have hwhole : (body.drop 4).length % 20 = 0 := List.length_drop ▸ h.2
  refine ⟨?_, fun entry hentry => length_of_mem_asChunks hentry⟩
  rw [flatten_asChunks (by decide) hwhole, ← hheader, List.take_append_drop]

/-! ## RIPv2 -/

/-- The route says what its entry says, field by field. -/
structure DescribesEntry (route : RipRoute) : Prop where
  family : word (route.rawEntry.getD 0 0) (route.rawEntry.getD 1 0) = 2
  tag : route.tag = word (route.rawEntry.getD 2 0) (route.rawEntry.getD 3 0)
  net : ∃ len : Fin 33, len.val = leadingOnes (addressOfBytes ((route.rawEntry.drop 8).take 4)) ∧
    addressOfBytes ((route.rawEntry.drop 8).take 4) = netmask len ∧
      route.net = (Ipv4Net.mk (addressOfBytes ((route.rawEntry.drop 4).take 4)) len).trunc.toNet
  nextHop : route.nextHop =
    if (addressOfBytes ((route.rawEntry.drop 12).take 4)).isUnspecified then none
    else some (.v4 (addressOfBytes ((route.rawEntry.drop 12).take 4)))
  metric : route.metric = UInt32.ofNat (beNat ((route.rawEntry.drop 16).take 4))
  inRange : 1 ≤ route.metric ∧ route.metric ≤ 16

theorem describesEntry_of_ripRoute {entry : Bytes} {route : RipRoute} (h : ripRoute entry = some route) :
    route.rawEntry = entry ∧ DescribesEntry route := by
  unfold ripRoute at h
  dsimp only at h
  split at h
  case isTrue => cases h
  case isFalse hfamily =>
  split at h
  case isTrue => cases h
  case isFalse hmetric =>
  cases hlen : contiguousPrefixLength (addressOfBytes ((entry.drop 8).take 4)) with
  | none =>
    rw [hlen] at h
    cases h
  | some len =>
    have hones := contiguousPrefixLength_iff.mp hlen
    have hlt : len < 33 := Nat.lt_succ_of_le hones.1
    have hnew : Ipv4Net.new (addressOfBytes ((entry.drop 4).take 4)) len = some ⟨_, ⟨len, hlt⟩⟩ := dif_pos hlt
    rw [hlen, Option.bind_eq_bind, Option.bind_some, hnew, Option.bind_eq_bind, Option.bind_some] at h
    obtain rfl := Option.some.inj h
    exact ⟨rfl, not_not.mp hfamily, rfl, ⟨⟨len, hlt⟩, hones.leadingOnes.symm, (onesThenZeros_netmask.mp hones).2, rfl⟩, rfl, rfl, not_not.mp hmetric⟩

/-- The routes are those of the entries that are routes, in their order. -/
theorem map_rawEntry_filterMap (entries : List Bytes) :
    (entries.filterMap ripRoute).map RipRoute.rawEntry = entries.filter fun entry => IsRipEntry entry := by
  induction entries with
  | nil => rfl
  | cons entry entries ih =>
    cases hroute : ripRoute entry with
    | none =>
      have hnone : ¬ IsRipEntry entry := fun h => (ripRoute_ne_none_iff entry).mpr h hroute
      rw [List.filterMap_cons_none hroute, ih, List.filter_cons_of_neg (by simpa using hnone)]
    | some route =>
      have hentry : IsRipEntry entry := (ripRoute_ne_none_iff entry).mp (by rw [hroute]; exact nofun)
      rw [List.filterMap_cons_some hroute, List.map_cons, ih, (describesEntry_of_ripRoute hroute).1,
        List.filter_cons_of_pos (by simpa using hentry)]

/-- **What a response of version 2 yields**: the routes among its entries, each as its entry says. -/
theorem parseResponse_describes {datagram : Bytes} {routes : List RipRoute} (h : parseResponse datagram = .ok routes) :
    ∃ entries, HasEntries 2 datagram entries ∧ entries.length ≤ maxEntriesPerDatagram ∧
      routes.map RipRoute.rawEntry = entries.filter (fun entry => IsRipEntry entry) ∧
        ∀ route ∈ routes, DescribesEntry route := by
  obtain ⟨htable, hmax, rfl⟩ := (parseResponse_iff datagram routes).mp h
  refine ⟨_, htable.hasEntries, ?_, map_rawEntry_filterMap _, fun route hroute => ?_⟩
  · rw [length_asChunks, List.length_drop]
    exact hmax
  · obtain ⟨entry, -, hentry⟩ := List.mem_filterMap.mp hroute
    exact (describesEntry_of_ripRoute hentry).2

/-- A parsed route is reachable unless its metric is 16. -/
theorem isReachable_iff {datagram : Bytes} {routes : List RipRoute} (h : parseResponse datagram = .ok routes)
    {route : RipRoute} (hroute : route ∈ routes) : route.isReachable = true ↔ route.metric ≠ 16 := by
  obtain ⟨entries, -, -, -, hdescribes⟩ := parseResponse_describes h
  have hle : route.metric ≤ 16 := (hdescribes route hroute).inRange.2
  rw [RipRoute.isReachable, decide_eq_true_iff, UInt32.lt_iff_toNat_lt, Ne, ← UInt32.toNat_inj]
  rw [UInt32.le_iff_toNat_le] at hle
  exact ⟨fun h => Nat.ne_of_lt h, fun h => Nat.lt_of_le_of_ne hle h⟩

/-! ## RIPng -/

/-- Splitting a list with one element more at its end. -/
theorem exists_split_concat {α : Type} {l : List α} {e : α} {P : List α → α → Prop} :
    (∃ before x after, l ++ [e] = before ++ x :: after ∧ P before x) ↔
      (∃ before x after, l = before ++ x :: after ∧ P before x) ∨ P l e := by
  constructor
  · rintro ⟨before, x, after, h, hP⟩
    rcases List.eq_nil_or_concat after with rfl | ⟨after, y, rfl⟩
    · obtain ⟨rfl, hx⟩ := List.append_inj' h rfl
      obtain rfl := List.singleton_inj.mp hx
      exact .inr hP
    · rw [List.concat_eq_append, ← List.cons_append, ← List.append_assoc] at h
      obtain ⟨rfl, -⟩ := List.append_inj' h rfl
      exact .inl ⟨before, x, after, rfl, hP⟩
  · rintro (⟨before, x, after, rfl, hP⟩ | hP)
    · exact ⟨before, x, after ++ [e], by rw [← List.cons_append, List.append_assoc], hP⟩
    · exact ⟨l, e, [], rfl, hP⟩

/-- The next hop the last next-hop entry names, if there is one. -/
def latestHop (entries : List Bytes) : Option IpAddr :=
  (entries.filter fun entry => IsRipngHop entry).getLast?.bind ripngHop

/-- The entry is a route, not a withdrawal. -/
def IsRipngRoute (entry : Bytes) : Prop := IsRipngEntry entry ∧ entry.getD 19 0 ≠ 16

/-- The entry withdraws its prefix. -/
def IsRipngWithdrawal (entry : Bytes) : Prop := IsRipngEntry entry ∧ entry.getD 19 0 = 16

instance (entry : Bytes) : Decidable (IsRipngRoute entry) := inferInstanceAs (Decidable (_ ∧ _))

instance (entry : Bytes) : Decidable (IsRipngWithdrawal entry) := inferInstanceAs (Decidable (_ ∧ _))

/-- The route of an entry under a next hop. -/
def ripngAdvertised (nextHop : Option IpAddr) (entry : Bytes) : AdvertisedRoute :=
  (ripngNet entry, nextHop, (entry.getD 19 0).toUInt32, word (entry.getD 16 0) (entry.getD 17 0), entry)

section Step

variable (s : RipngState) (entry : Bytes)

theorem ripngStep_hop : (ripngStep s entry).1 = if IsRipngHop entry then ripngHop entry else s.1 := by
  unfold ripngStep
  split
  · rfl
  split
  · split
    · rfl
    · rfl
  · rfl

theorem ripngStep_routes :
    (ripngStep s entry).2.1 = s.2.1 ++ if IsRipngRoute entry then [ripngAdvertised s.1 entry] else [] := by
  unfold ripngStep
  split
  case isTrue hhop => rw [if_neg fun h : IsRipngRoute entry => not_isRipngEntry hhop.1 h.1, List.append_nil]
  split
  case isTrue hentry =>
    split
    case isTrue hmetric => rw [if_neg fun h : IsRipngRoute entry => h.2 hmetric, List.append_nil]
    case isFalse hmetric => rw [if_pos (show IsRipngRoute entry from ⟨hentry, hmetric⟩)]; rfl
  case isFalse hentry => rw [if_neg fun h : IsRipngRoute entry => hentry h.1, List.append_nil]

theorem ripngStep_withdrawn :
    (ripngStep s entry).2.2 = s.2.2 ++ if IsRipngWithdrawal entry then [(ripngNet entry, entry)] else [] := by
  unfold ripngStep
  split
  case isTrue hhop => rw [if_neg fun h : IsRipngWithdrawal entry => not_isRipngEntry hhop.1 h.1, List.append_nil]
  split
  case isTrue hentry =>
    split
    case isTrue hmetric => rw [if_pos (show IsRipngWithdrawal entry from ⟨hentry, hmetric⟩)]
    case isFalse hmetric => rw [if_neg fun h : IsRipngWithdrawal entry => hmetric h.2, List.append_nil]
  case isFalse hentry => rw [if_neg fun h : IsRipngWithdrawal entry => hentry h.1, List.append_nil]

end Step

/-- The next hop in force behind some entries is the one named last. -/
theorem foldl_ripngStep_hop (entries : List Bytes) :
    (entries.foldl ripngStep (none, [], [])).1 = latestHop entries := by
  induction entries using List.reverseRecOn with
  | nil => rfl
  | append_singleton entries entry ih =>
    rw [List.foldl_append, List.foldl_cons, List.foldl_nil, ripngStep_hop, ih]
    unfold latestHop
    rw [List.filter_append]
    split
    case isTrue hhop => rw [List.filter_cons_of_pos (by simpa using hhop), List.filter_nil, List.getLast?_concat]; rfl
    case isFalse hhop => rw [List.filter_cons_of_neg (by simpa using hhop), List.filter_nil, List.append_nil]

/-- **The routes of some entries**: each with the next hop in force in front of it. -/
theorem mem_foldl_ripngStep (entries : List Bytes) (advertised : AdvertisedRoute) :
    advertised ∈ (entries.foldl ripngStep (none, [], [])).2.1 ↔
      ∃ before entry after, entries = before ++ entry :: after ∧
        (IsRipngRoute entry ∧ advertised = ripngAdvertised (latestHop before) entry) := by
  induction entries using List.reverseRecOn with
  | nil =>
    refine iff_of_false List.not_mem_nil ?_
    rintro ⟨before, entry, after, h, -⟩
    exact List.append_ne_nil_of_right_ne_nil _ (List.cons_ne_nil _ _) h.symm
  | append_singleton entries entry ih =>
    rw [List.foldl_append, List.foldl_cons, List.foldl_nil, ripngStep_routes, List.mem_append, ih,
      foldl_ripngStep_hop, exists_split_concat]
    refine or_congr Iff.rfl ?_
    split
    case isTrue hroute => rw [List.mem_singleton, and_iff_right hroute]
    case isFalse hroute => exact iff_of_false List.not_mem_nil fun h => hroute h.1

theorem foldl_ripngStep_withdrawn (entries : List Bytes) :
    (entries.foldl ripngStep (none, [], [])).2.2 =
      (entries.filter fun entry => IsRipngWithdrawal entry).map fun entry => (ripngNet entry, entry) := by
  induction entries using List.reverseRecOn with
  | nil => rfl
  | append_singleton entries entry ih =>
    rw [List.foldl_append, List.foldl_cons, List.foldl_nil, ripngStep_withdrawn, ih, List.filter_append,
      List.map_append]
    split
    case isTrue hgone => rw [List.filter_cons_of_pos (by simpa using hgone)]; rfl
    case isFalse hgone => rw [List.filter_cons_of_neg (by simpa using hgone)]; rfl

/-- **What RIP updates report** is what their entries say: version 2 and RIPng. -/
theorem rip_updates_as_sent :
    (∀ datagram routes, parseResponse datagram = .ok routes →
      ∃ entries, HasEntries 2 datagram entries ∧ entries.length ≤ 25 ∧
        routes.map RipRoute.rawEntry = entries.filter (fun entry => IsRipEntry entry) ∧
          ∀ route ∈ routes, DescribesEntry route) ∧
    (∀ sourceMac sender datagram fact, decodeRipV2 sourceMac sender datagram = .ok fact →
      ∃ parsed, parseResponse datagram = .ok parsed ∧ ∃ routes withdrawn,
        fact = .routingUpdate sourceMac (.v4 sender) "RIPv2" routes withdrawn ∧
        (∀ advertised, advertised ∈ routes ↔ ∃ route ∈ parsed, route.metric ≠ 16 ∧
          advertised = (route.net, route.nextHop, route.metric, route.tag, route.rawEntry)) ∧
        ∀ gone, gone ∈ withdrawn ↔ ∃ route ∈ parsed, route.metric = 16 ∧ gone = (route.net, route.rawEntry)) ∧
    ∀ sourceMac sender datagram fact, decodeRipng sourceMac sender datagram = .ok fact →
      ∃ entries, HasEntries 1 datagram entries ∧ ∃ routes withdrawn,
        fact = .routingUpdate sourceMac (.v6 sender) "RIPng" routes withdrawn ∧
        (∀ advertised, advertised ∈ routes ↔ ∃ before entry after, entries = before ++ entry :: after ∧
          (IsRipngRoute entry ∧ advertised = ripngAdvertised (latestHop before) entry)) ∧
        ∀ gone, gone ∈ withdrawn ↔ ∃ entry ∈ entries, IsRipngWithdrawal entry ∧ gone = (ripngNet entry, entry) := by
  refine ⟨fun _ _ => parseResponse_describes, fun sourceMac sender datagram fact h => ?_,
    fun sourceMac sender datagram fact h => ?_⟩
  · unfold decodeRipV2 at h
    obtain ⟨parsed, hparsed, h⟩ := bind_eq_ok.mp h
    obtain ⟨-, -, h⟩ := bind_eq_ok.mp h
    refine ⟨parsed, hparsed, _, _, (Outcome.ok.inj h).symm, fun advertised => ?_, fun gone => ?_⟩
    · rw [List.mem_map]
      constructor
      · rintro ⟨route, hroute, rfl⟩
        obtain ⟨hmem, hreach⟩ := List.mem_filter.mp hroute
        exact ⟨route, hmem, (isReachable_iff hparsed hmem).mp hreach, rfl⟩
      · rintro ⟨route, hmem, hmetric, rfl⟩
        exact ⟨route, List.mem_filter.mpr ⟨hmem, (isReachable_iff hparsed hmem).mpr hmetric⟩, rfl⟩
    · rw [List.mem_map]
      constructor
      · rintro ⟨route, hroute, rfl⟩
        obtain ⟨hmem, hgone⟩ := List.mem_filter.mp hroute
        rw [Bool.not_eq_true', ← Bool.not_eq_true, isReachable_iff hparsed hmem, not_not] at hgone
        exact ⟨route, hmem, hgone, rfl⟩
      · rintro ⟨route, hmem, hmetric, rfl⟩
        refine ⟨route, List.mem_filter.mpr ⟨hmem, ?_⟩, rfl⟩
        rw [Bool.not_eq_true', ← Bool.not_eq_true, isReachable_iff hparsed hmem, not_not]
        exact hmetric
  · obtain ⟨htable, -, rfl⟩ := (decodeRipng_iff sourceMac sender datagram fact).mp h
    refine ⟨_, htable.hasEntries, _, _, rfl, fun advertised => mem_foldl_ripngStep _ advertised, fun gone => ?_⟩
    rw [ripngRead, foldl_ripngStep_withdrawn, List.mem_map]
    constructor
    · rintro ⟨entry, hentry, rfl⟩
      obtain ⟨hmem, hgone⟩ := List.mem_filter.mp hentry
      exact ⟨entry, hmem, of_decide_eq_true hgone, rfl⟩
    · rintro ⟨entry, hmem, hgone, rfl⟩
      exact ⟨entry, List.mem_filter.mpr ⟨hmem, decide_eq_true hgone⟩, rfl⟩

end Idnx
