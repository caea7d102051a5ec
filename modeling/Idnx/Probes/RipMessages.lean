import Idnx.Net.Masks
import Idnx.Probes.Layers
import Idnx.Probes.Totality

/-!
# What RIP and RIPng responses are accepted

A response is a header of four bytes and whole entries of twenty; it is accepted if one of the entries is a route
(`ripUpdate_iff`, `ripngUpdate_iff`). A byte more and it is none.
-/

namespace Idnx

open Outcome

variable {ε : Type}

/-! ## Chunks -/

section Chunks

variable {n : Nat} {bytes : Bytes}

theorem asChunks_of_lt (h : bytes.length < n) : asChunks n bytes = [] := by
  unfold asChunks
  rw [Nat.div_eq_of_lt h]
  rfl

theorem asChunks_cons (hn : 0 < n) (h : n ≤ bytes.length) :
    asChunks n bytes = bytes.take n :: asChunks n (bytes.drop n) := by
  have hcount : bytes.length / n = (bytes.drop n).length / n + 1 := by
    rw [List.length_drop, ← Nat.add_div_right _ hn, Nat.sub_add_cancel h]
  unfold asChunks
  rw [hcount, List.range_succ_eq_map, List.map_cons, List.map_map, Nat.zero_mul, List.drop_zero]
  congr 1
  refine List.map_congr_left fun i _ => ?_
  rw [Function.comp_apply, List.drop_drop, Nat.succ_mul, Nat.add_comm]

end Chunks

/-- The header of a response: the command, the version and two bytes that must be zero. -/
def HasRipHeader (version : UInt8) (body : Bytes) : Prop := body.take 4 = [2, version, 0, 0]

theorem hasRipHeader_iff {version : UInt8} {body : Bytes} :
    HasRipHeader version body ↔ 4 ≤ body.length ∧ body.getD 0 0 = 2 ∧ body.getD 1 0 = version ∧
      word (body.getD 2 0) (body.getD 3 0) = 0 := by
  have hzero : ∀ c d : UInt8, word c d = 0 ↔ c = 0 ∧ d = 0 := fun c d => (word_inj : word c d = word 0 0 ↔ _)
  unfold HasRipHeader
  match body with
  | [] => simp
  | [_] => simp
  | [_, _] => simp
  | [_, _, _] => simp
  | a :: b :: c :: d :: rest => simp [hzero]

theorem HasRipHeader.head? {version : UInt8} {body : Bytes} (h : HasRipHeader version body) : body.head? = some 2 := by
  have hhead := congrArg List.head? h
  rwa [List.head?_take, if_neg (by decide)] at hhead

/-- A header and whole entries. -/
def IsTable (version : UInt8) (body : Bytes) : Prop := HasRipHeader version body ∧ (body.length - 4) % 20 = 0

/-- One byte more is no whole entry. -/
theorem not_isTable_append {version version' : UInt8} {body : Bytes} (h : IsTable version body) (b : UInt8) :
    ¬ IsTable version' (body ++ [b]) := by
  intro hmore
  have hlen := (hasRipHeader_iff.mp h.1).1
  have hwhole := h.2
  have hwhole' := hmore.2
  rw [List.length_append, List.length_singleton] at hwhole'
  omega

/-! ## RIPv2 -/

/-- The entry is a route: of IPv4, with a metric from 1 to 16 and a netmask. -/
def IsRipEntry (entry : Bytes) : Prop :=
  word (entry.getD 0 0) (entry.getD 1 0) = 2 ∧
    (1 ≤ UInt32.ofNat (beNat ((entry.drop 16).take 4)) ∧ UInt32.ofNat (beNat ((entry.drop 16).take 4)) ≤ 16) ∧
      contiguousPrefixLength (addressOfBytes ((entry.drop 8).take 4)) ≠ none

instance (entry : Bytes) : Decidable (IsRipEntry entry) := inferInstanceAs (Decidable (_ ∧ _))

/-- A well-formed response of version 2 with a route. -/
def IsRipUpdate (body : Bytes) : Prop :=
  IsTable 2 body ∧ (body.length - 4) / 20 ≤ maxEntriesPerDatagram ∧
    ∃ entry ∈ asChunks 20 (body.drop 4), IsRipEntry entry

/-- **The prefix length of a mask** is the number of its ones, if only zeros follow them. -/
theorem contiguousPrefixLength_iff {mask : Ipv4Addr} {n : Nat} :
    contiguousPrefixLength mask = some n ↔ OnesThenZeros mask n := by
  rw [← onesThenZeros_iff_shiftLeft]
  unfold contiguousPrefixLength
  dsimp only
  constructor
  · intro h
    split at h
    case isTrue hfull =>
      obtain rfl := Option.some.inj h
      exact ⟨hfull, BitVec.shiftLeft_eq_zero (Nat.le_refl 32)⟩
    split at h
    case isTrue hzero =>
      obtain rfl := Option.some.inj h
      exact ⟨rfl, hzero⟩
    case isFalse => cases h
  · rintro ⟨rfl, hzero⟩
    split
    case isTrue hfull => rw [hfull]
    case isFalse => exact if_pos hzero

/-- The route of an entry, if it is one. -/
def ripRoute (entry : Bytes) : Option RipRoute :=
  let metric := UInt32.ofNat (beNat ((entry.drop 16).take 4))
  let nextHop := addressOfBytes ((entry.drop 12).take 4)
  if word (entry.getD 0 0) (entry.getD 1 0) ≠ 2 then none
  else if ¬ (1 ≤ metric ∧ metric ≤ 16) then none
  else do
    let prefixLength ← contiguousPrefixLength (addressOfBytes ((entry.drop 8).take 4))
    let network ← Ipv4Net.new (addressOfBytes ((entry.drop 4).take 4)) prefixLength
    return { net := network.trunc.toNet, nextHop := if nextHop.isUnspecified then none else some (.v4 nextHop), metric,
             tag := word (entry.getD 2 0) (entry.getD 3 0), rawEntry := entry }

theorem ripEntry_eq {entry : Bytes} (h : entry.length = 20) :
    (ripEntry entry : Outcome ε _) = .ok (ripRoute entry) := by
  unfold ripRoute ripEntry
  rw [u16At_eq (by omega), ok_bind]
  dsimp only
  by_cases hfamily : word (entry.getD 0 0) (entry.getD 1 0) ≠ 2
  · rw [if_pos hfamily, if_pos hfamily]
    rfl
  rw [if_neg hfamily, if_neg hfamily, ipv4At_eq (by omega), ok_bind, ipv4At_eq (by omega), ok_bind,
    ipv4At_eq (by omega), ok_bind, u32At_eq (by omega), ok_bind]
  split
  · rfl
  · rw [u16At_eq (by omega), ok_bind]
    rfl

theorem ripRoute_ne_none_iff (entry : Bytes) : ripRoute entry ≠ none ↔ IsRipEntry entry := by
  unfold ripRoute IsRipEntry
  dsimp only
  by_cases hfamily : word (entry.getD 0 0) (entry.getD 1 0) = 2
  case neg =>
    rw [if_pos hfamily]
    exact ⟨fun h => absurd rfl h, fun h => absurd h.1 hfamily⟩
  rw [if_neg (not_not.mpr hfamily), and_iff_right hfamily]
  generalize UInt32.ofNat (beNat ((entry.drop 16).take 4)) = metric
  by_cases hmetric : 1 ≤ metric ∧ metric ≤ 16
  case neg =>
    rw [if_pos hmetric]
    exact ⟨fun h => absurd rfl h, fun h => absurd h.1 hmetric⟩
  rw [if_neg (not_not.mpr hmetric), and_iff_right hmetric]
  cases hlen : contiguousPrefixLength (addressOfBytes ((entry.drop 8).take 4)) with
  | none => exact ⟨fun h => absurd rfl h, fun h => absurd rfl h⟩
  | some len =>
    have hlt : len < 33 := Nat.lt_succ_of_le (contiguousPrefixLength_iff.mp hlen).1
    rw [Option.bind_eq_bind, Option.bind_some, Ipv4Net.new_of_lt _ hlt]
    exact ⟨fun _ => nofun, fun _ => nofun⟩

/-- The routes of a response are those of its entries. -/
theorem walk_ripEntries {datagram : Bytes} {k : Nat} (hk : k ≤ datagram.length) (routes : List RipRoute) {fuel : Nat}
    (hfuel : datagram.length - k < fuel) :
    (loop (ripEntries datagram) fuel (k, routes) : Outcome ε _) =
      .ok (routes ++ (asChunks 20 (datagram.drop k)).filterMap ripRoute) := by
  induction fuel generalizing k routes with
  | zero => omega
  | succ fuel ih =>
    have hrest : (datagram.drop k).length = datagram.length - k := List.length_drop
    rw [loop, ripEntries]
    by_cases hentry : k + 20 ≤ datagram.length
    · have hsize : ((datagram.drop k).take 20).length = 20 := List.length_take_of_le (by omega)
      have hchunks : asChunks 20 (datagram.drop k) =
          (datagram.drop k).take 20 :: asChunks 20 (datagram.drop (k + 20)) := by
        rw [asChunks_cons (by decide) (by omega), List.drop_drop]
      rw [if_pos hentry, slice_eq hentry, ok_bind, ripEntry_eq hsize, ok_bind, pure_eq, ok_bind]
      dsimp only
      rw [ih hentry _ (by omega), hchunks, List.append_assoc]
      cases hroute : ripRoute ((datagram.drop k).take 20) with
      | none => rw [List.filterMap_cons_none hroute]; rfl
      | some route => rw [List.filterMap_cons_some hroute]; rfl
    · rw [if_neg hentry, ok_bind, asChunks_of_lt (by omega)]
      simp

/-- The routes of a response are those of its entries. -/
theorem parseResponse_iff (body : Bytes) (routes : List RipRoute) :
    parseResponse body = .ok routes ↔ IsTable 2 body ∧ (body.length - 4) / 20 ≤ maxEntriesPerDatagram ∧
      routes = (asChunks 20 (body.drop 4)).filterMap ripRoute := by
  have hrefused : (Outcome.err () : Outcome Unit _) ≠ .ok routes := nofun
  unfold IsTable
  rw [hasRipHeader_iff]
  unfold parseResponse
  by_cases hlen : 4 ≤ body.length
  case neg =>
    rw [require, if_neg hlen, err_bind]
    exact iff_of_false hrefused fun h => hlen h.1.1.1
  rw [require_of hlen, ok_bind, index_eq (by omega), ok_bind]
  by_cases hcommand : body.getD 0 0 = 2
  case neg =>
    rw [require, if_neg hcommand, err_bind]
    exact iff_of_false hrefused fun h => hcommand h.1.1.2.1
  rw [require_of hcommand, ok_bind, index_eq (by omega), ok_bind]
  by_cases hversion : body.getD 1 0 = 2
  case neg =>
    rw [require, if_neg hversion, err_bind]
    exact iff_of_false hrefused fun h => hversion h.1.1.2.2.1
  rw [require_of hversion, ok_bind, u16At_eq (by omega), ok_bind]
  by_cases hreserved : word (body.getD 2 0) (body.getD 3 0) = 0
  case neg =>
    rw [require, if_neg hreserved, err_bind]
    exact iff_of_false hrefused fun h => hreserved h.1.1.2.2.2
  rw [require_of hreserved, ok_bind]
  by_cases hwhole : (body.length - 4) % 20 = 0
  case neg =>
    rw [require, if_neg hwhole, err_bind]
    exact iff_of_false hrefused fun h => hwhole h.1.2
  rw [require_of hwhole, ok_bind]
  by_cases hmax : (body.length - 4) / 20 ≤ maxEntriesPerDatagram
  case neg =>
    rw [require, if_neg hmax, err_bind]
    exact iff_of_false hrefused fun h => hmax h.2.1
  rw [require_of hmax, ok_bind, walk_ripEntries hlen [] (by omega), List.nil_append]
  constructor
  · rintro h
    obtain rfl := Outcome.ok.inj h
    exact ⟨⟨⟨hlen, hcommand, hversion, hreserved⟩, hwhole⟩, hmax, rfl⟩
  · rintro ⟨-, -, rfl⟩
    rfl

/-- **Which RIP responses are accepted.** -/
theorem ripUpdate_iff (body : Bytes) :
    (∃ routes, parseResponse body = .ok routes ∧ routes ≠ []) ↔ IsRipUpdate body := by
  have hroute : (asChunks 20 (body.drop 4)).filterMap ripRoute ≠ [] ↔
      ∃ entry ∈ asChunks 20 (body.drop 4), IsRipEntry entry := by
    simp only [Ne, List.filterMap_eq_nil_iff, not_forall, ← ripRoute_ne_none_iff, exists_prop]
  unfold IsRipUpdate
  rw [← hroute]
  constructor
  · rintro ⟨routes, hroutes, hsome⟩
    obtain ⟨htable, hmax, rfl⟩ := (parseResponse_iff body routes).mp hroutes
    exact ⟨htable, hmax, hsome⟩
  · rintro ⟨htable, hmax, hsome⟩
    exact ⟨_, (parseResponse_iff body _).mpr ⟨htable, hmax, rfl⟩, hsome⟩

/-! ## RIPng -/

/-- The entry is a prefix with a metric from 1 to 16, a route or a withdrawal. -/
def IsRipngEntry (entry : Bytes) : Prop :=
  entry.getD 18 0 ≤ 128 ∧ 1 ≤ entry.getD 19 0 ∧ entry.getD 19 0 ≤ 16

/-- A well-formed response with a route or a withdrawal. -/
def IsRipngUpdate (body : Bytes) : Prop :=
  IsTable 1 body ∧ ∃ entry ∈ asChunks 20 (body.drop 4), IsRipngEntry entry

/-- The entry names the next hop of those behind it. -/
def IsRipngHop (entry : Bytes) : Prop :=
  entry.getD 19 0 = 0xff ∧ word (entry.getD 16 0) (entry.getD 17 0) = 0 ∧ entry.getD 18 0 = 0

instance (entry : Bytes) : Decidable (IsRipngEntry entry) := inferInstanceAs (Decidable (_ ∧ _))

instance (entry : Bytes) : Decidable (IsRipngHop entry) := inferInstanceAs (Decidable (_ ∧ _))

/-- An entry of metric 255 is no route. -/
theorem not_isRipngEntry {entry : Bytes} (h : entry.getD 19 0 = 0xff) : ¬ IsRipngEntry entry := by
  unfold IsRipngEntry
  rw [h]
  exact fun h => absurd h.2.2 (by decide)

/-- The address of an entry. -/
def ripngAddress (entry : Bytes) : Ipv6Addr := BitVec.ofNat 128 (beNat (entry.take 16))

/-- The next hop an entry names; the unspecified address stands for the sender. -/
def ripngHop (entry : Bytes) : Option IpAddr :=
  if (ripngAddress entry).isUnspecified then none else some (.v6 (ripngAddress entry))

/-- The prefix of an entry. -/
def ripngNet (entry : Bytes) : IpNet :=
  (Ipv6Net.mk (ripngAddress entry) (Fin.ofNat 129 (entry.getD 18 0).toNat)).trunc.toNet

/-- What a response says with one entry more. -/
def ripngStep (s : RipngState) (entry : Bytes) : RipngState :=
  if IsRipngHop entry then (ripngHop entry, s.2)
  else if IsRipngEntry entry then
    if entry.getD 19 0 = 16 then (s.1, s.2.1, s.2.2 ++ [(ripngNet entry, entry)])
    else (s.1, s.2.1 ++ [(ripngNet entry, s.1, (entry.getD 19 0).toUInt32, word (entry.getD 16 0) (entry.getD 17 0),
      entry)], s.2.2)
  else s

theorem ripngEntry_eq {entry : Bytes} (h : entry.length = 20) (s : RipngState) :
    (ripngEntry s entry : Outcome ε _) = .ok (ripngStep s entry) := by
  obtain ⟨nextHop, routes, withdrawn⟩ := s
  have haddress : (ipv6At entry 0 : Outcome ε _) = .ok (ripngAddress entry) := ipv6At_eq (by omega)
  unfold ripngEntry ripngStep
  dsimp only
  rw [haddress, ok_bind, u16At_eq (by omega), ok_bind, index_eq (by omega), ok_bind, index_eq (by omega), ok_bind]
  by_cases hnext : entry.getD 19 0 = 0xff
  · have hnone := not_isRipngEntry hnext
    rw [if_pos hnext]
    by_cases hzero : word (entry.getD 16 0) (entry.getD (16 + 1) 0) = 0 ∧ entry.getD 18 0 = 0
    · have hhop : IsRipngHop entry := ⟨hnext, hzero⟩
      rw [if_pos hzero, if_pos hhop]
      unfold ripngHop
      split
      · rfl
      · rfl
    · have hhop : ¬ IsRipngHop entry := fun hhop => hzero hhop.2
      rw [if_neg hzero, if_neg hhop, if_neg hnone]
      rfl
  have hhop : ¬ IsRipngHop entry := fun hhop => hnext hhop.1
  have hrefused : (128 < entry.getD 18 0 ∨ entry.getD 19 0 = 0 ∨ 16 < entry.getD 19 0) ↔ ¬ IsRipngEntry entry := by
    unfold IsRipngEntry
    rw [UInt8.lt_iff_toNat_lt, UInt8.lt_iff_toNat_lt, UInt8.le_iff_toNat_le, UInt8.le_iff_toNat_le,
      UInt8.le_iff_toNat_le, ← UInt8.toNat_inj]
    show (128 < _ ∨ _ = 0 ∨ 16 < _) ↔ ¬ (_ ≤ 128 ∧ 1 ≤ _ ∧ _ ≤ 16)
    omega
  rw [if_neg hnext, if_neg hhop]
  by_cases hentry : IsRipngEntry entry
  case neg =>
    rw [if_pos (hrefused.mpr hentry), if_neg hentry]
    rfl
  have hlen : (entry.getD 18 0).toNat < 129 := Nat.lt_succ_of_le (UInt8.le_iff_toNat_le.mp hentry.1)
  rw [if_neg fun h => hrefused.mp h hentry, if_pos hentry, Ipv6Net.new_of_lt _ hlen]
  dsimp only
  split
  · rfl
  · rfl

theorem ripngEntries_eq {entries : List Bytes} (h : ∀ entry ∈ entries, entry.length = 20) (s : RipngState) :
    (ripngEntries entries s : Outcome ε _) = .ok (entries.foldl ripngStep s) := by
  induction entries generalizing s with
  | nil => rfl
  | cons entry entries ih =>
    rw [ripngEntries, ripngEntry_eq (h entry List.mem_cons_self), ok_bind,
      ih (fun e he => h e (List.mem_cons_of_mem entry he)), List.foldl_cons]

/-- The response has said nothing so far. -/
def RipngState.IsSilent (s : RipngState) : Prop := s.2.1 = [] ∧ s.2.2 = []

theorem isSilent_ripngStep (s : RipngState) (entry : Bytes) :
    RipngState.IsSilent (ripngStep s entry) ↔ RipngState.IsSilent s ∧ ¬ IsRipngEntry entry := by
  unfold ripngStep
  split
  case isTrue hhop => exact (and_iff_left (not_isRipngEntry hhop.1)).symm
  case isFalse =>
    split
    case isFalse hnone => exact (and_iff_left hnone).symm
    case isTrue hentry =>
      refine iff_of_false ?_ fun h => h.2 hentry
      split
      · exact fun h => absurd h.2 (List.append_ne_nil_of_right_ne_nil _ (List.cons_ne_nil _ _))
      · exact fun h => absurd h.1 (List.append_ne_nil_of_right_ne_nil _ (List.cons_ne_nil _ _))

theorem isSilent_foldl (entries : List Bytes) (s : RipngState) :
    RipngState.IsSilent (entries.foldl ripngStep s) ↔
      RipngState.IsSilent s ∧ ¬ ∃ entry ∈ entries, IsRipngEntry entry := by
  induction entries generalizing s with
  | nil => simp
  | cons entry entries ih =>
    rw [List.foldl_cons, ih, isSilent_ripngStep, List.exists_mem_cons_iff, not_or, and_assoc]

/-- What a response says once all its entries are read. -/
def ripngRead (body : Bytes) : RipngState := (asChunks 20 (body.drop 4)).foldl ripngStep (none, [], [])

/-- A response says what its entries say, and is refused if they say nothing. -/
theorem decodeRipng_iff (sourceMac : Text) (sender : Ipv6Addr) (body : Bytes) (fact : FrameFact) :
    decodeRipng sourceMac sender body = .ok fact ↔ IsTable 1 body ∧ ¬ (ripngRead body).IsSilent ∧
      fact = .routingUpdate sourceMac (.v6 sender) "RIPng" (ripngRead body).2.1 (ripngRead body).2.2 := by
  have hrefused : (Outcome.err () : Outcome Unit _) ≠ .ok fact := nofun
  unfold IsTable
  rw [hasRipHeader_iff]
  unfold decodeRipng
  by_cases hlen : 4 ≤ body.length
  case neg =>
    rw [require, if_neg hlen, err_bind]
    exact iff_of_false hrefused fun h => hlen h.1.1.1
  rw [require_of hlen, ok_bind, index_eq (by omega), ok_bind, index_eq (by omega), ok_bind]
  by_cases hkind : body.getD 0 0 = 2 ∧ body.getD 1 0 = 1
  case neg =>
    rw [require, if_neg hkind, err_bind]
    exact iff_of_false hrefused fun h => hkind ⟨h.1.1.2.1, h.1.1.2.2.1⟩
  rw [require_of hkind, ok_bind, u16At_eq (by omega), ok_bind]
  by_cases hreserved : word (body.getD 2 0) (body.getD 3 0) = 0
  case neg =>
    rw [require, if_neg hreserved, err_bind]
    exact iff_of_false hrefused fun h => hreserved h.1.1.2.2.2
  rw [require_of hreserved, ok_bind, sliceFrom_eq hlen, ok_bind]
  have hrest : (body.drop 4).length = body.length - 4 := List.length_drop
  by_cases hwhole : body.drop 4 ≠ [] ∧ (body.drop 4).length % 20 = 0
  case neg =>
    rw [require, if_neg hwhole, err_bind]
    refine iff_of_false hrefused fun h => hwhole ⟨fun hnil => h.2.1 ?_, hrest ▸ h.1.2⟩
    rw [ripngRead, hnil]
    exact ⟨rfl, rfl⟩
  have hread : (ripngEntries (asChunks 20 (body.drop 4)) (none, [], []) : Outcome Unit _) = .ok (ripngRead body) :=
    ripngEntries_eq (fun entry hentry => length_of_mem_asChunks hentry) _
  unfold RipngState.IsSilent
  rw [require_of hwhole, ok_bind, hread, ok_bind]
  generalize ripngRead body = s
  obtain ⟨nextHop, routes, withdrawn⟩ := s
  dsimp only
  by_cases hnothing : routes = [] ∧ withdrawn = []
  · rw [require, if_neg (not_not.mpr hnothing), err_bind]
    exact iff_of_false hrefused fun h => h.2.1 hnothing
  · rw [require_of hnothing, ok_bind]
    constructor
    · rintro h
      exact ⟨⟨⟨hlen, hkind.1, hkind.2, hreserved⟩, by omega⟩, hnothing, (Outcome.ok.inj h).symm⟩
    · rintro ⟨-, -, rfl⟩
      rfl

/-- **Which RIPng responses are accepted.** -/
theorem ripngUpdate_iff (sourceMac : Text) (sender : Ipv6Addr) (body : Bytes) :
    (∃ fact, decodeRipng sourceMac sender body = .ok fact) ↔ IsRipngUpdate body := by
  have hstart : RipngState.IsSilent (none, [], []) := ⟨rfl, rfl⟩
  have hspoke : ¬ (ripngRead body).IsSilent ↔ ∃ entry ∈ asChunks 20 (body.drop 4), IsRipngEntry entry := by
    rw [ripngRead, isSilent_foldl, and_iff_right hstart, not_not]
  unfold IsRipngUpdate
  rw [← hspoke]
  constructor
  · rintro ⟨fact, hfact⟩
    obtain ⟨htable, hsome, -⟩ := (decodeRipng_iff sourceMac sender body fact).mp hfact
    exact ⟨htable, hsome⟩
  · rintro ⟨htable, hsome⟩
    exact ⟨_, (decodeRipng_iff sourceMac sender body _).mpr ⟨htable, hsome, rfl⟩⟩

end Idnx
