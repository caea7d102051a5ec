import Idnx.Lib.Records
import Idnx.Probes.IsisReach
import Idnx.Probes.Totality

/-!
# The options of a router advertisement

A message is intact options and a rest that starts with none. The loop reads the options one behind the other and ends
at the rest: with the advertisement if the rest is too short for the front of an option, and refusing the message if it
is not (`loop_options`). The prefixes and routes of an advertisement are those its options carry
(`advertisement_options`).
-/

namespace Idnx

open Outcome

variable {ε : Type}

namespace Ra

/-! ## Options -/

/-- An option: its length counts units of eight bytes, is not zero, and covers the kind and itself. -/
structure NdOption where
  kind : UInt8
  units : UInt8
  value : Bytes
  units_ne : units ≠ 0
  length_value : value.length + 2 = units.toNat * 8

namespace NdOption

def bytes (o : NdOption) : Bytes := o.kind :: o.units :: o.value

theorem length_bytes (o : NdOption) : o.bytes.length = o.units.toNat * 8 := o.length_value

theorem units_pos (o : NdOption) : 0 < o.units.toNat :=
  Nat.pos_of_ne_zero fun h => o.units_ne (UInt8.toNat_inj.mp h)

theorem bytes_pos (o : NdOption) : 0 < o.bytes.length := by
  have := o.units_pos
  rw [o.length_bytes]
  omega

/-- The bytes of a prefix the option carries: Prefix Information (3) has them behind sixteen bytes, Route Information
behind eight. -/
def carried (o : NdOption) : Bytes := if o.kind = 3 then o.bytes.drop 16 else o.bytes.drop 8

/-- The network is the one the option carries: as long as it says, no longer than the bytes it has, and of these no
more than that. -/
structure Carries (o : NdOption) (net : Ipv6Net) : Prop where
  states : net.prefixLen.val = (o.value.getD 0 0).toNat
  fits : net.prefixLen.val ≤ 128
  has : net.prefixLen.val ≤ 8 * o.carried.length
  addr : net.addr = IpNet.clearBits (128 - net.prefixLen) (significant6 o.carried)
  beyond : ∀ i, 8 * o.carried.length ≤ i → net.addr.getMsbD i = false

variable {o : NdOption}

/-- A network cut to its length is carried if its length is. -/
theorem carries_trunc {len : Nat} (hstates : len = (o.value.getD 0 0).toNat) (hlt : len < 129)
    (hfits : len ≤ 8 * o.carried.length) : o.Carries (Ipv6Net.mk (significant6 o.carried) (Fin.ofNat 129 len)).trunc := by
  have hlen : (Fin.ofNat 129 len).val = len := Nat.mod_eq_of_lt hlt
  refine ⟨hlen.trans hstates, ?_, Nat.le_trans (Nat.le_of_eq hlen) hfits, rfl, fun i hi => ?_⟩
  · exact Nat.le_of_lt_succ (Fin.ofNat 129 len).isLt
  · show (IpNet.clearBits (128 - (Fin.ofNat 129 len).val) _).getMsbD i = false
    rw [BitVec.getMsbD, hlen]
    by_cases h : i < 128
    · rw [IpNet.getLsbD_clearBits (by omega), Bool.and_false]
    · rw [decide_eq_false h, Bool.false_and]

/-- An option of Prefix Information has the bytes of a whole address. -/
theorem prefix_of_ok {i : PrefixInformation} (hkind : o.kind = 3) (h : parsePrefixInformation o.bytes = .ok i) :
    o.Carries i.net := by
  unfold parsePrefixInformation at h
  obtain ⟨_, hlen, h⟩ := bind_eq_ok.mp h
  have hlen := require_eq_ok.mp hlen
  rw [index_eq (by omega), ok_bind] at h
  obtain ⟨_, hfits, h⟩ := bind_eq_ok.mp h
  have hfits := require_eq_ok.mp hfits
  have hcarried : o.carried = o.bytes.drop 16 := if_pos hkind
  have hwhole : o.carried.length = 16 := by rw [hcarried, List.length_drop, hlen]
  have haddr : BitVec.ofNat 128 (beNat ((o.bytes.drop 16).take 16)) = significant6 o.carried := by
    rw [← hcarried, List.take_of_length_le (Nat.le_of_eq hwhole), significant6, hwhole]
    show _ = BitVec.ofNat 128 (beNat (o.carried ++ []))
    rw [List.append_nil]
  rw [index_eq (by omega), ok_bind, ipv6At_eq (by omega), ok_bind, haddr, Ipv6Net.new_of_lt _ (by omega), okOr_some,
    ok_bind, u32At_eq (by omega), ok_bind, u32At_eq (by omega), ok_bind] at h
  obtain rfl := Outcome.ok.inj h
  exact carries_trunc rfl (by omega) (by rw [hwhole]; exact hfits)

/-- An option of Route Information has none, half or all of the bytes of an address. -/
theorem route_of_ok {r : RouteInformation} (hkind : o.kind ≠ 3) (h : parseRouteInformation o.bytes = .ok r) :
    o.Carries r.net := by
  unfold parseRouteInformation at h
  obtain ⟨_, hunits, h⟩ := bind_eq_ok.mp h
  obtain ⟨hone, hthree, hwhole⟩ := require_eq_ok.mp hunits
  have hcarried : o.carried = o.bytes.drop 8 := if_neg hkind
  have hlen : o.carried.length = o.bytes.length - 8 := by rw [hcarried, List.length_drop]
  rw [index_eq (by omega), ok_bind] at h
  obtain ⟨_, hfits, h⟩ := bind_eq_ok.mp h
  obtain ⟨_, hcut, h⟩ := bind_eq_ok.mp h
  have hfits := require_eq_ok.mp hfits
  have hcut := require_eq_ok.mp hcut
  have hbits : (o.bytes.getD 2 0).toNat ≤ 8 * o.carried.length := by
    have hcases : o.bytes.length / 8 = 1 ∨ o.bytes.length / 8 = 2 ∨ o.bytes.length / 8 = 3 := by omega
    rcases hcases with hu | hu | hu
    · rw [hu] at hcut
      exact Nat.le_trans hcut (Nat.zero_le _)
    · rw [hu] at hcut
      have hhalf : 64 ≤ 8 * o.carried.length := by omega
      exact Nat.le_trans hcut hhalf
    · rw [hu] at hcut
      have hall : 128 ≤ 8 * o.carried.length := by omega
      exact Nat.le_trans hcut hall
  have haddr : (o.bytes.drop 8).take (o.bytes.length - 8) = o.carried := by
    rw [List.take_of_length_le (Nat.le_of_eq List.length_drop), hcarried]
  dsimp only at h
  rw [slice_eq (by omega), ok_bind, haddr, ipv6OfSignificant_eq (by omega), ok_bind, Ipv6Net.new_of_lt _ (by omega),
    okOr_some, ok_bind, index_eq (by omega), ok_bind, u32At_eq (by omega), ok_bind] at h
  obtain rfl := Outcome.ok.inj h
  exact carries_trunc rfl (by omega) hbits

/-- A single unit that claims a /64 carries nothing of it. -/
example : parseRouteInformation [24, 1, 64, 0, 0, 0, 0, 30] = .err () := by decide

end NdOption

/-! ## The loop over the options -/

/-- What is read from an option, with the others left as they are. -/
structure Adds (a : RouterAdvertisement) (o : NdOption) (a' : RouterAdvertisement) : Prop where
  prefixes : ∀ i ∈ a'.prefixes, i ∈ a.prefixes ∨ o.kind = 3 ∧ o.Carries i.net
  routes : ∀ r ∈ a'.routes, r ∈ a.routes ∨ o.kind = 24 ∧ o.Carries r.net

theorem adds_nothing {a a' : RouterAdvertisement} {o : NdOption} (hprefixes : a'.prefixes = a.prefixes)
    (hroutes : a'.routes = a.routes) : Adds a o a' :=
  ⟨fun _ hi => .inl (hprefixes ▸ hi), fun _ hr => .inl (hroutes ▸ hr)⟩

/-- An option is read, whatever it holds. -/
theorem read_spec (a : RouterAdvertisement) (o : NdOption) :
    Returns (Adds a o) (a.read o.kind o.units.toNat o.bytes : Outcome ε _) := by
  have hlen := o.length_bytes
  unfold RouterAdvertisement.read
  split
  case h_1 =>
    split
    · rw [slice_eq (n := 6) (by omega), ok_bind, index_eq (by rw [List.length_take, List.length_drop]; omega), ok_bind]
      refine returns_ok ?_
      split
      · exact adds_nothing rfl rfl
      · exact adds_nothing rfl rfl
    · exact returns_ok (adds_nothing rfl rfl)
  case h_2 =>
    split
    · rw [u32At_eq (by omega), ok_bind]
      exact returns_ok (adds_nothing rfl rfl)
    · exact returns_ok (adds_nothing rfl rfl)
  case h_3 hkind =>
    have hkind : o.kind = 3 := UInt8.toNat_inj.mp hkind
    split
    · cases hparse : parsePrefixInformation o.bytes with
      | ok i =>
        refine returns_ok ⟨fun j hj => ?_, fun _ hr => .inl hr⟩
        rcases List.mem_append.mp hj with hj | hj
        · exact .inl hj
        · rw [List.mem_singleton.mp hj]
          exact .inr ⟨hkind, NdOption.prefix_of_ok hkind hparse⟩
      | err e => exact returns_ok (adds_nothing (List.append_nil _) rfl)
      | panic => exact absurd hparse (safe_parsePrefixInformation o.bytes).ne_panic
    · exact returns_ok (adds_nothing rfl rfl)
  case h_4 hkind =>
    have hkind : o.kind = 24 := UInt8.toNat_inj.mp hkind
    cases hparse : parseRouteInformation o.bytes with
    | ok r =>
      refine returns_ok ⟨fun _ hi => .inl hi, fun j hj => ?_⟩
      rcases List.mem_append.mp hj with hj | hj
      · exact .inl hj
      · rw [List.mem_singleton.mp hj]
        exact .inr ⟨hkind, NdOption.route_of_ok (by rw [hkind]; decide) hparse⟩
    | err e => exact returns_ok (adds_nothing rfl (List.append_nil _))
    | panic => exact absurd hparse (safe_parseRouteInformation o.bytes).ne_panic
  case h_5 => exact returns_ok (adds_nothing rfl rfl)

/-- The advertisement with one option more. -/
def withOption (a : RouterAdvertisement) (o : NdOption) : RouterAdvertisement :=
  (a.read o.kind o.units.toNat o.bytes : Outcome Unit _).getD a

theorem read_eq (a : RouterAdvertisement) (o : NdOption) :
    (a.read o.kind o.units.toNat o.bytes : Outcome Unit _) = .ok (withOption a o) ∧ Adds a o (withOption a o) := by
  obtain ⟨a', ha', hadds⟩ := read_spec (ε := Unit) a o
  unfold withOption
  rw [ha']
  exact ⟨rfl, hadds⟩

/-- What is read comes from the options, or was there before them. -/
theorem adds_foldl (options : List NdOption) (a : RouterAdvertisement) :
    (∀ i ∈ (options.foldl withOption a).prefixes,
      i ∈ a.prefixes ∨ ∃ o ∈ options, o.kind = 3 ∧ o.Carries i.net) ∧
    ∀ r ∈ (options.foldl withOption a).routes, r ∈ a.routes ∨ ∃ o ∈ options, o.kind = 24 ∧ o.Carries r.net := by
  induction options generalizing a with
  | nil => exact ⟨fun _ hi => .inl hi, fun _ hr => .inl hr⟩
  | cons o options ih =>
    have hfirst := (read_eq a o).2
    obtain ⟨hprefixes, hroutes⟩ := ih (withOption a o)
    rw [List.foldl_cons]
    constructor
    · intro i hi
      rcases hprefixes i hi with hi | ⟨o', ho', hi⟩
      · exact (hfirst.prefixes i hi).imp_right fun hi => ⟨o, List.mem_cons_self, hi⟩
      · exact .inr ⟨o', List.mem_cons_of_mem _ ho', hi⟩
    · intro r hr
      rcases hroutes r hr with hr | ⟨o', ho', hr⟩
      · exact (hfirst.routes r hr).imp_right fun hr => ⟨o, List.mem_cons_self, hr⟩
      · exact .inr ⟨o', List.mem_cons_of_mem _ ho', hr⟩

theorem nextOption_of_holds {message : Bytes} {k : Nat} {o : NdOption} (h : Holds message k o.bytes)
    (a : RouterAdvertisement) :
    nextOption message (k, a) = .ok (.next (k + o.bytes.length, withOption a o)) := by
  have hlen := h.length_le
  have hpos := o.units_pos
  have hunits : (index message (k + 1) : Outcome Unit _) = .ok o.units := (Holds.right (x := [o.kind]) h).index
  have hslice : (slice message k (k + o.bytes.length) : Outcome Unit _) = .ok o.bytes := h.slice
  rw [o.length_bytes] at hlen hslice
  rw [nextOption, if_pos (by omega), h.index, ok_bind, hunits, ok_bind]
  dsimp only
  rw [require_of (by omega), ok_bind, require_of hlen, ok_bind, hslice, ok_bind, (read_eq a o).1, ok_bind,
    o.length_bytes]
  rfl

/-- The front of an option that is none: its length is zero, or runs over the end. -/
def Refused (rest : Bytes) : Prop :=
  2 ≤ rest.length ∧ (rest.getD 1 0 = 0 ∨ rest.length < (rest.getD 1 0).toNat * 8)

/-- Where no option starts, the message ends or is refused. -/
theorem nextOption_of_rest {message rest : Bytes} {k : Nat} (hk : k ≤ message.length) (h : message.drop k = rest)
    (hrest : ∀ (o : NdOption) more, rest ≠ o.bytes ++ more) (a : RouterAdvertisement) :
    rest.length < 2 ∧ nextOption message (k, a) = .ok (.done a) ∨
      Refused rest ∧ nextOption message (k, a) = .err () := by
  have hlen : rest.length = message.length - k := by rw [← h, List.length_drop]
  rw [nextOption]
  by_cases hshort : rest.length < 2
  · rw [if_neg (by omega)]
    exact .inl ⟨hshort, rfl⟩
  rcases rest with _ | ⟨kind, _ | ⟨units, more⟩⟩
  · exact absurd (show ([] : Bytes).length < 2 by decide) hshort
  · exact absurd (Nat.lt_succ_self 1) hshort
  · have hkind : (index message k : Outcome Unit _) = .ok kind := index_of_drop h
    have hunits : (index message (k + 1) : Outcome Unit _) = .ok units := by
      rw [index_add, h]
      rfl
    have htwo : 2 ≤ (kind :: units :: more).length := by omega
    rw [if_pos (by omega), hkind, ok_bind, hunits, ok_bind]
    dsimp only
    by_cases hzero : units.toNat = 0
    · rw [require, if_neg (not_not_intro hzero)]
      exact .inr ⟨⟨htwo, .inl (UInt8.toNat_inj.mp hzero)⟩, rfl⟩
    rw [require_of hzero, ok_bind]
    have hcut : ¬ k + units.toNat * 8 ≤ message.length := by
      intro hfits
      rw [List.length_cons, List.length_cons] at hlen
      have htake : (more.take (units.toNat * 8 - 2)).length = units.toNat * 8 - 2 := List.length_take_of_le (by omega)
      refine hrest ⟨kind, units, more.take (units.toNat * 8 - 2), fun h0 => hzero (h0 ▸ rfl), by omega⟩
        (more.drop (units.toNat * 8 - 2)) ?_
      rw [NdOption.bytes, List.cons_append, List.cons_append, List.take_append_drop]
    rw [require, if_neg hcut]
    exact .inr ⟨⟨htwo, .inr (by rw [hlen]; exact Nat.lt_of_not_le fun hle => hcut (by
      rw [List.getD_cons_succ, List.getD_cons_zero] at hle
      omega))⟩, rfl⟩

/-- **The loop over the options ends**, whatever the message holds. -/
theorem loop_options {message : Bytes} {start : Nat} (hstart : start ≤ message.length) {options : List NdOption}
    {rest : Bytes} (h : message.drop start = options.flatMap NdOption.bytes ++ rest)
    (hrest : ∀ (o : NdOption) more, rest ≠ o.bytes ++ more) (a : RouterAdvertisement) :
    rest.length < 2 ∧ loop (nextOption message) (message.length + 1) (start, a) = .ok (options.foldl withOption a) ∨
      Refused rest ∧ loop (nextOption message) (message.length + 1) (start, a) = .err () := by
  obtain ⟨fuel, k, hloop, hk, hdrop⟩ :=
    loop_records_rest NdOption.bytes_pos (fun k o s ho => nextOption_of_holds ho s) hstart h a
  rw [hloop, loop]
  rcases nextOption_of_rest hk hdrop hrest (options.foldl withOption a) with ⟨hshort, hturn⟩ | ⟨hrefused, hturn⟩
  · rw [hturn]
    exact .inl ⟨hshort, rfl⟩
  · rw [hturn]
    exact .inr ⟨hrefused, rfl⟩

/-! ## The advertisement -/

/-- **What an advertisement says is what its options carry**: it is read only as sent on this link by one of its
routers, and only if its options are intact; the loop over them always ends, at the end of the message or at the front
of an option that is none. -/
theorem advertisement_options (message : Bytes) (source destination : Ipv6Addr) (hopLimit : UInt8) :
    (∀ a, parseAdvertisement message source destination hopLimit = .ok a →
      hopLimit = 255 ∧ (icmpv6Checksum source destination message : Outcome Unit _) = .ok 0 ∧
      source.isLinkLocal = true ∧
      ∃ (options : List NdOption) (rest : Bytes),
        message.drop 16 = options.flatMap NdOption.bytes ++ rest ∧ rest.length < 2 ∧
        (∀ i ∈ a.prefixes, ∃ o ∈ options, o.kind = 3 ∧ o.Carries i.net) ∧
        ∀ r ∈ a.routes, ∃ o ∈ options, o.kind = 24 ∧ o.Carries r.net) ∧
    ∀ start a, start ≤ message.length →
      ∃ (options : List NdOption) (rest : Bytes), message.drop start = options.flatMap NdOption.bytes ++ rest ∧
        (rest.length < 2 ∧
            loop (nextOption message) (message.length + 1) (start, a) = .ok (options.foldl withOption a) ∨
          Refused rest ∧ loop (nextOption message) (message.length + 1) (start, a) = .err ()) := by
  constructor
  case right =>
    intro start a hstart
    obtain ⟨options, rest, hcontents, hrest⟩ := exists_records NdOption.bytes_pos (message.drop start)
    exact ⟨options, rest, hcontents, loop_options hstart hcontents hrest a⟩
  intro a h
  unfold parseAdvertisement at h
  obtain ⟨_, hstart, h⟩ := bind_eq_ok.mp h
  obtain ⟨hhop, hlen⟩ := require_eq_ok.mp hstart
  rw [index_eq (by omega), ok_bind, index_eq (by omega), ok_bind] at h
  obtain ⟨_, -, h⟩ := bind_eq_ok.mp h
  obtain ⟨checksum, hchecksum, h⟩ := bind_eq_ok.mp h
  obtain ⟨_, hzero, h⟩ := bind_eq_ok.mp h
  obtain ⟨_, hlinkLocal, h⟩ := bind_eq_ok.mp h
  rw [index_eq (by omega), ok_bind, u16At_eq (by omega), ok_bind] at h
  obtain ⟨options, rest, hcontents, hrest⟩ := exists_records NdOption.bytes_pos (message.drop 16)
  refine ⟨hhop, require_eq_ok.mp hzero ▸ hchecksum, require_eq_ok.mp hlinkLocal, options, rest, hcontents, ?_⟩
  rcases loop_options hlen hcontents hrest _ with ⟨hshort, hloop⟩ | ⟨-, hloop⟩
  · rw [hloop] at h
    obtain rfl := Outcome.ok.inj h
    obtain ⟨hprefixes, hroutes⟩ := adds_foldl options _
    exact ⟨hshort, fun i hi => (hprefixes i hi).resolve_left List.not_mem_nil,
      fun r hr => (hroutes r hr).resolve_left List.not_mem_nil⟩
  · rw [hloop] at h
    cases h

end Ra

end Idnx
