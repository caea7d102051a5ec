import Idnx.Probes.Datagrams
import Idnx.Probes.Layers

/-!
# The passive decoder returns

No walk the decoder enters panics or goes on for ever. One thing can still go wrong: the checksum of a router
advertisement is summed in thirty-two bits over a message of any length, and `decodeFrame` returns exactly when that
sum fits.
-/

namespace Idnx

open Outcome

variable {ε : Type}

/-! ## IPv6 -/

namespace Ra

theorem safe_parsePrefixInformation (option : Bytes) : Safe (fun _ => True) (parsePrefixInformation option) := by
  refine (safe_require _ _).bind fun _ hlen => (safe_index (by omega)).bind fun prefixLen _ => ?_
  refine (safe_require _ _).bind fun _ _ => (safe_index (by omega)).bind fun flags _ => ?_
  refine (safe_ipv6At (by omega)).bind fun address _ => (safe_okOr _ _).bind fun net _ => ?_
  exact (safe_u32At (by omega)).bind fun valid _ => (safe_u32At (by omega)).bind fun preferred _ => trivial

theorem safe_parseRouteInformation (option : Bytes) : Safe (fun _ => True) (parseRouteInformation option) := by
  refine (safe_require _ _).bind fun _ hunits => (safe_index (by omega)).bind fun prefixLen _ => ?_
  refine (safe_require _ _).bind fun _ _ => (safe_require _ _).bind fun _ _ => ?_
  refine (safe_slice (by omega) (by omega)).bind fun octets hoctets => ?_
  refine (safe_ipv6OfSignificant ((length_slice hoctets).trans (by omega))).bind fun address _ => ?_
  refine (safe_okOr _ _).bind fun net _ => (safe_index (by omega)).bind fun flags _ => ?_
  exact (safe_u32At (by omega)).bind fun lifetime _ => trivial

theorem safe_read (a : RouterAdvertisement) (kind : UInt8) {units : Nat} {option : Bytes}
    (h : option.length = units * 8) : Safe (fun _ => True) (a.read kind units option : Outcome ε _) := by
  unfold RouterAdvertisement.read
  split
  · split
    · refine (safe_slice (by omega) (by omega)).bind fun address haddress => ?_
      have hsize := length_slice_of_le haddress (by omega)
      exact (safe_index (by omega)).bind fun first _ => trivial
    · trivial
  · split
    · exact (safe_u32At (by omega)).bind fun mtu _ => trivial
    · trivial
  · split
    · exact (safe_parsePrefixInformation option).toOption.bind fun read _ => trivial
    · trivial
  · exact (safe_parseRouteInformation option).toOption.bind fun read _ => trivial
  · trivial

theorem safe_options (message : Bytes) (start : Nat) (a : RouterAdvertisement) :
    Safe (fun _ => True) (loop (nextOption message) (message.length + 1) (start, a)) := by
  refine safe_walk (fun cursor a => ?_) _ _
  rw [nextOption]
  split
  · refine (safe_index (by omega)).bind fun kind _ => (safe_index (by omega)).bind fun units _ => ?_
    refine (safe_require _ _).bind fun _ hunits => (safe_require _ _).bind fun _ hstop => ?_
    refine (safe_slice (by omega) hstop).bind fun option hoption => ?_
    have hsize := length_slice_of_le hoption hstop
    exact (safe_read a kind (by omega)).bind fun a' _ => ⟨by omega, by dsimp only; omega⟩
  · trivial

/-- The message is read as an advertisement up to its checksum. -/
def ReachesChecksum (message : Bytes) (hopLimit : UInt8) : Prop :=
  hopLimit = 255 ∧ 16 ≤ message.length ∧ message[0]? = some 134 ∧ message[1]? = some 0

/-- An advertisement is parsed to an end unless its checksum overflows on the way. -/
theorem parseAdvertisement_panic_iff (message : Bytes) (source destination : Ipv6Addr) (hopLimit : UInt8) :
    parseAdvertisement message source destination hopLimit = .panic ↔
      ReachesChecksum message hopLimit ∧
        2 ^ 32 ≤ sumOfWords (pseudoHeader source destination message.length ++ message) := by
  have hsum := addWords_eq (ε := Unit) (pseudoHeader source destination message.length ++ message) 0
  rw [show (0 : UInt32).toNat = 0 from rfl, Nat.zero_add] at hsum
  generalize hpseudo : pseudoHeader source destination message.length ++ message = summed at hsum
  unfold parseAdvertisement
  by_cases hstart : hopLimit = requiredHopLimit ∧ 16 ≤ message.length
  case neg =>
    rw [require, if_neg hstart, err_bind]
    exact iff_of_false err_ne_panic fun h => absurd ⟨h.1.1, h.1.2.1⟩ hstart
  obtain ⟨hhop, hlen⟩ := hstart
  obtain ⟨type, htype, hzero⟩ := returns_index (ε := Unit) (show 0 < message.length by omega)
  obtain ⟨code, hcode, hone⟩ := returns_index (ε := Unit) (show 1 < message.length by omega)
  rw [require_of ⟨hhop, hlen⟩, ok_bind, htype, ok_bind, hcode, ok_bind]
  by_cases hkind : type = 134 ∧ code = 0
  case neg =>
    rw [require, if_neg hkind, err_bind]
    refine iff_of_false err_ne_panic fun h => ?_
    obtain ⟨-, -, h₀, h₁⟩ := h.1
    rw [hzero] at h₀
    rw [hone] at h₁
    exact absurd ⟨Option.some.inj h₀, Option.some.inj h₁⟩ hkind
  obtain ⟨rfl, rfl⟩ := hkind
  have hreaches : ReachesChecksum message hopLimit := ⟨hhop, hlen, hzero, hone⟩
  rw [require_of ⟨rfl, rfl⟩, ok_bind, icmpv6Checksum_eq, hpseudo, hsum]
  by_cases hfits : sumOfWords summed < 2 ^ 32
  · rw [if_pos hfits, ok_bind, bind_bind]
    refine ⟨fun hpanic => absurd hpanic (Safe.ne_panic (P := fun _ => True) ?_), fun h => ?_⟩
    case refine_2 => exact absurd h.2 (Nat.not_le_of_lt hfits)
    refine (returns_foldCarries _).safe.bind fun folded _ => ?_
    rw [pure_eq, ok_bind]
    refine (safe_require _ _).bind fun _ _ => (safe_require _ _).bind fun _ _ => ?_
    refine (safe_index (by omega)).bind fun flags _ => (safe_u16At (by omega)).bind fun lifetime _ => ?_
    exact safe_options message _ _
  · rw [if_neg hfits, panic_bind, panic_bind]
    exact ⟨fun _ => ⟨hreaches, Nat.le_of_not_lt hfits⟩, fun _ => rfl⟩

end Ra

/-- What the checksum of an ICMPv6 packet is taken over: the addresses, the length and the next header, and the
message. -/
def checksummed (payload : Bytes) : Bytes :=
  (payload.drop 8).take 32 ++ beBytes 4 (payload.length - 40) ++ [0, 0, 0, 58] ++ payload.drop 40

/-- An IPv6 packet that is read as a router advertisement up to its checksum: sent with hop limit 255, and long enough
for one. -/
structure IsAdvertisement (payload : Bytes) : Prop where
  long : 56 ≤ payload.length
  nextHeader : payload[6]? = some 58
  hopLimit : payload[7]? = some 255
  type : payload[40]? = some 134
  code : payload[41]? = some 0

/-- A message panics exactly if it is read as an advertisement up to its checksum, and that overflows. -/
theorem decodeMessage6_panic_iff (sourceMac : Text) (source destination : Ipv6Addr) (hopLimit : UInt8) (icmp : Bytes) :
    (decodeMessage6 sourceMac source destination hopLimit icmp : Outcome ε _) = .panic ↔
      Ra.ReachesChecksum icmp hopLimit ∧ 2 ^ 32 ≤ sumOfWords (pseudoHeader source destination icmp.length ++ icmp) := by
  rw [← Ra.parseAdvertisement_panic_iff]
  unfold decodeMessage6
  dsimp only
  by_cases hadvert : 4 ≤ icmp.length ∧ icmp.getD 0 0 = 134
  · rw [if_neg (by omega), if_pos hadvert.2, map_eq_panic, toOption_eq_panic]
  · have hreturns : ¬ Ra.parseAdvertisement icmp source destination hopLimit = .panic := by
      intro hpanic
      obtain ⟨⟨-, hlen, htype, -⟩, -⟩ := (Ra.parseAdvertisement_panic_iff icmp source destination hopLimit).mp hpanic
      rw [List.getElem?_eq_getElem (by omega), ← List.getD_eq_getElem _ 0 (by omega)] at htype
      exact hadvert ⟨by omega, Option.some.inj htype⟩
    refine iff_of_false ?_ hreturns
    split
    · exact ok_ne_panic
    rw [if_neg fun htype => hadvert ⟨by omega, htype⟩]
    split
    · exact ok_ne_panic
    split
    · exact ok_ne_panic
    · exact ok_ne_panic

theorem safe_ripngEntry {entry : Bytes} (h : entry.length = 20) (s : RipngState) :
    Safe (fun _ => True) (ripngEntry s entry : Outcome ε _) := by
  refine (safe_ipv6At (by omega)).bind fun address _ => (safe_u16At (by omega)).bind fun tag _ => ?_
  refine (safe_index (by omega)).bind fun prefixLen _ => (safe_index (by omega)).bind fun metric _ => ?_
  split
  · split <;> trivial
  split
  · trivial
  split
  · trivial
  · dsimp only
    split <;> trivial

theorem safe_ripngEntries {entries : List Bytes} (h : ∀ entry ∈ entries, entry.length = 20) (s : RipngState) :
    Safe (fun _ => True) (ripngEntries entries s : Outcome ε _) := by
  induction entries generalizing s with
  | nil => trivial
  | cons entry entries ih =>
    refine (safe_ripngEntry (h entry List.mem_cons_self) s).bind fun s' _ => ?_
    exact ih (fun e he => h e (List.mem_cons_of_mem entry he)) s'

theorem safe_decodeRipng (sourceMac : Text) (sender : Ipv6Addr) (body : Bytes) :
    Safe (fun _ => True) (decodeRipng sourceMac sender body) := by
  refine (safe_require _ _).bind fun _ hlen => (safe_index (by omega)).bind fun command _ => ?_
  refine (safe_index (by omega)).bind fun version _ => (safe_require _ _).bind fun _ _ => ?_
  refine (safe_u16At (by omega)).bind fun reserved _ => (safe_require _ _).bind fun _ _ => ?_
  refine (safe_sliceFrom hlen).bind fun entries _ => (safe_require _ _).bind fun _ _ => ?_
  refine (safe_ripngEntries (fun entry hentry => length_of_mem_asChunks hentry) _).bind fun s _ => ?_
  exact (safe_require _ _).bind fun _ _ => trivial

/-- Behind an IPv6 header only an ICMPv6 message panics. -/
theorem decodeTransport6_panic_iff (sourceMac : Text) (source destination : Ipv6Addr) (nextHeader hopLimit : UInt8)
    (upper : Bytes) :
    (decodeTransport6 sourceMac source destination nextHeader hopLimit upper : Outcome ε _) = .panic ↔
      nextHeader = 58 ∧ (decodeMessage6 sourceMac source destination hopLimit upper : Outcome ε _) = .panic := by
  unfold decodeTransport6
  split
  case isTrue hudp =>
    refine iff_of_false ?_ fun h => absurd (hudp.symm.trans h.1) (by decide)
    split
    · rw [map_eq_panic, toOption_eq_panic]
      exact (safe_decodeRipng sourceMac source _).ne_panic
    · exact ok_ne_panic
  split
  case isTrue hospf =>
    refine iff_of_false ?_ fun h => absurd (hospf.symm.trans h.1) (by decide)
    split
    · exact ok_ne_panic
    · rw [map_eq_panic]
      exact (safe_ospfFact sourceMac _ _ (Ospf.safe_parseV3 upper)).ne_panic
  split
  case isTrue hicmp => exact ⟨fun hpanic => ⟨hicmp, hpanic⟩, And.right⟩
  case isFalse hother => exact iff_of_false ok_ne_panic fun h => hother h.1

theorem decodeIpv6_panic_iff (sourceMac : Text) (payload : Bytes) :
    (decodeIpv6 sourceMac payload : Outcome ε _) = .panic ↔
      IsAdvertisement payload ∧ 2 ^ 32 ≤ sumOfWords (checksummed payload) := by
  rw [decodeIpv6_eq]
  by_cases hlen : 40 ≤ payload.length
  case neg =>
    rw [if_neg hlen]
    refine iff_of_false ok_ne_panic fun h => ?_
    have := h.1.long
    omega
  have hdropped : (payload.drop 40).length = payload.length - 40 := List.length_drop
  have hat : ∀ k b, k < payload.length → (payload[k]? = some b ↔ payload.getD k 0 = b) := by
    intro k b hk
    rw [List.getElem?_eq_getElem hk, List.getD_eq_getElem _ _ hk, Option.some.injEq]
  have hreaches : payload.getD 6 0 = 58 ∧ Ra.ReachesChecksum (payload.drop 40) (payload.getD 7 0) ↔
      IsAdvertisement payload := by
    rw [← hat 6 58 (by omega), Ra.ReachesChecksum, ← hat 7 255 (by omega), hdropped, List.getElem?_drop,
      List.getElem?_drop]
    constructor
    · rintro ⟨hnext, hhop, hlong, htype, hcode⟩
      exact ⟨by omega, hnext, hhop, htype, hcode⟩
    · rintro ⟨hlong, hnext, hhop, htype, hcode⟩
      exact ⟨hnext, hhop, by omega, htype, hcode⟩
  have hsummed : pseudoHeader (ipv6Source payload) (ipv6Destination payload) (payload.drop 40).length ++
      payload.drop 40 = checksummed payload := by
    have haddress : ∀ k, k + 16 ≤ payload.length →
        beBytes 16 (BitVec.ofNat 128 (beNat ((payload.drop k).take 16))).toNat = (payload.drop k).take 16 := by
      intro k hk
      refine beBytes_ofNat (by decide) ?_
      rw [List.length_take, List.length_drop]
      omega
    have haddresses : (payload.drop 8).take 16 ++ (payload.drop 24).take 16 = (payload.drop 8).take 32 := by
      rw [show payload.drop 24 = (payload.drop 8).drop 16 by rw [List.drop_drop], ← List.take_add]
    unfold pseudoHeader checksummed ipv6Source ipv6Destination
    rw [haddress 8 (by omega), haddress 24 (by omega), haddresses, hdropped]
  rw [if_pos hlen, decodeTransport6_panic_iff, decodeMessage6_panic_iff, hsummed, ← and_assoc, hreaches]

/-! ## Frames -/

/-- Behind its tags, the frame is an IPv6 packet that is read as a router advertisement up to its checksum, and the
words the checksum is taken over add up to more than thirty-two bits hold. -/
def ChecksumOverflows (frame : Bytes) : Prop :=
  ∃ payload, (untag (frame.drop 12)).2 = some (0x86DD, payload) ∧ IsAdvertisement payload ∧
    2 ^ 32 ≤ sumOfWords (checksummed payload)

theorem decodeInner_panic_iff (frame : Bytes) (sourceMac : Text) (ethertype : UInt16) (payload : Bytes) :
    (decodeInner frame sourceMac ethertype payload : Outcome ε _) = .panic ↔
      ethertype = 0x86DD ∧ IsAdvertisement payload ∧ 2 ^ 32 ≤ sumOfWords (checksummed payload) := by
  have hsafe : ∀ {x : Outcome ε (List FrameFact)}, Safe (fun _ => True) x → ethertype ≠ 0x86DD →
      (x = .panic ↔ ethertype = 0x86DD ∧ IsAdvertisement payload ∧ 2 ^ 32 ≤ sumOfWords (checksummed payload)) := by
    intro x hx hne
    exact ⟨fun hpanic => absurd hpanic hx.ne_panic, fun h => absurd h.1 hne⟩
  have hne : ∀ n, ethertype.toNat = n → n ≠ 0x86DD → ethertype ≠ 0x86DD := by
    rintro n rfl hn rfl
    exact hn rfl
  unfold decodeInner
  split
  case h_1 h => exact hsafe ((safe_decodeArp payload).toOption.bind fun fact _ => trivial) (hne _ h (by decide))
  case h_2 h => exact hsafe (safe_decodeIpv4 sourceMac payload) (hne _ h (by decide))
  case h_3 h =>
    rw [decodeIpv6_panic_iff]
    exact ⟨fun hover => ⟨UInt16.toNat_inj.mp h, hover⟩, fun hover => hover.2⟩
  case h_4 h => exact hsafe ((safe_parseLldpFrame frame).toOption.bind fun n _ => trivial) (hne _ h (by decide))
  case h_5 h _ => exact hsafe trivial (hne _ rfl h)

theorem decodeFrame_panic_iff (frame : Bytes) :
    (decodeFrame frame : Outcome ε _) = .panic ↔ ChecksumOverflows frame := by
  by_cases hlen : 12 ≤ frame.length
  case neg =>
    have hdrop : frame.drop 12 = [] := List.drop_eq_nil_of_le (by omega)
    unfold decodeFrame ChecksumOverflows
    rw [if_pos (by omega), hdrop]
    refine iff_of_false ok_ne_panic ?_
    rintro ⟨payload, h, -⟩
    cases h
  rw [decodeFrame_eq hlen, map_eq_panic]
  unfold ChecksumOverflows
  cases (untag (frame.drop 12)).2 with
  | none =>
    refine iff_of_false ok_ne_panic ?_
    rintro ⟨payload, h, -⟩
    cases h
  | some inner =>
    obtain ⟨ethertype, payload⟩ := inner
    rw [decodeBehind]
    split
    case isTrue hllc =>
      refine iff_of_false (safe_decodeLlc frame _ _ payload).ne_panic ?_
      rintro ⟨payload', h, -⟩
      cases h
      exact absurd hllc (by decide)
    case isFalse =>
      rw [decodeInner_panic_iff]
      constructor
      · rintro ⟨rfl, hover⟩
        exact ⟨payload, rfl, hover⟩
      · rintro ⟨payload', h, hover⟩
        cases h
        exact ⟨rfl, hover⟩

/-- **When the decoder returns.** It panics nowhere and ends on every frame, but for the sum of an advertisement's
checksum. -/
theorem decodeFrame_returns_iff (frame : Bytes) :
    Returns (fun _ => True) (decodeFrame frame : Outcome Empty _) ↔ ¬ ChecksumOverflows frame := by
  rw [← decodeFrame_panic_iff (ε := Empty)]
  cases decodeFrame (ε := Empty) frame with
  | ok facts => exact ⟨fun _ => ok_ne_panic, fun _ => returns_ok trivial⟩
  | err e => exact e.elim
  | panic =>
    refine ⟨?_, fun h => absurd rfl h⟩
    rintro ⟨facts, hfacts, -⟩
    cases hfacts

/-- An advertisement from `fe80::1` to all nodes: hop limit 255, type 134, code 0, and any bytes behind. -/
def advertisementPacket (tail : Bytes) : Bytes :=
  [0x60, 0, 0, 0, 0, 0, 58, 255, 0xfe, 0x80, 0, 0, 0, 0, 0, 0, 0, 0, 0, 0, 0, 0, 0, 1, 0xff, 0x02, 0, 0, 0, 0, 0, 0, 0,
    0, 0, 0, 0, 0, 0, 1, 134, 0] ++ tail

def advertisementFrame (tail : Bytes) : Bytes :=
  [0x33, 0x33, 0, 0, 0, 1, 2, 0, 0, 0, 0, 1, 0x86, 0xDD] ++ advertisementPacket tail

theorem sumOfWords_ones (n : Nat) : sumOfWords (List.replicate (2 * n) 0xff) = n * 65535 := by
  induction n with
  | zero => rfl
  | succ n ih =>
    have htwo : List.replicate (2 * (n + 1)) (0xff : UInt8) = 0xff :: 0xff :: List.replicate (2 * n) 0xff := rfl
    rw [htwo, sumOfWords, ih, show (0xff : UInt8).toNat = 255 from rfl]
    omega

/-- A message of 131 078 bytes, most of them set, is more than the sum holds. -/
theorem giant_advertisement_panics :
    ¬ Returns (fun _ => True)
      (decodeFrame (advertisementFrame (List.replicate (2 * 65538) 0xff)) : Outcome Empty _) := by
  have hlen : (List.replicate (2 * 65538) (0xff : UInt8)).length = 2 * 65538 := List.length_replicate
  have hsum := sumOfWords_ones 65538
  generalize List.replicate (2 * 65538) (0xff : UInt8) = tail at hlen hsum ⊢
  have hover : ChecksumOverflows (advertisementFrame tail) := by
    refine ⟨advertisementPacket tail, rfl, ⟨?_, rfl, rfl, rfl, rfl⟩, ?_⟩
    · rw [advertisementPacket, List.length_append, hlen]
      exact Nat.le_add_left_of_le (by decide)
    · have haddresses : ((advertisementPacket tail).drop 8).take 32 =
          [0xfe, 0x80, 0, 0, 0, 0, 0, 0, 0, 0, 0, 0, 0, 0, 0, 1] ++
            [0xff, 0x02, 0, 0, 0, 0, 0, 0, 0, 0, 0, 0, 0, 0, 0, 1] := rfl
      unfold checksummed
      rw [haddresses, sumOfWords_append _ _ (by simp)]
      have hmessage : (advertisementPacket tail).drop 40 = 134 :: 0 :: tail := rfl
      rw [hmessage, sumOfWords, hsum]
      omega
  rintro ⟨facts, hfacts, -⟩
  rw [(decodeFrame_panic_iff _).mpr hover] at hfacts
  cases hfacts

end Idnx
