import Idnx.Probes.InternetChecksum

/-!
# Router interfaces on the egress path

An echo with a limited TTL makes the router that drops it answer with Time Exceeded, which carries the head of the
echo. `matchesProbe` accepts exactly the Time Exceeded messages that carry this probe's echo, whether or not the
platform prepends an IP header (`matchesProbe_iff`). `discoverPath` asks at one distance after the other; its hops are
the answers before the first router that answers twice (`discoverPath_spec`).
-/

namespace Idnx

open Outcome

variable {ε : Type}

/-! ## The probe -/

/-- `PATH_PROBE_DESTINATION`: reserved for documentation, so no real host holds it. -/
def pathProbeDestination : Ipv4Addr := .new 192 0 2 1

def icmpEchoRequest : UInt8 := 8
def icmpTimeExceeded : UInt8 := 11

/-- `libc_icmp_protocol`. -/
def icmpProtocol : UInt8 := 1

/-- A router interface that forwarded one of our probes. -/
structure PathHop where
  distance : UInt8
  address : IpAddr
  toward : IpAddr
  previous : Option IpAddr
  deriving DecidableEq, Repr

/-- What a probe was, so its errors can be recognised. -/
structure ProbeIdentity where
  identifier : UInt16
  sequence : UInt16
  destination : Ipv4Addr
  deriving DecidableEq, Repr

/-- The probe of a run at one distance. -/
def probeIdentity (identifier : UInt16) (distance : UInt8) : ProbeIdentity :=
  ⟨identifier, distance.toUInt16, pathProbeDestination⟩

/-- An ICMP echo request with its checksum. -/
def echoRequest (identifier sequence : UInt16) : Outcome ε Bytes := do
  let packet : Bytes := [icmpEchoRequest, 0, 0, 0] ++ beBytes 2 identifier.toNat ++ beBytes 2 sequence.toNat ++
    [0x69, 0x64, 0x6E, 0x78, 0x2D, 0x70, 0x61, 0x74, 0x68]
  let checksum ← internetChecksum packet
  copyInto packet 2 4 (beBytes 2 checksum.toNat)

/-- The header length an IPv4 packet states in its first byte, in bytes. -/
def statedHeaderLen (first : UInt8) : Nat := (first &&& 0x0F).toNat * 4

/-- Strips the IP header some platforms prepend to an ICMP datagram. -/
def icmpMessage (datagram : Bytes) : Option Bytes :=
  match datagram.head? with
  | none => none
  | some first =>
    if first >>> 4 = 4 then
      if statedHeaderLen first ≤ datagram.length then some (datagram.drop (statedHeaderLen first)) else none
    else some datagram

/-- Whether a datagram is the Time Exceeded that belongs to one probe. -/
def matchesProbe (datagram : Bytes) (identity : ProbeIdentity) : Bool :=
  Option.isSome do
    let icmp ← icmpMessage datagram
    guard (icmp.head? = some icmpTimeExceeded)
    -- Type, code and the four unused bytes, then the offending packet.
    let embedded := icmp.drop 8
    let first ← embedded.head?
    guard (first >>> 4 = 4)
    let headerLength := statedHeaderLen first
    guard (20 ≤ headerLength ∧ headerLength + 8 ≤ embedded.length)
    guard (embedded[9]? = some icmpProtocol)
    let destination ← getRange embedded 16 20
    guard (destination = beBytes 4 identity.destination.toNat)
    let inner := embedded.drop headerLength
    guard (inner.head? = some icmpEchoRequest)
    let id ← getRange inner 4 6
    let sequence ← getRange inner 6 8
    guard (UInt16.ofNat (beNat id) = identity.identifier ∧ UInt16.ofNat (beNat sequence) = identity.sequence)

/-! ## What matches a probe -/

/-- An IPv4 header in front of a packet: version four, as long as it says. -/
def IsIpv4Header (header : Bytes) : Prop :=
  ∃ first rest, header = first :: rest ∧ first >>> 4 = 4 ∧ header.length = statedHeaderLen first

/-- The header of a packet that carries an ICMP message to an address. -/
structure CarriesIcmp (header : Bytes) (destination : Ipv4Addr) : Prop where
  isHeader : IsIpv4Header header
  header_le : 20 ≤ header.length
  protocol : header[9]? = some icmpProtocol
  destination : (header.drop 16).take 4 = beBytes 4 destination.toNat

/-- The head of an echo: type, code and checksum, the identifier and the sequence. -/
def echoHead (middle : Bytes) (identity : ProbeIdentity) : Bytes :=
  icmpEchoRequest :: middle ++ beBytes 2 identity.identifier.toNat ++ beBytes 2 identity.sequence.toNat

/-- The head of an IPv4 packet that carries the echo of a probe. -/
structure ProbePacket (identity : ProbeIdentity) where
  header : Bytes
  carries : CarriesIcmp header identity.destination
  /-- The code and the checksum of the echo. -/
  middle : Bytes
  length_middle : middle.length = 3
  more : Bytes

def ProbePacket.bytes {identity : ProbeIdentity} (p : ProbePacket identity) : Bytes :=
  p.header ++ (echoHead p.middle identity ++ p.more)

/-- A Time Exceeded message about a packet, behind an IP header or not. -/
structure TimeExceeded where
  outer : Bytes
  outer_eq : outer = [] ∨ IsIpv4Header outer
  /-- The code, the checksum and the unused bytes. -/
  rest : Bytes
  length_rest : rest.length = 7

def TimeExceeded.about (t : TimeExceeded) (packet : Bytes) : Bytes :=
  t.outer ++ (icmpTimeExceeded :: t.rest ++ packet)

section Matches

variable {identity : ProbeIdentity} {embedded datagram : Bytes}

/-- A word is what its two bytes say. -/
theorem word_eq_iff {bytes : Bytes} (h : bytes.length = 2) (x : UInt16) :
    UInt16.ofNat (beNat bytes) = x ↔ bytes = beBytes 2 x.toNat := by
  constructor
  · rintro rfl
    have hlt : beNat bytes < 2 ^ 16 := by
      have hlt := beNat_lt bytes
      rw [h] at hlt
      exact hlt
    rw [UInt16.toNat_ofNat', Nat.mod_eq_of_lt hlt, ← h, beBytes_beNat]
  · rintro rfl
    rw [beNat_beBytes x.toNat_lt, UInt16.ofNat_toNat]

theorem getRange_eq_some_iff {α : Type} {l value : List α} (start n : Nat) :
    getRange l start (start + n) = some value ↔ start + n ≤ l.length ∧ value = (l.drop start).take n := by
  rw [getRange, Nat.add_sub_cancel_left]
  split
  case isTrue h => exact ⟨fun heq => ⟨h.2, (Option.some.inj heq).symm⟩, fun heq => congrArg some heq.2.symm⟩
  case isFalse h => exact ⟨fun heq => (Option.some_ne_none _ heq.symm).elim, fun heq => absurd ⟨by omega, heq.1⟩ h⟩

/-- What `matchesProbe` looks at in the packet an error carries. -/
structure EmbedsProbe (identity : ProbeIdentity) (embedded : Bytes) (first : UInt8) : Prop where
  head : embedded.head? = some first
  version : first >>> 4 = 4
  header_le : 20 ≤ statedHeaderLen first
  length_le : statedHeaderLen first + 8 ≤ embedded.length
  protocol : embedded[9]? = some icmpProtocol
  destination : (embedded.drop 16).take 4 = beBytes 4 identity.destination.toNat
  echo : (embedded.drop (statedHeaderLen first)).head? = some icmpEchoRequest
  identifier : (embedded.drop (statedHeaderLen first + 4)).take 2 = beBytes 2 identity.identifier.toNat
  sequence : (embedded.drop (statedHeaderLen first + 6)).take 2 = beBytes 2 identity.sequence.toNat

theorem matchesProbe_eq_true : matchesProbe datagram identity = true ↔
    ∃ icmp, icmpMessage datagram = some icmp ∧ icmp.head? = some icmpTimeExceeded ∧
      ∃ first, EmbedsProbe identity (icmp.drop 8) first := by
  unfold matchesProbe
  simp only [Option.isSome_iff_exists, bind, Option.bind_eq_some_iff, Option.guard_eq_some', exists_and_left,
    exists_const]
  refine exists_congr fun icmp => and_congr_right fun _ => and_congr_right fun _ => exists_congr fun first => ?_
  generalize icmp.drop 8 = embedded
  constructor
  · rintro ⟨hfirst, hversion, ⟨hheader, hlen⟩, hprotocol, destination, hrange, hdestination, hecho, id, hid, sequence,
      hsequence, hsame, hsame'⟩
    obtain ⟨-, rfl⟩ := (getRange_eq_some_iff 16 4).mp hrange
    obtain ⟨hle, rfl⟩ := (getRange_eq_some_iff 4 2).mp hid
    obtain ⟨hle', rfl⟩ := (getRange_eq_some_iff 6 2).mp hsequence
    rw [List.length_drop] at hle hle'
    refine ⟨hfirst, hversion, hheader, hlen, hprotocol, hdestination, hecho, ?_, ?_⟩
    · rw [← List.drop_drop]
      refine (word_eq_iff ?_ _).mp hsame
      rw [List.length_take, List.length_drop, List.length_drop]
      omega
    · rw [← List.drop_drop]
      refine (word_eq_iff ?_ _).mp hsame'
      rw [List.length_take, List.length_drop, List.length_drop]
      omega
  · intro h
    have hlen := h.length_le
    have hheader := h.header_le
    refine ⟨h.head, h.version, ⟨hheader, hlen⟩, h.protocol, _,
      (getRange_eq_some_iff 16 4).mpr ⟨by omega, rfl⟩, h.destination, h.echo, _,
      (getRange_eq_some_iff 4 2).mpr ⟨by rw [List.length_drop]; omega, rfl⟩, _,
      (getRange_eq_some_iff 6 2).mpr ⟨by rw [List.length_drop]; omega, rfl⟩, ?_, ?_⟩
    · rw [List.drop_drop, h.identifier, (word_eq_iff (length_beBytes _ _) _).mpr rfl]
    · rw [List.drop_drop, h.sequence, (word_eq_iff (length_beBytes _ _) _).mpr rfl]

/-- The two words of an echo stand behind its first four bytes. -/
theorem echoHead_words (identity : ProbeIdentity) {middle : Bytes} (h : middle.length = 3) (more : Bytes) :
    ((echoHead middle identity ++ more).drop 4).take 2 = beBytes 2 identity.identifier.toNat ∧
      ((echoHead middle identity ++ more).drop 6).take 2 = beBytes 2 identity.sequence.toNat := by
  have hself := Holds.self (echoHead middle identity ++ more)
  have hid : Holds (echoHead middle identity ++ more) 4 (beBytes 2 identity.identifier.toNat) := by
    have hright := hself.left.left.right
    rwa [List.length_cons, h] at hright
  have hsequence : Holds (echoHead middle identity ++ more) 6 (beBytes 2 identity.sequence.toNat) := by
    have hright := hself.left.right
    rwa [List.length_append, List.length_cons, h, length_beBytes] at hright
  exact ⟨by simpa using hid.drop_take, by simpa using hsequence.drop_take⟩

theorem length_echoHead (identity : ProbeIdentity) {middle : Bytes} (h : middle.length = 3) :
    (echoHead middle identity).length = 8 := by
  simp only [echoHead, List.length_append, List.length_cons, length_beBytes, h]

/-- A packet that carries the echo is taken for one. -/
theorem ProbePacket.embedsProbe (p : ProbePacket identity) : ∃ first, EmbedsProbe identity p.bytes first := by
  obtain ⟨first, tail, hheader, hversion, hlen⟩ := p.carries.isHeader
  have hle := p.carries.header_le
  have hecho := length_echoHead identity p.length_middle
  obtain ⟨hid, hsequence⟩ := echoHead_words identity p.length_middle p.more
  have hbehind : ∀ n, p.bytes.drop (statedHeaderLen first + n) = (echoHead p.middle identity ++ p.more).drop n := by
    intro n
    rw [← List.drop_drop, ← hlen, bytes, List.drop_left]
  refine ⟨first, ?_, hversion, by omega, ?_, ?_, ?_, ?_, ?_, ?_⟩
  · rw [bytes, hheader]
    rfl
  · rw [bytes, List.length_append, List.length_append, hecho]
    omega
  · rw [bytes, List.getElem?_append_left (by omega), p.carries.protocol]
  · rw [bytes, List.drop_append_of_le_length (by omega),
      List.take_append_of_le_length (by rw [List.length_drop]; omega), p.carries.destination]
  · exact congrArg List.head? (hbehind 0)
  · rw [hbehind, hid]
  · rw [hbehind, hsequence]

/-- Bytes with the type and the two words of an echo begin with its head. -/
theorem echoHead_append_drop {inner : Bytes} (hlen : 8 ≤ inner.length) (htype : inner.head? = some icmpEchoRequest)
    (hid : (inner.drop 4).take 2 = beBytes 2 identity.identifier.toNat)
    (hsequence : (inner.drop 6).take 2 = beBytes 2 identity.sequence.toNat) :
    echoHead ((inner.drop 1).take 3) identity ++ inner.drop 8 = inner := by
  obtain ⟨tail, rfl⟩ := List.head?_eq_some_iff.mp htype
  rw [echoHead, ← hid, ← hsequence, List.append_assoc, ← drop_cut _ 6, List.append_assoc, ← drop_cut _ 4,
    List.cons_append, ← drop_cut _ 1]
  rfl

/-- What is taken for a packet that carries the echo is one. -/
theorem exists_probePacket {first : UInt8} (h : EmbedsProbe identity embedded first) :
    ∃ p : ProbePacket identity, p.bytes = embedded := by
  have hlen := h.length_le
  have hle := h.header_le
  have htake : (embedded.take (statedHeaderLen first)).length = statedHeaderLen first :=
    List.length_take_of_le (by omega)
  have hheader : IsIpv4Header (embedded.take (statedHeaderLen first)) := by
    obtain ⟨tail, rfl⟩ := List.head?_eq_some_iff.mp h.head
    refine ⟨first, tail.take (statedHeaderLen first - 1), ?_, h.version, htake⟩
    rw [← List.take_succ_cons, Nat.sub_add_cancel (by omega)]
  have hcarries : CarriesIcmp (embedded.take (statedHeaderLen first)) identity.destination := by
    refine ⟨hheader, by omega, ?_, ?_⟩
    · rw [List.getElem?_take_of_lt (by omega), h.protocol]
    · rw [List.drop_take, List.take_take, Nat.min_eq_left (by omega), h.destination]
  have hinner : 8 ≤ (embedded.drop (statedHeaderLen first)).length := by
    rw [List.length_drop]
    omega
  have hecho := echoHead_append_drop hinner h.echo (by rw [List.drop_drop, h.identifier])
    (by rw [List.drop_drop, h.sequence])
  have hmiddle : (((embedded.drop (statedHeaderLen first)).drop 1).take 3).length = 3 := by
    rw [List.length_take, List.length_drop]
    omega
  refine ⟨⟨_, hcarries, _, hmiddle, (embedded.drop (statedHeaderLen first)).drop 8⟩, ?_⟩
  rw [ProbePacket.bytes, hecho, List.take_append_drop]

/-- A header is stripped; a message that does not look like one is left alone. -/
theorem icmpMessage_append {outer tail : Bytes} {type : UInt8} (houter : outer = [] ∨ IsIpv4Header outer)
    (htype : type >>> 4 ≠ 4) : icmpMessage (outer ++ type :: tail) = some (type :: tail) := by
  obtain rfl | ⟨first, rest, rfl, hversion, hlen⟩ := houter
  · rw [List.nil_append, icmpMessage, List.head?_cons]
    dsimp only
    rw [if_neg htype]
  · rw [List.cons_append, icmpMessage, List.head?_cons]
    simp only [hversion, if_pos]
    rw [← hlen, if_pos (by rw [← List.cons_append, List.length_append]; omega), ← List.cons_append, List.drop_left]

theorem icmpMessage_eq_some {icmp : Bytes} (h : icmpMessage datagram = some icmp) :
    ∃ outer, (outer = [] ∨ IsIpv4Header outer) ∧ datagram = outer ++ icmp := by
  unfold icmpMessage at h
  split at h
  case h_1 => cases h
  case h_2 first hfirst =>
    obtain ⟨tail, rfl⟩ := List.head?_eq_some_iff.mp hfirst
    split_ifs at h with hversion hlen
    · obtain rfl := Option.some.inj h
      refine ⟨(first :: tail).take (statedHeaderLen first), ?_, (List.take_append_drop _ _).symm⟩
      rcases Nat.eq_zero_or_pos (statedHeaderLen first) with hzero | hpos
      · exact .inl (by rw [hzero, List.take_zero])
      · refine .inr ⟨first, tail.take (statedHeaderLen first - 1), ?_, hversion, List.length_take_of_le hlen⟩
        rw [← List.take_succ_cons, Nat.sub_add_cancel hpos]
    · exact ⟨[], .inl rfl, Option.some.inj h⟩

/-- **What matches a probe**: a Time Exceeded message about an IPv4 packet that carries that probe's echo, and nothing
else. -/
theorem matchesProbe_iff (datagram : Bytes) (identity : ProbeIdentity) : matchesProbe datagram identity = true ↔
    ∃ (t : TimeExceeded) (p : ProbePacket identity), datagram = t.about p.bytes := by
  rw [matchesProbe_eq_true]
  constructor
  · rintro ⟨icmp, hicmp, htype, first, hembeds⟩
    obtain ⟨outer, houter, rfl⟩ := icmpMessage_eq_some hicmp
    obtain ⟨p, hp⟩ := exists_probePacket hembeds
    obtain ⟨tail, rfl⟩ := List.head?_eq_some_iff.mp htype
    have hlen := hembeds.length_le
    have hrest : (tail.take 7).length = 7 := by
      rw [List.length_drop, List.length_cons] at hlen
      exact List.length_take_of_le (by omega)
    refine ⟨⟨outer, houter, tail.take 7, hrest⟩, p, ?_⟩
    rw [TimeExceeded.about, hp, List.drop_succ_cons, List.cons_append, List.take_append_drop]
  · rintro ⟨t, p, rfl⟩
    refine ⟨icmpTimeExceeded :: (t.rest ++ p.bytes), icmpMessage_append t.outer_eq (by decide), rfl, ?_⟩
    obtain ⟨first, hembeds⟩ := p.embedsProbe
    refine ⟨first, ?_⟩
    rwa [List.drop_succ_cons, List.drop_left' t.length_rest]

/-- The header of a packet and what it matches tell the probe: no datagram belongs to two of them. -/
theorem EmbedsProbe.unique {identity' : ProbeIdentity} {first first' : UInt8} (h : EmbedsProbe identity embedded first)
    (h' : EmbedsProbe identity' embedded first') : identity = identity' := by
  obtain rfl : first = first' := Option.some.inj (h.head.symm.trans h'.head)
  have hword : ∀ {x y : UInt16}, beBytes 2 x.toNat = beBytes 2 y.toNat → x = y := fun heq =>
    UInt16.toNat_inj.mp (beBytes_inj (UInt16.toNat_lt _) (UInt16.toNat_lt _) heq)
  have hdestination := beBytes_inj (n := 4) identity.destination.isLt identity'.destination.isLt
    (h.destination.symm.trans h'.destination)
  have hidentifier := hword (h.identifier.symm.trans h'.identifier)
  have hsequence := hword (h.sequence.symm.trans h'.sequence)
  cases identity
  cases identity'
  rw [ProbeIdentity.mk.injEq]
  exact ⟨hidentifier, hsequence, BitVec.eq_of_toNat_eq hdestination⟩

theorem matchesProbe_unique {identity' : ProbeIdentity} (h : matchesProbe datagram identity = true)
    (h' : matchesProbe datagram identity' = true) : identity = identity' := by
  obtain ⟨icmp, hicmp, -, first, hembeds⟩ := matchesProbe_eq_true.mp h
  obtain ⟨icmp', hicmp', -, first', hembeds'⟩ := matchesProbe_eq_true.mp h'
  obtain rfl := Option.some.inj (hicmp.symm.trans hicmp')
  exact hembeds.unique hembeds'

end Matches

/-! ## The echo and its error -/

/-- What `echoRequest` builds begins with the head of the echo, and its checksum verifies. -/
theorem echoRequest_eq (identity : ProbeIdentity) : ∃ middle more, middle.length = 3 ∧
    (echoRequest identity.identifier identity.sequence : Outcome ε Bytes) = .ok (echoHead middle identity ++ more) ∧
      rfc1071 (echoHead middle identity ++ more) = 0 := by
  let text : Bytes := [0x69, 0x64, 0x6E, 0x78, 0x2D, 0x70, 0x61, 0x74, 0x68]
  let words : Bytes := beBytes 2 identity.identifier.toNat ++ beBytes 2 identity.sequence.toNat ++ text
  let checksum := beBytes 2 (rfc1071 ([] ++ ([icmpEchoRequest, 0] ++ [0, 0] ++ words))).toNat
  have hhead : [icmpEchoRequest, 0] ++ checksum ++ words = echoHead (0 :: checksum) identity ++ text := by
    simp only [echoHead, words, List.cons_append, List.nil_append, List.append_assoc]
  refine ⟨0 :: checksum, text, by rw [List.length_cons, length_beBytes], ?_, ?_⟩
  · have hlen : ([] ++ ([icmpEchoRequest, 0] ++ [0, 0] ++ words) : Bytes).length ≤ 65535 := by simp [words, text]
    rw [← hhead]
    have hpacket : ([icmpEchoRequest, 0, 0, 0] ++ beBytes 2 identity.identifier.toNat ++
        beBytes 2 identity.sequence.toNat ++ text : Bytes) = [] ++ ([icmpEchoRequest, 0] ++ [0, 0] ++ words) := by
      simp only [words, List.cons_append, List.nil_append, List.append_assoc]
    rw [echoRequest]
    show (internetChecksum (_ ++ text) >>= _) = _
    rw [hpacket, internetChecksum_eq hlen]
    exact @copyInto_append _ _ [icmpEchoRequest, 0] [0, 0] _ _ (length_beBytes 2 _)
  · rw [← hhead]
    exact @rfc1071_store [] [icmpEchoRequest, 0] words rfl rfl

/-- **The error about a probe is that probe's and no other's.** What a router sends back when it drops the echo, with
at least eight bytes of it, matches exactly the probe that was sent. -/
theorem matchesProbe_quoted (t : TimeExceeded) (header packet : Bytes) (n : Nat) (identity identity' : ProbeIdentity)
    (hsent : (echoRequest identity.identifier identity.sequence : Outcome Unit Bytes) = .ok packet)
    (hcarries : CarriesIcmp header identity.destination) (hquoted : 8 ≤ n) :
    matchesProbe (t.about (header ++ packet.take n)) identity' = true ↔ identity' = identity := by
  obtain ⟨middle, more, hmiddle, heq, -⟩ := echoRequest_eq (ε := Unit) identity
  obtain rfl := Outcome.ok.inj (hsent.symm.trans heq)
  have hlen := length_echoHead identity hmiddle
  have hmatches : matchesProbe (t.about (header ++ (echoHead middle identity ++ more).take n)) identity = true := by
    refine (matchesProbe_iff _ _).mpr ⟨t, ⟨header, hcarries, middle, hmiddle, more.take (n - 8)⟩, ?_⟩
    rw [ProbePacket.bytes, List.take_append, hlen, List.take_of_length_le (by omega)]
  exact ⟨fun h => matchesProbe_unique h hmatches, fun h => h ▸ hmatches⟩

/-- A router two hops out quotes the header and eight bytes of the second probe: not those of the fourth. -/
theorem matchesProbe_quoted_router :
    let header : Bytes := [0x45, 0, 0, 37, 0x1f, 0x59, 0, 0, 1, 1, 0, 0, 192, 168, 1, 119, 192, 0, 2, 1]
    let packet : Bytes := [8, 0, 0x6A, 0x4C, 0xBE, 0xEF, 0, 2, 0x69, 0x64, 0x6E, 0x78, 0x2D, 0x70, 0x61, 0x74, 0x68]
    let t : TimeExceeded := ⟨[], .inl rfl, [0, 0xF4, 0xFF, 0, 0, 0, 0], rfl⟩
    matchesProbe (t.about (header ++ packet.take 8)) (probeIdentity 0xBEEF 4) = true ↔
      probeIdentity 0xBEEF 4 = probeIdentity 0xBEEF 2 := by
  intro header packet t
  have hheader : CarriesIcmp header pathProbeDestination :=
    ⟨⟨0x45, header.tail, rfl, by decide, by decide⟩, by decide, by decide, by decide⟩
  exact matchesProbe_quoted t header packet 8 (probeIdentity 0xBEEF 2) (probeIdentity 0xBEEF 4) (by decide) hheader
    (by decide)

/-! ## One hop after the other -/

/-- What the socket of a probe delivers until the deadline: an `AF_INET` socket, so its senders are IPv4. -/
structure ReceivedDatagram where
  sender : Ipv4Addr
  datagram : Bytes

/-- Waits for the router that dropped the echo; `received` is empty where the socket could not be set up. -/
def probeHop (received : List ReceivedDatagram) (identity : ProbeIdentity) : Option IpAddr :=
  (received.find? fun r => matchesProbe (r.datagram.take 1500) identity).map fun r => .v4 r.sender

/-- The loop of `discoverPath`, from the distances that are left and what it has found. -/
def discoverHops (probe : UInt8 → Option IpAddr) : List UInt8 → List PathHop → Option IpAddr → List PathHop
  | [], hops, _ => hops
  | distance :: distances, hops, previous =>
    match probe distance with
    | some address =>
      -- The path has reached a router already seen: further probes only repeat it.
      if hops.any (·.address == address) then hops
      else discoverHops probe distances (hops ++ [⟨distance, address, .v4 pathProbeDestination, previous⟩])
        (some address)
    | none => discoverHops probe distances hops previous

/-- The distances `1..=max_hops`. -/
def distancesTo (max : UInt8) : List UInt8 := (List.range' 1 max.toNat).map UInt8.ofNat

/-- Discovers router interfaces along the default egress path. -/
def discoverPath (identifier : UInt16) (received : UInt8 → List ReceivedDatagram) (max : UInt8) : List PathHop :=
  discoverHops (fun distance => probeHop (received distance) (probeIdentity identifier distance)) (distancesTo max) []
    none

section Discover

variable {probe : UInt8 → Option IpAddr} {distances : List UInt8} {hops : List PathHop}

/-- The distances that were answered, with who answered. -/
def answersAt (probe : UInt8 → Option IpAddr) (distances : List UInt8) : List (UInt8 × IpAddr) :=
  distances.filterMap fun distance => (probe distance).map (distance, ·)

/-- A hop as the pair of its distance and its address. -/
def PathHop.at (h : PathHop) : UInt8 × IpAddr := (h.distance, h.address)

/-- The previous hop of the next one. -/
def lastAddress (hops : List PathHop) : Option IpAddr := hops.getLast?.map (·.address)

/-- A path: no address is on it twice, and every hop names the one before it. -/
structure IsPath (hops : List PathHop) : Prop where
  nodup : (hops.map (·.address)).Nodup
  previous : hops.map (·.previous) ++ [lastAddress hops] = none :: hops.map fun h => some h.address
  toward : ∀ h ∈ hops, h.toward = .v4 pathProbeDestination

theorem lastAddress_concat (hop : PathHop) : lastAddress (hops ++ [hop]) = some hop.address := by
  rw [lastAddress, List.getLast?_concat]
  rfl

theorem IsPath.nil : IsPath [] := ⟨List.nodup_nil, rfl, by simp⟩

theorem IsPath.concat (h : IsPath hops) (distance : UInt8) {address : IpAddr}
    (hnew : address ∉ hops.map (·.address)) :
    IsPath (hops ++ [⟨distance, address, .v4 pathProbeDestination, lastAddress hops⟩]) := by
  refine ⟨?_, ?_, ?_⟩
  · rw [List.map_append, List.map_singleton]
    refine List.nodup_append.mpr ⟨h.nodup, List.pairwise_singleton _ _, ?_⟩
    intro seen hseen appended happended heq
    rw [heq, List.mem_singleton.mp happended] at hseen
    exact hnew hseen
  · rw [List.map_append, List.map_singleton, h.previous, lastAddress_concat, List.map_append, List.map_singleton,
      List.cons_append]
  · intro hop hmem
    rcases List.mem_append.mp hmem with hmem | hmem
    · exact h.toward hop hmem
    · rw [List.mem_singleton.mp hmem]

/-- **What the loop finds**: it goes on along the answers, up to the first router that was there before. -/
theorem discoverHops_spec (probe : UInt8 → Option IpAddr) (distances : List UInt8) (hpath : IsPath hops) :
    ∃ rest, hops.map PathHop.at ++ answersAt probe distances =
        (discoverHops probe distances hops (lastAddress hops)).map PathHop.at ++ rest ∧
      IsPath (discoverHops probe distances hops (lastAddress hops)) ∧
      ∀ next ∈ rest.head?, next.2 ∈ (discoverHops probe distances hops (lastAddress hops)).map (·.address) := by
  induction distances generalizing hops with
  | nil => exact ⟨[], by rw [answersAt, List.filterMap_nil, discoverHops], hpath, by simp⟩
  | cons distance distances ih =>
    rw [discoverHops]
    cases hprobe : probe distance with
    | none =>
      rw [answersAt, List.filterMap_cons_none (by rw [hprobe]; rfl)]
      exact ih hpath
    | some address =>
      rw [answersAt, List.filterMap_cons_some (by rw [hprobe]; rfl)]
      dsimp only
      split_ifs with hseen
      · refine ⟨_, rfl, hpath, ?_⟩
        intro next hnext
        cases hnext
        simpa using hseen
      · have hnew : address ∉ hops.map (·.address) := by simpa using hseen
        obtain ⟨rest, heq, hspec⟩ := ih (hpath.concat distance hnew)
        rw [lastAddress_concat] at heq hspec
        refine ⟨rest, ?_, hspec⟩
        rw [← heq, List.map_append, List.append_assoc]
        rfl

/-- A hop is an answer to the probe at its distance. -/
theorem probe_of_mem_answersAt {answer : UInt8 × IpAddr} (h : answer ∈ answersAt probe distances) :
    answer.1 ∈ distances ∧ probe answer.1 = some answer.2 := by
  obtain ⟨distance, hmem, heq⟩ := List.mem_filterMap.mp h
  obtain ⟨address, haddress, rfl⟩ := Option.map_eq_some_iff.mp heq
  exact ⟨hmem, haddress⟩

theorem toNat_of_mem_distancesTo {max distance : UInt8} (h : distance ∈ distancesTo max) :
    1 ≤ distance.toNat ∧ distance ≤ max := by
  obtain ⟨n, hn, rfl⟩ := List.mem_map.mp h
  have hmax := max.toNat_lt
  rw [List.mem_range'_1] at hn
  rw [UInt8.le_iff_toNat_le, UInt8.toNat_ofNat_of_lt' (by show n < 256; omega)]
  omega

theorem answersAt_sorted (max : UInt8) :
    (answersAt probe (distancesTo max)).Pairwise fun a b => a.1 < b.1 := by
  have hsorted : (distancesTo max).Pairwise (· < ·) := by
    refine List.pairwise_map.mpr ?_
    refine (List.pairwise_lt_range' (s := 1) (n := max.toNat)).imp_of_mem fun {a b} ha hb hlt => ?_
    have hmax := max.toNat_lt
    rw [List.mem_range'_1] at ha hb
    rw [UInt8.lt_iff_toNat_lt, UInt8.toNat_ofNat_of_lt' (by show a < 256; omega),
      UInt8.toNat_ofNat_of_lt' (by show b < 256; omega)]
    exact hlt
  refine List.pairwise_filterMap.mpr (hsorted.imp fun {a b} hlt => ?_)
  rintro x hx y hy
  obtain ⟨address, -, rfl⟩ := Option.map_eq_some_iff.mp hx
  obtain ⟨address', -, rfl⟩ := Option.map_eq_some_iff.mp hy
  exact hlt

end Discover

/-- The answers of a run: per distance, the router whose error came first. -/
def pathAnswers (identifier : UInt16) (received : UInt8 → List ReceivedDatagram) (max : UInt8) :
    List (UInt8 × IpAddr) :=
  answersAt (fun distance => probeHop (received distance) (probeIdentity identifier distance)) (distancesTo max)

/-- A router that answered sent the error about the probe of that distance. -/
theorem answered_of_probeHop {received : List ReceivedDatagram} {identity : ProbeIdentity} {address : IpAddr}
    (h : probeHop received identity = some address) : ∃ r ∈ received, address = .v4 r.sender ∧
      ∃ (t : TimeExceeded) (p : ProbePacket identity), r.datagram.take 1500 = t.about p.bytes := by
  obtain ⟨r, hfind, rfl⟩ := Option.map_eq_some_iff.mp h
  refine ⟨r, List.mem_of_find?_eq_some hfind, rfl, ?_⟩
  have hmatches := List.find?_some hfind
  exact (matchesProbe_iff _ _).mp hmatches

section Run

variable {identifier : UInt16} {received : UInt8 → List ReceivedDatagram} {max : UInt8}

/-- The hops of a run are the answers up to the first router that answers twice. -/
theorem discoverPath_answers (identifier : UInt16) (received : UInt8 → List ReceivedDatagram) (max : UInt8) :
    IsPath (discoverPath identifier received max) ∧
    ∃ rest, pathAnswers identifier received max = (discoverPath identifier received max).map PathHop.at ++ rest ∧
      ∀ next ∈ rest.head?, next.2 ∈ (discoverPath identifier received max).map (·.address) := by
  obtain ⟨rest, hanswers, hpath, hnext⟩ := discoverHops_spec
    (fun distance => probeHop (received distance) (probeIdentity identifier distance)) (distancesTo max) IsPath.nil
  exact ⟨hpath, rest, hanswers, hnext⟩

theorem discoverPath_sorted : (discoverPath identifier received max).Pairwise fun a b => a.distance < b.distance := by
  obtain ⟨-, rest, hanswers, -⟩ := discoverPath_answers identifier received max
  have hsorted : (pathAnswers identifier received max).Pairwise fun a b => a.1 < b.1 := answersAt_sorted max
  rw [hanswers] at hsorted
  have hhops := (List.pairwise_append.mp hsorted).1
  rwa [List.pairwise_map] at hhops

/-- Every hop is backed by an error about the probe sent at its distance. -/
theorem answered_of_mem_discoverPath {h : PathHop} (hmem : h ∈ discoverPath identifier received max) :
    1 ≤ h.distance.toNat ∧ h.distance ≤ max ∧ ∃ r ∈ received h.distance, h.address = .v4 r.sender ∧
      ∃ (t : TimeExceeded) (p : ProbePacket (probeIdentity identifier h.distance)),
        r.datagram.take 1500 = t.about p.bytes := by
  obtain ⟨-, rest, hanswers, -⟩ := discoverPath_answers identifier received max
  have hat : h.at ∈ pathAnswers identifier received max := by
    rw [hanswers]
    exact List.mem_append_left _ (List.mem_map_of_mem hmem)
  obtain ⟨hdistance, hprobe⟩ := probe_of_mem_answersAt hat
  obtain ⟨hpos, hmax⟩ := toNat_of_mem_distancesTo hdistance
  exact ⟨hpos, hmax, answered_of_probeHop hprobe⟩

end Run

/-- **The path of a run**: its hops are the answers, nearest first, up to the first router that answers twice; every
hop names the one before it and is backed by an error about the probe sent at its distance, and no router is on the
path twice. -/
theorem discoverPath_spec (identifier : UInt16) (received : UInt8 → List ReceivedDatagram) (max : UInt8) :
    let hops := discoverPath identifier received max
    (∃ rest, pathAnswers identifier received max = hops.map PathHop.at ++ rest ∧
      ∀ next ∈ rest.head?, next.2 ∈ hops.map (·.address)) ∧
    IsPath hops ∧ (hops.Pairwise fun a b => a.distance < b.distance) ∧
    ∀ h ∈ hops, 1 ≤ h.distance.toNat ∧ h.distance ≤ max ∧ ∃ r ∈ received h.distance, h.address = .v4 r.sender ∧
      ∃ (t : TimeExceeded) (p : ProbePacket (probeIdentity identifier h.distance)),
        r.datagram.take 1500 = t.about p.bytes := by
  obtain ⟨hpath, hanswers⟩ := discoverPath_answers identifier received max
  exact ⟨hanswers, hpath, discoverPath_sorted, fun h hmem => answered_of_mem_discoverPath hmem⟩

end Idnx
