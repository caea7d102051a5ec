import Idnx.Probes.InternetChecksum
import Idnx.Probes.NdpSweep
import Idnx.Probes.RaOptions

/-!
# Neighbour advertisements

An advertisement answers a solicitation if it arrives with hop limit 255, its checksum verifies over the addresses it
was sent between, it is about the address that was solicited, it says that it was solicited, and its options are
intact. The hardware address is that of the last option that states a station's (`parseAdvertisement_eq_ok`).
-/

namespace Idnx

open Outcome

variable {ε : Type}

def Mac.ofBytes (bytes : Bytes) : Option Mac := if h : bytes.length = 6 then some ⟨bytes, h⟩ else none

/-- A group address is not a station's own hardware address. -/
def Mac.isStation (mac : Mac) : Bool := mac.octets.getD 0 0 &&& 0x01 = 0 ∧ mac.octets ≠ List.replicate 6 0

namespace Ndp

def neighborSolicitation : UInt8 := 135
def neighborAdvertisement : UInt8 := 136

def optionSourceLinkLayer : UInt8 := 1
def optionTargetLinkLayer : UInt8 := 2

/-- What was asked, kept so an advertisement can be checked against it. -/
structure NdpQuery where
  senderMac : Mac
  target : Ipv6Addr

/-- The neighbour solicitation, its checksum field left zero: the kernel fills it. -/
def NdpQuery.solicitation (query : NdpQuery) : Bytes :=
  [neighborSolicitation, 0] ++ [0, 0] ++ [0, 0, 0, 0] ++ beBytes 16 query.target.toNat ++
    [optionSourceLinkLayer, 1] ++ query.senderMac.octets

/-- The solicited-node multicast address of a target. -/
def solicitedNodeMulticast (target : Ipv6Addr) : Ipv6Addr :=
  BitVec.ofNat 128 (beNat ([0xFF, 0x02] ++ List.replicate 9 0 ++ [0x01, 0xFF] ++ (beBytes 16 target.toNat).drop 13))

def NdpQuery.describe (query : NdpQuery) : Text :=
  ("ICMPv6 neighbour solicitation for " : Text) ++ (IpAddr.v6 query.target).toText ++ (" to " : Text) ++
    (IpAddr.v6 (solicitedNodeMulticast query.target)).toText

/-- Whether a message is even a candidate answer to one of `solicited`: it reached the selected interface. -/
def isCandidateAdvertisement (message : Bytes) (arrivedOn selectedInterface : UInt32) (solicited : List Ipv6Addr) :
    Outcome ε Bool := do
  if arrivedOn ≠ selectedInterface then return false
  if message.length < 24 then return false
  let type ← index message 0
  let code ← index message 1
  if type ≠ neighborAdvertisement ∨ code ≠ 0 then return false
  let target ← ipv6At message 8
  return target ∈ solicited

/-- The next option of the message; its length counts units of eight bytes. -/
def nextOption (message : Bytes) : Nat × Option Mac → Outcome Unit (Turn (Nat × Option Mac) (Option Mac))
  | (cursor, mac) =>
    if cursor + 2 ≤ message.length then do
      let kind ← index message cursor
      let units ← index message (cursor + 1)
      let units := units.toNat
      -- A zero-length option would loop for ever.
      require (units ≠ 0) ()
      let stop := cursor + units * 8
      require (stop ≤ message.length) ()
      if kind = optionTargetLinkLayer ∧ units = 1 then do
        let raw ← slice message (cursor + 2) (cursor + 8)
        let address ← okOr (Mac.ofBytes raw) ()
        return .next (stop, if address.isStation then some address else mac)
      else return .next (stop, mac)
    else .ok (.done mac)

/-- Validates an advertisement as the answer to `query`. -/
def parseAdvertisement (message : Bytes) (source destination : Ipv6Addr) (hopLimit : UInt8) (query : NdpQuery) :
    Outcome Unit NdpAdvertisement := do
  require (hopLimit = Ra.requiredHopLimit) ()
  require (24 ≤ message.length) ()
  let type ← index message 0
  let code ← index message 1
  require (type = neighborAdvertisement ∧ code = 0) ()
  let checksum ← icmpv6Checksum source destination message
  require (checksum = 0) ()
  let target ← ipv6At message 8
  require (target = query.target) ()
  let flags ← index message 4
  -- The S flag: an unsolicited advertisement is not an answer.
  require (flags &&& 0x40 ≠ 0) ()
  let mac ← loop (nextOption message) (message.length + 1) (24, none)
  return { address := target, sender := source, mac, router := flags &&& 0x80 ≠ 0, raw := message }

/-! ## What is an answer -/

/-- The hardware address an option states for the target. -/
def statedMac (o : Ra.NdOption) : Option Mac :=
  if o.kind = optionTargetLinkLayer ∧ o.units.toNat = 1 then (Mac.ofBytes o.value).filter Mac.isStation else none

/-- A neighbour advertisement as it stands in a message. -/
structure Advert where
  checksum : Bytes
  length_checksum : checksum.length = 2
  flags : UInt8
  reserved : Bytes
  length_reserved : reserved.length = 3
  target : Ipv6Addr
  options : List Ra.NdOption
  /-- Too short for the front of an option. -/
  rest : Bytes
  length_rest : rest.length < 2

namespace Advert

def head (a : Advert) : Bytes :=
  neighborAdvertisement :: 0 :: (a.checksum ++ (a.flags :: a.reserved) ++ beBytes 16 a.target.toNat)

def bytes (a : Advert) : Bytes := a.head ++ (a.options.flatMap Ra.NdOption.bytes ++ a.rest)

/-- The hardware address of the target: the last one stated. -/
def mac (a : Advert) : Option Mac := (a.options.filterMap statedMac).getLast?

/-- What the answer says when it comes from `source`. -/
def found (a : Advert) (source : Ipv6Addr) : NdpAdvertisement :=
  { address := a.target, sender := source, mac := a.mac, router := a.flags &&& 0x80 ≠ 0, raw := a.bytes }

theorem length_head (a : Advert) : a.head.length = 24 := by
  simp only [head, List.length_cons, List.length_append, a.length_checksum, a.length_reserved, length_beBytes]

end Advert

section Options

variable {message : Bytes} {k : Nat} {mac : Option Mac}

theorem ofBytes_of_length {bytes : Bytes} (h : bytes.length = 6) : Mac.ofBytes bytes = some ⟨bytes, h⟩ := dif_pos h

/-- A turn at an option keeps the address it states, or the one before. -/
theorem nextOption_of_holds {o : Ra.NdOption} (h : Holds message k o.bytes) (mac : Option Mac) :
    nextOption message (k, mac) = .ok (.next (k + o.bytes.length, statedMac o <|> mac)) := by
  have hlen := h.length_le
  have hpos := o.units_pos
  have hright : Holds message (k + 1) (o.units :: o.value) := Holds.right (x := [o.kind]) h
  have hvalue : Holds message (k + 2) o.value := Holds.right (x := [o.units]) hright
  rw [o.length_bytes] at hlen ⊢
  rw [nextOption, if_pos (by omega), h.index, ok_bind, hright.index, ok_bind]
  dsimp only
  rw [require_of (by omega), ok_bind, require_of hlen, ok_bind]
  by_cases hstates : o.kind = optionTargetLinkLayer ∧ o.units.toNat = 1
  · have hsize : o.value.length = 6 := by
      have hsize := o.length_value
      omega
    have hslice : (slice message (k + 2) (k + 8) : Outcome Unit _) = .ok o.value := by
      have hslice := hvalue.slice (ε := Unit)
      rwa [hsize] at hslice
    rw [if_pos hstates, statedMac, if_pos hstates, hslice, ok_bind, ofBytes_of_length hsize, okOr_some, ok_bind,
      Option.filter_some]
    cases Mac.isStation ⟨o.value, hsize⟩ <;> rfl
  · rw [if_neg hstates, statedMac, if_neg hstates]
    rfl

/-- What is long enough for the front of an option and does not begin with one is refused. -/
theorem refused_of_rest {rest : Bytes} (hrest : ∀ (o : Ra.NdOption) more, rest ≠ o.bytes ++ more)
    (h : 2 ≤ rest.length) : Ra.Refused rest := by
  refine ⟨h, ?_⟩
  by_contra hintact
  obtain ⟨hne, hfits⟩ := not_or.mp hintact
  rcases rest with _ | ⟨kind, _ | ⟨units, more⟩⟩
  · exact absurd h (by decide)
  · exact absurd h (by simp)
  · rw [List.getD_cons_succ, List.getD_cons_zero] at hne hfits
    have hpos : units.toNat ≠ 0 := fun hzero => hne (UInt8.toNat_inj.mp hzero)
    rw [List.length_cons, List.length_cons] at hfits
    have hvalue : (more.take (units.toNat * 8 - 2)).length + 2 = units.toNat * 8 := by
      rw [List.length_take]
      omega
    refine hrest ⟨kind, units, more.take (units.toNat * 8 - 2), hne, hvalue⟩ (more.drop (units.toNat * 8 - 2)) ?_
    rw [Ra.NdOption.bytes, List.cons_append, List.cons_append, List.take_append_drop]

/-- Where no option starts, the message ends or is refused. -/
theorem nextOption_of_rest {rest : Bytes} (hk : k ≤ message.length) (h : message.drop k = rest)
    (hrest : ∀ (o : Ra.NdOption) more, rest ≠ o.bytes ++ more) (mac : Option Mac) :
    (rest.length < 2 ∧ nextOption message (k, mac) = .ok (.done mac)) ∨
      (2 ≤ rest.length ∧ nextOption message (k, mac) = .err ()) := by
  have hlen : rest.length = message.length - k := by rw [← h, List.length_drop]
  rw [nextOption]
  by_cases hshort : rest.length < 2
  · rw [if_neg (by omega)]
    exact .inl ⟨hshort, rfl⟩
  obtain ⟨hlong, hrefused⟩ := refused_of_rest hrest (Nat.le_of_not_lt hshort)
  have hplace : ∀ i, rest.getD i 0 = message.getD (k + i) 0 := by
    intro i
    rw [← h, List.getD_eq_getElem?_getD, List.getD_eq_getElem?_getD, List.getElem?_drop]
  rw [if_pos (by omega), index_eq (by omega), ok_bind, index_eq (by omega), ok_bind, ← hplace 1]
  refine .inr ⟨hlong, ?_⟩
  dsimp only
  rcases hrefused with hzero | hcut
  · rw [hzero, require, if_neg (by decide)]
    rfl
  · by_cases hunits : (rest.getD 1 0).toNat ≠ 0
    · rw [require_of hunits, ok_bind, require, if_neg (by omega)]
      rfl
    · rw [require, if_neg hunits]
      rfl

/-- **The loop over the options ends**, whatever the message holds: with the last address stated, if they are intact. -/
theorem loop_options {start : Nat} (hstart : start ≤ message.length) {options : List Ra.NdOption} {rest : Bytes}
    (h : message.drop start = options.flatMap Ra.NdOption.bytes ++ rest)
    (hrest : ∀ (o : Ra.NdOption) more, rest ≠ o.bytes ++ more) :
    (rest.length < 2 ∧ loop (nextOption message) (message.length + 1) (start, none) =
        .ok (options.filterMap statedMac).getLast?) ∨
      (2 ≤ rest.length ∧ loop (nextOption message) (message.length + 1) (start, none) = .err ()) := by
  obtain ⟨fuel, k, hloop, hk, hdrop⟩ :=
    loop_records_rest Ra.NdOption.bytes_pos (fun k o mac ho => nextOption_of_holds ho mac) hstart h none
  have hlast : options.foldl (fun mac o => statedMac o <|> mac) none = (options.filterMap statedMac).getLast? := by
    have hlast := foldl_getLast (g := fun mac o => statedMac o <|> mac) (p := id) (v := statedMac) (f := id)
      (fun mac o => by rw [Option.map_id]; rfl) options none
    simpa using hlast
  rw [hloop, loop, hlast]
  rcases nextOption_of_rest hk hdrop hrest (options.filterMap statedMac).getLast? with ⟨hshort, hturn⟩ | ⟨hlong, hturn⟩
  · exact .inl ⟨hshort, by rw [hturn]; rfl⟩
  · exact .inr ⟨hlong, by rw [hturn]; rfl⟩

end Options

/-! ## The advertisement -/

section Parse

variable {message : Bytes} {source destination : Ipv6Addr} {hopLimit : UInt8} {query : NdpQuery}
  {found : NdpAdvertisement}

/-- What arrived answers a solicitation for `target`, and says `found`. -/
def IsAnswer (message : Bytes) (source destination : Ipv6Addr) (hopLimit : UInt8) (target : Ipv6Addr)
    (found : NdpAdvertisement) : Prop :=
  hopLimit = 255 ∧ (icmpv6Checksum source destination message : Outcome Unit _) = .ok 0 ∧
    ∃ a : Advert, message = a.bytes ∧ a.target = target ∧ a.flags &&& 0x40 ≠ 0 ∧ found = a.found source

/-- The fields of an advertisement stand at their places. -/
theorem Advert.fields (a : Advert) : a.bytes.getD 0 0 = neighborAdvertisement ∧ a.bytes.getD 1 0 = 0 ∧
    a.bytes.getD 4 0 = a.flags ∧ (ipv6At a.bytes 8 : Outcome Unit _) = .ok a.target := by
  have hhead : Holds a.bytes 0 a.head := ⟨[], _, rfl, rfl⟩
  have hfront : Holds a.bytes 2 (a.checksum ++ (a.flags :: a.reserved) ++ beBytes 16 a.target.toNat) :=
    Holds.right (x := [neighborAdvertisement, 0]) hhead
  have hflags : Holds a.bytes 4 (a.flags :: a.reserved) := by
    have hflags := hfront.left.right
    rwa [a.length_checksum] at hflags
  have htarget : Holds a.bytes 8 (beBytes 16 a.target.toNat) := by
    have htarget := hfront.right
    rwa [List.length_append, a.length_checksum, List.length_cons, a.length_reserved] at htarget
  refine ⟨rfl, rfl, ?_, ?_⟩
  · rw [List.getD_eq_getElem?_getD, hflags.getElem?]
    rfl
  · rw [ipv6At_of_holds htarget (length_beBytes _ _), beNat_beBytes a.target.isLt, BitVec.ofNat_toNat,
      BitVec.setWidth_eq]

/-- A message with these fields and intact options is an advertisement. -/
theorem exists_advert {target : Ipv6Addr} {options : List Ra.NdOption} {rest : Bytes} (hlen : 24 ≤ message.length)
    (htype : message.getD 0 0 = neighborAdvertisement) (hcode : message.getD 1 0 = 0)
    (htarget : (ipv6At message 8 : Outcome Unit _) = .ok target)
    (hbody : message.drop 24 = options.flatMap Ra.NdOption.bytes ++ rest) (hrest : rest.length < 2) :
    ∃ a : Advert, a.bytes = message ∧ a.flags = message.getD 4 0 ∧ a.target = target ∧ a.options = options := by
  have hpiece : ∀ i n, i + n ≤ message.length → ((message.drop i).take n).length = n := by
    intro i n h
    rw [List.length_take, List.length_drop]
    omega
  have hbyte : ∀ i, i < message.length → message.drop i = message.getD i 0 :: message.drop (i + 1) := by
    intro i h
    rw [List.getD_eq_getElem _ _ h, ← List.drop_eq_getElem_cons h]
  refine ⟨⟨(message.drop 2).take 2, hpiece 2 2 (by omega), message.getD 4 0, (message.drop 5).take 3,
    hpiece 5 3 (by omega), target, options, rest, hrest⟩, ?_, rfl, rfl, rfl⟩
  have height : beBytes 16 target.toNat = (message.drop 8).take 16 := by
    rw [ipv6At_eq (by omega)] at htarget
    obtain rfl := Outcome.ok.inj htarget
    exact beBytes_ofNat (by decide) (hpiece 8 16 (by omega))
  simp only [Advert.bytes, Advert.head, height, ← hbody, List.cons_append, List.append_assoc]
  have hone := hbyte 1 (by omega)
  have hzero := hbyte 0 (by omega)
  rw [hcode] at hone
  rw [htype, List.drop_zero] at hzero
  rw [← drop_cut message 8, ← drop_cut message 5, ← hbyte 4 (by omega), ← drop_cut message 2, ← hone, ← hzero]

/-- **What is accepted as the answer to a query.** -/
theorem parseAdvertisement_eq_ok : parseAdvertisement message source destination hopLimit query = .ok found ↔
    IsAnswer message source destination hopLimit query.target found := by
  constructor
  · intro h
    unfold parseAdvertisement at h
    obtain ⟨_, hhop, h⟩ := bind_eq_ok.mp h
    obtain ⟨_, hlen, h⟩ := bind_eq_ok.mp h
    have hlen := require_eq_ok.mp hlen
    rw [index_eq (by omega), ok_bind, index_eq (by omega), ok_bind] at h
    obtain ⟨_, hkind, h⟩ := bind_eq_ok.mp h
    obtain ⟨htype, hcode⟩ := require_eq_ok.mp hkind
    obtain ⟨checksum, hchecksum, h⟩ := bind_eq_ok.mp h
    obtain ⟨_, hzero, h⟩ := bind_eq_ok.mp h
    obtain ⟨target, htarget, h⟩ := bind_eq_ok.mp h
    obtain ⟨_, hsame, h⟩ := bind_eq_ok.mp h
    rw [index_eq (by omega), ok_bind] at h
    obtain ⟨_, hsolicited, h⟩ := bind_eq_ok.mp h
    obtain ⟨options, rest, hbody, hrest⟩ := exists_records Ra.NdOption.bytes_pos (message.drop 24)
    rcases loop_options hlen hbody hrest with ⟨hshort, hloop⟩ | ⟨-, hloop⟩
    · rw [hloop] at h
      obtain rfl := Outcome.ok.inj h
      obtain ⟨a, hbytes, hflags, htarget', hoptions⟩ := exists_advert hlen htype hcode htarget hbody hshort
      refine ⟨require_eq_ok.mp hhop, require_eq_ok.mp hzero ▸ hchecksum, a, hbytes.symm,
        htarget'.trans (require_eq_ok.mp hsame), hflags ▸ require_eq_ok.mp hsolicited, ?_⟩
      rw [Advert.found, Advert.mac, hbytes, hflags, htarget', hoptions]
    · rw [hloop] at h
      cases h
  · rintro ⟨rfl, hchecksum, a, rfl, htarget, hsolicited, rfl⟩
    obtain ⟨htype, hcode, hflags, haddress⟩ := a.fields
    have hlen : 24 ≤ a.bytes.length := by
      rw [Advert.bytes, List.length_append, a.length_head]
      exact Nat.le_add_right _ _
    have hbody : a.bytes.drop 24 = a.options.flatMap Ra.NdOption.bytes ++ a.rest := by
      rw [Advert.bytes, ← a.length_head, List.drop_left]
    have hrest : ∀ (o : Ra.NdOption) more, a.rest ≠ o.bytes ++ more := by
      intro o more heq
      have hshort := a.length_rest
      have hpos := o.units_pos
      rw [heq, List.length_append, o.length_bytes] at hshort
      omega
    have hloop := (loop_options hlen hbody hrest).resolve_right fun hlong =>
      absurd a.length_rest (Nat.not_lt.mpr hlong.1)
    unfold parseAdvertisement
    rw [require_of (show (255 : UInt8) = Ra.requiredHopLimit from rfl), ok_bind, require_of hlen, ok_bind,
      index_eq (by omega), ok_bind, index_eq (by omega), ok_bind, require_of ⟨htype, hcode⟩, ok_bind, hchecksum, ok_bind,
      require_of rfl, ok_bind, haddress, ok_bind, require_of htarget, ok_bind, index_eq (by omega), ok_bind, hflags,
      require_of hsolicited, ok_bind, hloop.2]
    rfl

end Parse

end Ndp

end Idnx
