import Idnx.Probes.Octets

/-!
# IS-IS PDUs

A hello names an intermediate system, its level and its areas; a link-state PDU carries reachability in several kinds
of TLV. A TLV that claims more bytes than arrived refuses the PDU. Of an authentication TLV only the type is read, to
tell whether the PDU can be verified.
-/

namespace Idnx

open Outcome

variable {ε : Type}

namespace Isis

/-- One prefix a reachability TLV carried. -/
structure ReachablePrefix where
  net : IpNet
  metric : UInt32
  tlv : Text
  topology : Option UInt16
  rawEntry : Bytes
  deriving DecidableEq, Repr

/-- What one IS-IS PDU disclosed. -/
structure IsisPdu where
  level : Text
  systemId : Text
  areas : List Text
  hello : Bool
  sequence : Option UInt32
  unverifiableAuthentication : Bool
  prefixes : List ReachablePrefix
  deriving DecidableEq, Repr

/-! ## Reachability -/

/-- RFC 1195 reachability: four metric bytes, then an address and a mask. -/
def readLegacyIpReach (value : Bytes) (tlv : Text) : Outcome ε (List ReachablePrefix) :=
  filterMapM (fun entry => do
    let address ← ipv4At entry 4
    let mask ← ipv4At entry 8
    let metric ← index entry 0
    -- The default metric, with its supported bit masked off.
    return (maskedNet address mask).map fun net =>
      { net, metric := (metric &&& 0x3f).toUInt32, tlv, topology := none, rawEntry := entry }) (asChunks 12 value)

/-- Where an entry ends whose prefix ends at `subAt`: sub-TLVs follow behind their length byte. -/
def entryEnd (value : Bytes) (hasSubTlvs : Bool) (subAt : Nat) : Option Nat := do
  let subLength ← if hasSubTlvs then (value[subAt]?).map fun length => 1 + length.toNat else some 0
  let stop := subAt + subLength
  if stop ≤ value.length then some stop else none

/-- One entry of RFC 5305 extended reachability: a wide metric, a control byte, the significant bytes of
the prefix. -/
def nextExtendedIpReach (value : Bytes) (topology : Option UInt16) (tlv : Text) :
    Nat × List ReachablePrefix → Outcome ε (Turn (Nat × List ReachablePrefix) (List ReachablePrefix))
  | (cursor, out) =>
    if cursor + 5 ≤ value.length then do
      let metric ← u32At value cursor
      let control ← index value (cursor + 4)
      let prefixLen := (control &&& 0x3f).toNat
      if 32 < prefixLen then return .done out
      let significant := significantOctets prefixLen
      match entryEnd value (control &&& 0x40 ≠ 0) (cursor + 5 + significant) with
      | none => return .done out
      | some stop =>
        let octets ← slice value (cursor + 5) (cursor + 5 + significant)
        let address ← ipv4OfSignificant octets
        let rawEntry ← slice value cursor stop
        let read := (Ipv4Net.new address prefixLen).map fun net =>
          { net := net.trunc.toNet, metric, tlv, topology, rawEntry }
        return .next (stop, out ++ read.toList)
    else .ok (.done out)

def readExtendedIpReach (value : Bytes) (topology : Option UInt16) (tlv : Text) : Outcome ε (List ReachablePrefix) :=
  loop (nextExtendedIpReach value topology tlv) (value.length + 1) (0, [])

/-- One entry of RFC 5308 reachability: a metric, control bits, a prefix length, the significant bytes of
the prefix. -/
def nextIpv6Reach (value : Bytes) (topology : Option UInt16) (tlv : Text) :
    Nat × List ReachablePrefix → Outcome ε (Turn (Nat × List ReachablePrefix) (List ReachablePrefix))
  | (cursor, out) =>
    if cursor + 6 ≤ value.length then do
      let metric ← u32At value cursor
      let control ← index value (cursor + 4)
      let prefixLen ← index value (cursor + 5)
      let prefixLen := prefixLen.toNat
      if 128 < prefixLen then return .done out
      let significant := significantOctets prefixLen
      match entryEnd value (control &&& 0x20 ≠ 0) (cursor + 6 + significant) with
      | none => return .done out
      | some stop =>
        let octets ← slice value (cursor + 6) (cursor + 6 + significant)
        let address ← ipv6OfSignificant octets
        let rawEntry ← slice value cursor stop
        let read := (Ipv6Net.new address prefixLen).map fun net =>
          { net := net.trunc.toNet, metric, tlv, topology, rawEntry }
        return .next (stop, out ++ read.toList)
    else .ok (.done out)

def readIpv6Reach (value : Bytes) (topology : Option UInt16) (tlv : Text) : Outcome ε (List ReachablePrefix) :=
  loop (nextIpv6Reach value topology tlv) (value.length + 1) (0, [])

/-! ## PDUs -/

/-- What the type of a PDU says about it, and where its system id and its TLVs start. -/
structure Header where
  level : Text
  hello : Bool
  idAt : Nat
  tlvAt : Nat
  sequence : Option UInt32

/-- The types are the hellos of the two levels and of point-to-point links, and the link-state PDUs of the levels. -/
def header (pdu : Bytes) (pduType : UInt8) : Outcome Unit Header :=
  match pduType.toNat with
  | 15 | 16 => do
    require (27 ≤ pdu.length) ()
    return { level := if pduType = 15 then "L1" else "L2", hello := true, idAt := 9, tlvAt := 27, sequence := none }
  | 17 => do
    require (20 ≤ pdu.length) ()
    return { level := "point-to-point", hello := true, idAt := 9, tlvAt := 20, sequence := none }
  | 18 | 20 => do
    require (27 ≤ pdu.length) ()
    let sequence ← u32At pdu 20
    return { level := if pduType = 18 then "L1" else "L2", hello := false, idAt := 12, tlvAt := 27,
             sequence := some sequence }
  | _ => .err ()

/-- The next area address, behind its length. -/
def nextArea (value : Bytes) : Nat × List Text → Outcome ε (Turn (Nat × List Text) (List Text))
  | (start, areas) =>
    if start < value.length then do
      let areaLength ← index value start
      let stop := start + 1 + areaLength.toNat
      if value.length < stop then return .done areas
      let area ← slice value (start + 1) stop
      return .next (stop, areas ++ [encodeHex area])
    else .ok (.done areas)

/-- A multi-topology TLV starts with a topology identifier of twelve bits. -/
def multiTopology (value : Bytes) : Outcome ε (UInt16 × Bytes) := do
  let topology ← u16At value 0
  let entries ← sliceFrom value 2
  return (topology &&& 0x0fff, entries)

/-- What one TLV adds to what the PDU disclosed so far. -/
def IsisPdu.read (decoded : IsisPdu) (code : UInt8) (value : Bytes) : Outcome ε IsisPdu :=
  match code.toNat with
  | 10 =>
    -- Type 1 is a cleartext password; anything else is a digest that cannot be checked.
    match value.head? with
    | some kind => .ok (if kind ≠ 1 then { decoded with unverifiableAuthentication := true } else decoded)
    | none => .ok decoded
  | 1 => do
    let areas ← loop (nextArea value) (value.length + 1) (0, decoded.areas)
    return { decoded with areas }
  | 128 => do
    let read ← readLegacyIpReach value "IP internal reachability"
    return { decoded with prefixes := decoded.prefixes ++ read }
  | 130 => do
    let read ← readLegacyIpReach value "IP external reachability"
    return { decoded with prefixes := decoded.prefixes ++ read }
  | 135 => do
    let read ← readExtendedIpReach value none "extended IP reachability"
    return { decoded with prefixes := decoded.prefixes ++ read }
  | 222 =>
    if 2 ≤ value.length then do
      let (topology, entries) ← multiTopology value
      let read ← readExtendedIpReach entries (some topology) "multi-topology reachability"
      return { decoded with prefixes := decoded.prefixes ++ read }
    else .ok decoded
  | 236 => do
    let read ← readIpv6Reach value none "IPv6 reachability"
    return { decoded with prefixes := decoded.prefixes ++ read }
  | 237 =>
    if 2 ≤ value.length then do
      let (topology, entries) ← multiTopology value
      let read ← readIpv6Reach entries (some topology) "multi-topology IPv6 reachability"
      return { decoded with prefixes := decoded.prefixes ++ read }
    else .ok decoded
  | _ => .ok decoded

/-- The next TLV of the PDU. -/
def nextTlv (pdu : Bytes) : Nat × IsisPdu → Outcome Unit (Turn (Nat × IsisPdu) IsisPdu)
  | (cursor, decoded) =>
    if cursor + 2 ≤ pdu.length then do
      let code ← index pdu cursor
      let length ← index pdu (cursor + 1)
      let stop := cursor + 2 + length.toNat
      require (stop ≤ pdu.length) ()
      let value ← slice pdu (cursor + 2) stop
      let decoded ← decoded.read code value
      return .next (stop, decoded)
    else .ok (.done decoded)

/-- Decodes an IS-IS PDU carried in an 802.2 LLC frame. -/
def parse (pdu : Bytes) : Outcome Unit IsisPdu := do
  require (8 ≤ pdu.length) ()
  let discriminator ← index pdu 0
  require (discriminator = 0x83) ()
  let headerLength ← index pdu 1
  require (8 ≤ headerLength.toNat ∧ headerLength.toNat ≤ pdu.length) ()
  let pduType ← index pdu 4
  let h ← header pdu (pduType &&& 0x1f)
  require (h.idAt + 6 ≤ pdu.length) ()
  let id ← slice pdu h.idAt (h.idAt + 6)
  let systemId := List.intercalate ['.'] ((asChunks 2 id).map encodeHex)
  loop (nextTlv pdu) (pdu.length + 1)
    (h.tlvAt, { level := h.level, systemId, areas := [], hello := h.hello, sequence := h.sequence,
                unverifiableAuthentication := false, prefixes := [] })

end Isis

end Idnx
