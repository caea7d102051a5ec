import Idnx.Probes.Octets

/-!
# OSPF packets

OSPFv2 and OSPFv3 as heard on the link. A hello names neighbours; a link-state update carries advertisements, each
with its own length, and of them the prefixes. The authentication field of an OSPFv2 packet is zeroed before anything
of it is kept, and the checksum is taken over that form.
-/

namespace Idnx

open Outcome

variable {ε : Type}

namespace Ospf

/-- How a packet was authenticated. -/
inductive Authentication where
  | none
  | simple
  | cryptographic
  | unknown (value : UInt16)
  deriving DecidableEq, Repr

def Authentication.fromType (value : UInt16) : Authentication :=
  match value.toNat with
  | 0 => .none
  | 1 => .simple
  | 2 => .cryptographic
  | _ => .unknown value

/-- Whether routes from the packet may be promoted to current topology. -/
def Authentication.routesAreVerifiable : Authentication → Bool
  | .none | .simple => true
  | .cryptographic | .unknown _ => false

def Authentication.label : Authentication → Text
  | .none => "none"
  | .simple => "simple password"
  | .cryptographic => "cryptographic digest"
  | .unknown value => ("unknown type " : Text) ++ Text.ofNat value.toNat

/-- One prefix an advertisement carried. -/
structure AdvertisedPrefix where
  net : IpNet
  metric : UInt32
  lsaType : Text
  withdrawn : Bool
  deriving DecidableEq, Repr

/-- What one OSPF packet disclosed. -/
structure OspfPacket where
  protocol : Text
  routerId : Ipv4Addr
  area : Ipv4Addr
  authentication : Authentication
  hello : Bool
  neighbours : List Ipv4Addr
  prefixes : List AdvertisedPrefix
  sequences : List UInt32
  raw : Bytes
  deriving DecidableEq, Repr

/-- One decoded LSA and how far it extended. -/
structure DecodedLsa where
  length : Nat
  sequence : UInt32
  prefixes : List AdvertisedPrefix

/-- An LSA at this age is being withdrawn from the flooding domain. -/
def maxAge : UInt16 := 3600

/-! ## Link-state updates -/

/-- The next advertisement of an update: how many are left, where it starts, and what the others said. -/
def nextLsa (readLsa : Bytes → Outcome Unit DecodedLsa) (body : Bytes) :
    Nat × Nat × List UInt32 × List AdvertisedPrefix →
      Outcome ε (Turn (Nat × Nat × List UInt32 × List AdvertisedPrefix) (List UInt32 × List AdvertisedPrefix))
  | (0, _, sequences, prefixes) => .ok (.done (sequences, prefixes))
  | (left + 1, cursor, sequences, prefixes) => do
    let rest ← sliceFrom body cursor
    match ← (readLsa rest).toOption with
    | none => return .done (sequences, prefixes)
    | some lsa =>
      let sequences := sequences ++ [lsa.sequence]
      let prefixes := prefixes ++ lsa.prefixes
      let cursor := cursor + lsa.length
      if body.length ≤ cursor then return .done (sequences, prefixes)
      return .next (left, cursor, sequences, prefixes)

/-- At most 256 advertisements are read, whatever count the update states. -/
def linkStateUpdate (readLsa : Bytes → Outcome Unit DecodedLsa) (body : Bytes) :
    Outcome Unit (List UInt32 × List AdvertisedPrefix) := do
  require (4 ≤ body.length) ()
  let count ← u32At body 0
  let count := min count.toNat 256
  loop (nextLsa readLsa body) (count + 1) (count, 4, [], [])

/-- The neighbours a hello lists, which are router-ids. -/
def helloNeighbours (body : Bytes) : Outcome ε (List Ipv4Addr) := do
  let listed ← sliceFrom body 20
  filterMapM (fun chunk => some <$> ipv4At chunk 0) (asChunks 4 listed)

/-- The packet with the contents its type byte announces. -/
def withContents (decoded : OspfPacket) (kind : UInt8) (readLsa : Bytes → Outcome Unit DecodedLsa) (body : Bytes) :
    Outcome Unit OspfPacket :=
  if kind = 1 ∧ 20 ≤ body.length then do
    let neighbours ← helloNeighbours body
    return { decoded with neighbours }
  else if kind = 4 then do
    let (sequences, prefixes) ← linkStateUpdate readLsa body
    return { decoded with sequences, prefixes }
  else .ok decoded

/-! ## OSPFv2 -/

def v2LsaName (kind : UInt8) : Text :=
  match kind.toNat with
  | 1 => "router"
  | 2 => "network"
  | 3 => "summary (network)"
  | 4 => "summary (ASBR)"
  | 5 => "AS external"
  | 7 => "NSSA external"
  | _ => "unknown"

/-- The next link of a router LSA: twelve bytes, and four for each additional metric. Type 3 is a stub network. -/
def nextLink (contents : Bytes) (withdrawn : Bool) :
    Nat × Nat × List AdvertisedPrefix → Outcome ε (Turn (Nat × Nat × List AdvertisedPrefix) (List AdvertisedPrefix))
  | (0, _, prefixes) => .ok (.done prefixes)
  | (left + 1, cursor, prefixes) =>
    if contents.length < cursor + 12 then .ok (.done prefixes)
    else do
      let link ← slice contents cursor (cursor + 12)
      let type ← index link 8
      let network ← ipv4At link 0
      let mask ← ipv4At link 4
      let metric ← u16At link 10
      let stub := if type = 3 then maskedNet network mask else none
      let more ← index link 9
      return .next (left, cursor + (12 + 4 * more.toNat),
        prefixes ++ stub.toList.map fun net =>
          { net, metric := metric.toUInt32, lsaType := "router (stub link)", withdrawn })

/-- The prefixes of an OSPFv2 LSA of the given kind. -/
def v2Prefixes (kind : UInt8) (linkStateId : Ipv4Addr) (withdrawn : Bool) (contents : Bytes) :
    Outcome ε (List AdvertisedPrefix) :=
  match kind.toNat with
  | 3 | 4 | 5 | 7 =>
    if 8 ≤ contents.length then do
      let mask ← ipv4At contents 0
      let metric ← u24At contents 5
      return (maskedNet linkStateId mask).toList.map fun net => { net, metric, lsaType := v2LsaName kind, withdrawn }
    else .ok []
  | 1 =>
    if 4 ≤ contents.length then do
      let links ← u16At contents 2
      let links := min links.toNat 128
      loop (nextLink contents withdrawn) (links + 1) (links, 4, [])
    else .ok []
  | 2 =>
    if 4 ≤ contents.length then do
      let mask ← ipv4At contents 0
      return (maskedNet linkStateId mask).toList.map fun net => { net, metric := 0, lsaType := "network", withdrawn }
    else .ok []
  | _ => .ok []

/-- Reads one OSPFv2 LSA from the head of `body`. -/
def readV2Lsa (body : Bytes) : Outcome Unit DecodedLsa := do
  require (20 ≤ body.length) ()
  let age ← u16At body 0
  let kind ← index body 3
  let linkStateId ← ipv4At body 4
  let sequence ← u32At body 12
  let length ← u16At body 18
  let length := length.toNat
  require (20 ≤ length ∧ length ≤ body.length) ()
  let contents ← slice body 20 length
  let prefixes ← v2Prefixes kind linkStateId (maxAge ≤ age) contents
  return { length, sequence, prefixes }

/-- Decodes an OSPFv2 packet (IP protocol 89). -/
def parseV2 (payload : Bytes) : Outcome Unit OspfPacket := do
  require (24 ≤ payload.length) ()
  let version ← index payload 0
  require (version = 2) ()
  let length ← u16At payload 2
  let length := length.toNat
  require (24 ≤ length ∧ length ≤ payload.length) ()
  let packet ← slice payload 0 length
  let packet ← copyInto packet 16 24 (List.replicate 8 0)
  let checksum ← internetChecksum packet
  require (checksum = 0) ()
  let routerId ← ipv4At payload 4
  let area ← ipv4At payload 8
  let auType ← u16At payload 14
  let kind ← index payload 1
  let body ← sliceFrom packet 24
  withContents
    { protocol := "OSPFv2", routerId, area, authentication := .fromType auType, hello := kind = 1, neighbours := [],
      prefixes := [], sequences := [], raw := packet } kind readV2Lsa body

/-! ## OSPFv3 -/

def v3LsaName (kind : UInt16) : Text :=
  match kind.toNat with
  | 0x2009 => "intra-area prefix"
  | 0x2003 => "inter-area prefix"
  | 0x4005 => "AS external"
  | 0x2007 => "NSSA external"
  | _ => "unknown"

/-- Reads one OSPFv3 prefix: length, options, a metric or reserved field, then only the significant bytes of the
address, padded to four. With it, its metric and how many bytes it used. -/
def readV3Prefix (bytes : Bytes) (carriesMetric : Bool) : Outcome Unit (IpNet × UInt32 × Nat) := do
  require (4 ≤ bytes.length) ()
  let prefixLen ← index bytes 0
  let prefixLen := prefixLen.toNat
  require (prefixLen ≤ 128) ()
  let significant := significantOctets prefixLen
  let padded := (significant + 3) / 4 * 4
  require (4 + padded ≤ bytes.length) ()
  let metric ← u16At bytes 2
  let octets ← slice bytes 4 (4 + significant)
  let address ← ipv6OfSignificant octets
  let net ← okOr (Ipv6Net.new address prefixLen) ()
  return (net.trunc.toNet, if carriesMetric then metric.toUInt32 else 0, 4 + padded)

/-- The next prefix of an intra-area prefix LSA. -/
def nextV3Prefix (contents : Bytes) (name : Text) (withdrawn : Bool) :
    Nat × Nat × List AdvertisedPrefix → Outcome ε (Turn (Nat × Nat × List AdvertisedPrefix) (List AdvertisedPrefix))
  | (0, _, prefixes) => .ok (.done prefixes)
  | (left + 1, cursor, prefixes) => do
    let rest ← sliceFrom contents cursor
    match ← (readV3Prefix rest true).toOption with
    | none => return .done prefixes
    | some (net, metric, used) =>
      return .next (left, cursor + used, prefixes ++ [{ net, metric, lsaType := name, withdrawn }])

def v3Prefixes (kind : UInt16) (withdrawn : Bool) (contents : Bytes) : Outcome ε (List AdvertisedPrefix) :=
  match kind.toNat with
  | 0x2009 =>
    if 12 ≤ contents.length then do
      let count ← u16At contents 0
      let count := min count.toNat 128
      loop (nextV3Prefix contents (v3LsaName kind) withdrawn) (count + 1) (count, 12, [])
    else .ok []
  | 0x2003 | 0x4005 | 0x2007 =>
    if 8 ≤ contents.length then do
      let metric ← u24At contents 1
      let rest ← sliceFrom contents 4
      let read ← (readV3Prefix rest false).toOption
      return read.toList.map fun r => { net := r.1, metric, lsaType := v3LsaName kind, withdrawn }
    else .ok []
  | _ => .ok []

/-- Reads one OSPFv3 LSA from the head of `body`. -/
def readV3Lsa (body : Bytes) : Outcome Unit DecodedLsa := do
  require (20 ≤ body.length) ()
  let age ← u16At body 0
  let kind ← u16At body 2
  let sequence ← u32At body 12
  let length ← u16At body 18
  let length := length.toNat
  require (20 ≤ length ∧ length ≤ body.length) ()
  let contents ← slice body 20 length
  let prefixes ← v3Prefixes kind (maxAge ≤ age) contents
  return { length, sequence, prefixes }

/-- Decodes an OSPFv3 packet. It has no authentication field of its own. -/
def parseV3 (payload : Bytes) : Outcome Unit OspfPacket := do
  require (16 ≤ payload.length) ()
  let version ← index payload 0
  require (version = 3) ()
  let length ← u16At payload 2
  let length := length.toNat
  require (16 ≤ length ∧ length ≤ payload.length) ()
  let routerId ← ipv4At payload 4
  let area ← ipv4At payload 8
  let kind ← index payload 1
  let body ← slice payload 16 length
  let raw ← slice payload 0 length
  withContents
    { protocol := "OSPFv3", routerId, area, authentication := .none, hello := kind = 1, neighbours := [], prefixes := [],
      sequences := [], raw } kind readV3Lsa body

end Ospf

end Idnx
