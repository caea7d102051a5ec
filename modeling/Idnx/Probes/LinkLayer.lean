import Idnx.Lib.Utf8
import Idnx.Probes.Octets

/-!
# Announcements of neighbours

The decoders of LLDP, CDP and MNDP: each walks the type-length-value records of an announcement and keeps what it
knows. `parseLldpFrame` takes whole Ethernet frames and skips the fourteen bytes of an untagged header itself;
`parseCdpFrame` looks for its SNAP header at that place, and reads the frame from its first byte if it is not there.
-/

namespace Idnx

open Outcome

variable {ε : Type}

/-- Text of a record, as every announcement writes it. -/
def announcedText (value : Bytes) : Text := (Text.fromUtf8Lossy value).trim

/-! ## CDP -/

/-- CDP frames are sent to this reserved Cisco multicast address. -/
def cdpMulticastMac : Bytes := [0x01, 0x00, 0x0C, 0xCC, 0xCC, 0xCC]

/-- A neighbour as CDP announces it. -/
structure CdpNeighbor where
  deviceId : Text
  portId : Text
  platform : Option Text
  softwareVersion : Option Text
  managementIp : Option Ipv4Addr
  nativeVlan : Option UInt16
  capabilities : List Text
  deriving DecidableEq, Repr

/-- What the records read so far say. -/
structure CdpTlvs where
  deviceId : Option Text := none
  portId : Option Text := none
  platform : Option Text := none
  softwareVersion : Option Text := none
  managementIp : Option Ipv4Addr := none
  nativeVlan : Option UInt16 := none
  capabilities : List Text := []

/-- The capabilities TLV, bit by bit. -/
def cdpCapabilities (caps : UInt32) : List Text :=
  [((0x01 : UInt32), ("Router" : Text)), (0x02, "Transparent Bridge"), (0x04, "Source Route Bridge"),
    (0x08, "Switch"), (0x10, "Host"), (0x20, "IGMP"), (0x40, "Repeater")].filterMap fun bit =>
      if caps &&& bit.1 ≠ 0 then some bit.2 else none

/-- Whether the protocol of an address is IPv4; it is looked at only where it is one byte of NLPID. -/
def isIpProtocol (value : Bytes) (protoType : UInt8) (protoLen addrOff : Nat) : Outcome ε Bool :=
  if protoType = 1 ∧ protoLen = 1 then (· == 0xCC) <$> index value addrOff else .ok false

/-- The management address, which is the first IPv4 address listed. -/
def firstIpv4 (value : Bytes) (isIp : Bool) (addrLen addrOff : Nat) (managementIp : Option Ipv4Addr) :
    Outcome ε (Option Ipv4Addr) :=
  if isIp ∧ addrLen = 4 ∧ managementIp = none then some <$> ipv4At value addrOff else .ok managementIp

/-- One address of the addresses TLV: how many are still to be read, where, and the management address so far. -/
def cdpAddress (value : Bytes) : Nat × Nat × Option Ipv4Addr →
    Outcome ε (Turn (Nat × Nat × Option Ipv4Addr) (Option Ipv4Addr))
  | (0, _, managementIp) => .ok (.done managementIp)
  | (left + 1, addrOff, managementIp) =>
    if value.length < addrOff + 4 then .ok (.done managementIp)
    else do
      let protoType ← index value addrOff
      let protoLen ← index value (addrOff + 1)
      let addrOff := addrOff + 2
      let protoLen := protoLen.toNat
      if value.length < addrOff + protoLen + 2 then return .done managementIp
      let isIp ← isIpProtocol value protoType protoLen addrOff
      let addrOff := addrOff + protoLen
      let addrLen ← u16At value addrOff
      let addrOff := addrOff + 2
      let addrLen := addrLen.toNat
      if value.length < addrOff + addrLen then return .done managementIp
      let managementIp ← firstIpv4 value isIp addrLen addrOff managementIp
      return .next (left, addrOff + addrLen, managementIp)

def CdpTlvs.read (t : CdpTlvs) (tlvType : UInt16) (value : Bytes) : Outcome ε CdpTlvs :=
  match tlvType.toNat with
  | 0x0001 => .ok { t with deviceId := some (announcedText value) }
  | 0x0002 =>
    if 4 ≤ value.length then do
      let numAddrs ← u32At value 0
      let managementIp ← loop (cdpAddress value) (value.length + 1) (numAddrs.toNat, 4, t.managementIp)
      return { t with managementIp }
    else .ok t
  | 0x0003 => .ok { t with portId := some (announcedText value) }
  | 0x0004 =>
    if 4 ≤ value.length then do
      let caps ← u32At value 0
      return { t with capabilities := t.capabilities ++ cdpCapabilities caps }
    else .ok t
  | 0x0005 => .ok { t with softwareVersion := some (announcedText value) }
  | 0x0006 => .ok { t with platform := some (announcedText value) }
  | 0x000a =>
    if 2 ≤ value.length then do
      let vlan ← u16At value 0
      return { t with nativeVlan := some vlan }
    else .ok t
  | _ => .ok t

theorem returns_isIpProtocol {value : Bytes} {protoType : UInt8} {protoLen addrOff : Nat}
    (h : addrOff + protoLen ≤ value.length) :
    Returns (fun _ => True) (isIpProtocol value protoType protoLen addrOff : Outcome ε _) := by
  unfold isIpProtocol
  split
  · obtain ⟨b, hb, -⟩ := returns_index (ε := ε) (show addrOff < value.length by omega)
    rw [hb]
    exact returns_ok trivial
  · exact returns_ok trivial

theorem returns_firstIpv4 {value : Bytes} {isIp : Bool} {addrLen addrOff : Nat} {managementIp : Option Ipv4Addr}
    (h : addrOff + addrLen ≤ value.length) :
    Returns (fun _ => True) (firstIpv4 value isIp addrLen addrOff managementIp : Outcome ε _) := by
  unfold firstIpv4
  split
  · obtain ⟨a, ha, -⟩ := returns_ipv4At (ε := ε) (show addrOff + 4 ≤ value.length by omega)
    rw [ha]
    exact returns_ok trivial
  · exact returns_ok trivial

/-- The addresses are read to an end, whatever number of them is stated: each takes at least four bytes. -/
theorem returns_cdpAddresses {value : Bytes} (count : Nat) (managementIp : Option Ipv4Addr) :
    Returns (fun _ => True) (loop (cdpAddress value) (value.length + 1) (count, 4, managementIp) : Outcome ε _) := by
  refine returns_loop (fun _ => True) (fun s => value.length - s.2.1) (fun s _ => ?_) trivial (by dsimp only; omega)
  match s with
  | (0, _, ip) => exact returns_ok trivial
  | (left + 1, addrOff, ip) =>
    rw [cdpAddress]
    split
    · exact returns_ok trivial
    refine (returns_index (by omega)).bind fun protoType _ => (returns_index (by omega)).bind fun protoLen _ => ?_
    dsimp only
    split
    · exact returns_ok trivial
    refine (returns_isIpProtocol (by omega)).bind fun isIp _ => ?_
    refine (returns_u16At (show addrOff + 2 + protoLen.toNat + 2 ≤ value.length by omega)).bind fun addrLen _ => ?_
    split
    · exact returns_ok trivial
    refine (returns_firstIpv4 (by omega)).bind fun ip' _ => returns_ok ⟨trivial, ?_⟩
    dsimp only
    omega

/-- One record of a CDP payload; its length counts its own header. -/
def cdpTlv (payload : Bytes) : Nat × CdpTlvs → Outcome ε (Turn (Nat × CdpTlvs) CdpTlvs)
  | (offset, t) =>
    if offset + 4 ≤ payload.length then do
      let tlvType ← u16At payload offset
      let tlvLen ← u16At payload (offset + 2)
      let tlvLen := tlvLen.toNat
      if tlvLen < 4 ∨ payload.length < offset + tlvLen then return .done t
      let value ← slice payload (offset + 4) (offset + 4 + (tlvLen - 4))
      let t ← t.read tlvType value
      return .next (offset + tlvLen, t)
    else .ok (.done t)

/-- Where the CDP payload starts: behind the LLC/SNAP header of an untagged frame, else at the first byte. -/
def cdpStart (payload : Bytes) : Outcome ε Nat :=
  if 22 ≤ payload.length then do
    let destination ← slice payload 0 6
    let snap ← slice payload 14 22
    return if destination = cdpMulticastMac ∧ snap = [0xAA, 0xAA, 0x03, 0x00, 0x00, 0x0C, 0x20, 0x00] then 22 else 0
  else .ok 0

def parseCdpFrame (payload : Bytes) : Outcome Unit CdpNeighbor := do
  require (4 ≤ payload.length) ()
  let offset ← cdpStart payload
  require (offset + 4 ≤ payload.length) ()
  let version ← index payload offset
  require (version = 1 ∨ version = 2) ()
  -- The version, the time to live and the checksum are four bytes.
  let t ← loop (cdpTlv payload) (payload.length + 1) (offset + 4, {})
  match t.deviceId, t.portId with
  | some deviceId, some portId =>
    return { deviceId, portId, platform := t.platform, softwareVersion := t.softwareVersion,
             managementIp := t.managementIp, nativeVlan := t.nativeVlan, capabilities := t.capabilities }
  | _, _ => .err ()

/-! ## LLDP -/

/-- A neighbour as LLDP announces it. -/
structure LldpNeighbor where
  chassisId : Text
  portId : Text
  systemName : Option Text
  systemDescription : Option Text
  managementIp : Option Ipv4Addr
  capabilities : List Text
  deriving DecidableEq, Repr

structure LldpTlvs where
  chassisId : Option Text := none
  portId : Option Text := none
  systemName : Option Text := none
  systemDescription : Option Text := none
  managementIp : Option Ipv4Addr := none
  capabilities : List Text := []

/-- The capabilities TLV, bit by bit. -/
def lldpCapabilities (caps : UInt16) : List Text :=
  (if caps &&& 0x0004 ≠ 0 then [("Bridge/Switch" : Text)] else []) ++
    (if caps &&& 0x0008 ≠ 0 then [("WLAN Access Point" : Text)] else []) ++
    (if caps &&& 0x0010 ≠ 0 then [("Router" : Text)] else []) ++
    (if caps &&& 0x0020 ≠ 0 then [("Telephone" : Text)] else [])

def LldpTlvs.read (t : LldpTlvs) (tlvType : UInt16) (value : Bytes) : Outcome ε LldpTlvs :=
  match tlvType.toNat with
  | 1 =>
    if value ≠ [] then do
      let subtype ← index value 0
      let id ← sliceFrom value 1
      -- Subtype 4 is a hardware address.
      return { t with chassisId := some (if subtype = 4 ∧ value.length = 7 then formatMac id else Text.fromUtf8Lossy id) }
    else .ok t
  | 2 =>
    if value ≠ [] then do
      let id ← sliceFrom value 1
      return { t with portId := some (Text.fromUtf8Lossy id) }
    else .ok t
  | 5 => .ok { t with systemName := some (announcedText value) }
  | 6 => .ok { t with systemDescription := some (announcedText value) }
  | 7 =>
    if 4 ≤ value.length then do
      let caps ← u16At value 0
      return { t with capabilities := t.capabilities ++ lldpCapabilities caps }
    else .ok t
  | 8 =>
    if 6 ≤ value.length then do
      let length ← index value 0
      let subtype ← index value 1
      if length = 5 ∧ subtype = 1 then do
        let address ← ipv4At value 2
        return { t with managementIp := some address }
      else .ok t
    else .ok t
  | _ => .ok t

/-- One record of an LLDPDU: seven bits of type, nine of length. Type zero ends it. -/
def lldpTlv (payload : Bytes) : Nat × LldpTlvs → Outcome ε (Turn (Nat × LldpTlvs) LldpTlvs)
  | (offset, t) =>
    if offset + 2 ≤ payload.length then do
      let header ← u16At payload offset
      let tlvType := header >>> 9
      let tlvLen := (header &&& 0x01FF).toNat
      let offset := offset + 2
      if payload.length < offset + tlvLen then return .done t
      let value ← slice payload offset (offset + tlvLen)
      if tlvType = 0 then return .done t
      let t ← t.read tlvType value
      return .next (offset + tlvLen, t)
    else .ok (.done t)

/-- The CDP neighbour of a frame sent to the CDP address, if it is one. -/
def cdpAnnounced (payload : Bytes) : Outcome ε (Option CdpNeighbor) :=
  if 22 ≤ payload.length then do
    let destination ← slice payload 0 6
    if destination = cdpMulticastMac then (parseCdpFrame payload).toOption else .ok none
  else .ok none

/-- A CDP neighbour in the terms of LLDP. -/
def CdpNeighbor.toLldp (cdp : CdpNeighbor) : LldpNeighbor where
  chassisId := cdp.deviceId
  portId := cdp.portId
  systemName := some cdp.deviceId
  systemDescription :=
    match cdp.platform, cdp.softwareVersion with
    | some p, some v => some (p ++ (" - " : Text) ++ v)
    | some p, none => some p
    | none, some v => some v
    | none, none => none
  managementIp := cdp.managementIp
  capabilities := cdp.capabilities

def parseLldpFrame (payload : Bytes) : Outcome Unit LldpNeighbor := do
  require (14 ≤ payload.length) ()
  match ← cdpAnnounced payload with
  | some cdp => return cdp.toLldp
  | none =>
    -- The Ethernet header: two addresses and the EtherType.
    let t ← loop (lldpTlv payload) (payload.length + 1) (14, {})
    match t.chassisId, t.portId with
    | some chassisId, some portId =>
      return { chassisId, portId, systemName := t.systemName, systemDescription := t.systemDescription,
               managementIp := t.managementIp, capabilities := t.capabilities }
    | _, _ => .err ()

/-! ## MNDP -/

/-- A neighbour as a MikroTik beacon announces it. -/
structure MndpNeighbor where
  identity : Text
  macAddress : Text
  boardName : Option Text
  softwareVersion : Option Text
  interfaceName : Option Text
  ipv4Address : Option Ipv4Addr
  deriving DecidableEq, Repr

structure MndpTlvs where
  identity : Option Text := none
  macAddress : Option Text := none
  boardName : Option Text := none
  softwareVersion : Option Text := none
  interfaceName : Option Text := none
  ipv4Address : Option Ipv4Addr := none

def MndpTlvs.read (t : MndpTlvs) (tlvType : UInt16) (value : Bytes) : Outcome ε MndpTlvs :=
  match tlvType.toNat with
  | 0x0001 => .ok (if value.length = 6 then { t with macAddress := some (formatMac value) } else t)
  | 0x0005 => .ok { t with identity := some (announcedText value) }
  | 0x0007 => .ok { t with softwareVersion := some (announcedText value) }
  | 0x000c => .ok { t with boardName := some (announcedText value) }
  | 0x0010 => .ok { t with interfaceName := some (announcedText value) }
  | 0x0011 =>
    if value.length = 4 then do
      let address ← ipv4At value 0
      return { t with ipv4Address := some address }
    else .ok t
  | _ => .ok t

def mndpTlv (payload : Bytes) : Nat × MndpTlvs → Outcome ε (Turn (Nat × MndpTlvs) MndpTlvs)
  | (offset, t) =>
    if offset + 4 ≤ payload.length then do
      let tlvType ← u16At payload offset
      let tlvLen ← u16At payload (offset + 2)
      let tlvLen := tlvLen.toNat
      let offset := offset + 4
      if payload.length < offset + tlvLen then return .done t
      let value ← slice payload offset (offset + tlvLen)
      let t ← t.read tlvType value
      return .next (offset + tlvLen, t)
    else .ok (.done t)

def parseMndpPacket (payload : Bytes) : Outcome Unit MndpNeighbor := do
  require (8 ≤ payload.length) ()
  let t ← loop (mndpTlv payload) (payload.length + 1) (4, {})
  match t.identity, t.macAddress with
  | some identity, some macAddress =>
    return { identity, macAddress, boardName := t.boardName, softwareVersion := t.softwareVersion,
             interfaceName := t.interfaceName, ipv4Address := t.ipv4Address }
  | _, _ => .err ()

end Idnx
