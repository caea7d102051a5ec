import Idnx.Probes.ArpSweep

/-!
# What a neighbour sweep records

Advertisements that survived validation, with or without a link-layer address, are recorded once for the address and
the link-layer address they name, and `NdpSweep.contested` reports the addresses that are recorded twice.
-/

namespace Idnx

/-- An advertisement that survived validation. -/
structure NdpAdvertisement where
  address : Ipv6Addr
  sender : Ipv6Addr
  mac : Option Mac
  router : Bool
  raw : Bytes

def NdpAdvertisement.macText (found : NdpAdvertisement) : Option Text := found.mac.map fun mac => formatMac mac.octets

/-- What one neighbour sweep asked and what answered. -/
structure NdpSweep where
  asked : List Ipv6Addr
  advertisements : List NdpAdvertisement

/-- An advertisement is recorded once for its address and its link-layer address. -/
def recordAdvertisement : List NdpAdvertisement → NdpAdvertisement → List NdpAdvertisement :=
  recordOnce fun found => (found.address, found.mac)

/-- Addresses that more than one station advertised for, with every link-layer address that did. -/
def NdpSweep.contested (sweep : NdpSweep) : List (Ipv6Addr × List (Option Mac)) :=
  (collectAll (sweep.advertisements.map fun found => (found.address, found.mac))).filter fun group =>
    1 < group.2.length

end Idnx
