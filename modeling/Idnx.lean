import Idnx.Lib.Framing
import Idnx.Lib.Outcome
import Idnx.Lib.Interleave
import Idnx.Lib.Relocate
import Idnx.Lib.Determined
import Idnx.Lib.Tenure
import Idnx.Lib.Grouping
import Idnx.Topology.Passes
import Idnx.Topology.Plan
import Idnx.Topology.Slots
import Idnx.Topology.Merge
import Idnx.Topology.Fresh
import Idnx.Topology.Defence
import Idnx.Topology.Lossless
import Idnx.Topology.Confidence
import Idnx.Topology.Integrity
import Idnx.Topology.Marks
import Idnx.Topology.Isolation
import Idnx.Topology.Order
import Idnx.Topology.Networks
import Idnx.Topology.Counts
import Idnx.Federation.Identity
import Idnx.Federation.Wire
import Idnx.Federation.Payload
import Idnx.Federation.Ledger
import Idnx.Federation.Reservation
import Idnx.Federation.RoundTrip
import Idnx.Federation.Store
import Idnx.Engine.Enrich
import Idnx.Engine.Probing
import Idnx.Engine.Queue
import Idnx.Engine.Orchestrator
import Idnx.Engine.Moves
import Idnx.Engine.Accounting
import Idnx.Engine.Coverage
import Idnx.Engine.Aliases
import Idnx.Engine.Convergence
import Idnx.Federation.Limits
import Idnx.Federation.Relay
import Idnx.Federation.Delivery
import Idnx.Federation.RelayClient
import Idnx.Federation.Session
import Idnx.Federation.Source
import Idnx.Net.Masks
import Idnx.Probes.UsmState
import Idnx.Probes.Ber
import Idnx.Probes.SnmpV3
import Idnx.Probes.Readers
import Idnx.Lib.Utf8
import Idnx.Lib.Replace
import Idnx.Lib.Json
import Idnx.Probes.Snmp
import Idnx.Probes.Oids
import Idnx.Probes.Layout
import Idnx.Probes.Integers
import Idnx.Probes.Located
import Idnx.Probes.Ratchet
import Idnx.Probes.SnmpWalk
import Idnx.Probes.Octets
import Idnx.Probes.LinkLayer
import Idnx.Probes.Rip
import Idnx.Probes.Ospf
import Idnx.Probes.Isis
import Idnx.Probes.Ra
import Idnx.Probes.Passive
import Idnx.Probes.VlanTags
import Idnx.Probes.TagsMisread
import Idnx.Probes.InetRoute
import Idnx.Probes.RouteIndex
import Idnx.Probes.RouteTable
import Idnx.Probes.Totality
import Idnx.Probes.ClasslessRoutes
import Idnx.Probes.Layers
import Idnx.Probes.FactKinds
import Idnx.Probes.Arp
import Idnx.Providers.Vlans
import Idnx.Probes.DhcpOptions
import Idnx.Probes.Joins
import Idnx.Topology.Precedence
import Idnx.Topology.Roles
import Idnx.Providers.Passive
import Idnx.Providers.Snmp
import Idnx.Providers.Bridges
import Idnx.Federation.Transport
import Idnx.Federation.Texts
import Idnx.Federation.Reading
import Idnx.Providers.Keys
import Idnx.Federation.Qualified
import Idnx.Output.Safe
import Idnx.Federation.Discovery
import Idnx.Output.Report
import Idnx.Output.Reachability
import Idnx.Output.Export
import Idnx.Output.Names
import Idnx.Output.Clean
import Idnx.Output.Page
import Idnx.Output.Literal
import Idnx.Output.Drawing
import Idnx.Probes.RipMessages
import Idnx.Probes.OpenEnds
import Idnx.Probes.Padding
import Idnx.Probes.RipRoutes
import Idnx.Probes.OspfUpdates
import Idnx.Probes.Promotion
import Idnx.Probes.IsisReach
import Idnx.Probes.IsisPrefixes
import Idnx.Probes.DhcpInform
import Idnx.Probes.RaOptions
import Idnx.Probes.ArpSweep
import Idnx.Probes.NdpSweep
import Idnx.Providers.Contests
import Idnx.Lib.Waves
import Idnx.Probes.Reach
import Idnx.Fingerprint.Oui
import Idnx.Fingerprint.Registries
import Idnx.Fingerprint.Vendors
import Idnx.Net.Capture
import Idnx.Net.Dns
import Idnx.Net.DnsReplies
import Idnx.Net.Mdns
import Idnx.Net.Parse
import Idnx.Net.RouteLines
import Idnx.Probes.InternetChecksum
import Idnx.Probes.MaskLengths
import Idnx.Probes.Tour
import Idnx.Probes.UsmKeys
import Idnx.Providers.Announcements
import Idnx.Providers.ReachCoverage
import Idnx.Providers.ReverseNames
import Idnx.Lib.PacketFilter
import Idnx.Probes.LldpCapture
import Idnx.Probes.Path
import Idnx.Providers.EgressPath
import Idnx.Net.Pcap
import Idnx.Probes.Ndp
import Idnx.Probes.NdpLiveness
import Idnx.Probes.Echo
import Idnx.Lib.Keyed
import Idnx.Engine.Scan
import Idnx.Engine.Naming
import Idnx.Providers.HostEnrichment
import Idnx.Lib.Feedback
import Idnx.Probes.UsmPrivacy
import Idnx.Probes.UsmExchange
import Idnx.Lib.Pivot
import Idnx.Providers.SnmpHarvest
import Idnx.Providers.SnmpProvider
import Idnx.Lib.Excise
import Idnx.Providers.HttpPage
import Idnx.Lib.Gather
import Idnx.Providers.HttpAudit
