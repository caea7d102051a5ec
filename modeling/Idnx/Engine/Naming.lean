import Idnx.Engine.Scan
import Idnx.Fingerprint.Oui
import Mathlib.Data.Finset.Sort

/-!
# What a scan reports

`scanSubnetExt` sweeps a network and then gives the hosts it lists names: from mDNS, reverse DNS, UPnP, SMB, TLS
certificates and the cache of IPv6 neighbours. None of these changes who is listed, who answered, or what was found of
a host but its names, its vendor and its IPv6 addresses (`nameHosts_within`); stations only known by an IPv6 address
are listed beside them, at the unspecified address.
-/

namespace Idnx

/-! ## The sources of names -/

structure UpnpDevice where
  ip : Ipv4Addr
  friendlyName : Option Text
  modelName : Option Text
  modelDescription : Option Text
  manufacturer : Option Text

structure SmbInfo where
  computerName : Option Text
  domainName : Option Text
  dnsComputerName : Option Text

structure NdpEntry where
  ip : Ipv6Addr
  mac : Text

/-- What the hosts of a network, its resolvers and the system's caches say when they are asked. -/
structure NameSources where
  mdnsHostnames : List Ipv4Addr → List (Ipv4Addr × Text)
  defaultGateway : Option Ipv4Addr
  unicastDnsPtrs : List Ipv4Addr → (server : Ipv4Addr) → List (Ipv4Addr × Text)
  upnpDevices : List UpnpDevice
  probeSmb : Ipv4Addr → Option SmbInfo
  /-- The common name of the certificate, if one is presented. -/
  tlsCommonName : Ipv4Addr → UInt16 → Option (Option Text)
  ndpCache : List NdpEntry
  ipv6MdnsHostnames : List Ipv6Addr → Ipv6Addr → Option Text
  vendorOf : Text → Option Text

/-! ## The stages -/

/-- Whether a host has no name of its own. -/
def isGeneric (hostname : Option Text) : Bool :=
  hostname.all fun h => h == ("?" : Text) || h == ("-" : Text) || Text.eqIgnoreAsciiCase h "mac" ||
    Text.eqIgnoreAsciiCase h "unknown"

def HostResult.rename (name : Text) (host : HostResult) : HostResult := { host with hostname := some name }

def HostResult.nameIfGeneric (name : Text) (host : HostResult) : HostResult :=
  if isGeneric host.hostname then host.rename name else host

def HostResult.nameIfNone (name : Text) (host : HostResult) : HostResult :=
  if host.hostname.isNone then host.rename name else host

/-- What a UPnP description says of its host. -/
def UpnpDevice.describe (dev : UpnpDevice) (host : HostResult) : HostResult :=
  let host := (dev.modelDescription.or dev.modelName).elim host fun model =>
    { host with
      vendor := some (dev.manufacturer.elim model fun mfg => mfg ++ (" (" : Text) ++ model ++ (")" : Text)) }
  dev.friendlyName.elim host fun name => host.nameIfGeneric name

/-- The hosts that answer on a port 53. -/
def dnsHosts (hosts : Map Ipv4Addr HostResult) : List Ipv4Addr :=
  (hosts.values.filter fun h => h.openPorts.any fun p => p.port == 53).map (·.ip)

namespace NameSources

variable (sources : NameSources)

/-- The names mDNS gives the hosts. -/
def nameByMdns (hosts : Map Ipv4Addr HostResult) : Map Ipv4Addr HostResult :=
  (sources.mdnsHostnames hosts.keys).foldl (fun hosts entry => hosts.modify entry.1 (.nameIfGeneric entry.2)) hosts

/-- The resolver: the gateway of the network, then the lowest host that offers DNS, then the default gateway. -/
def dnsServer (cidr : Ipv4Net) (hosts : Map Ipv4Addr HostResult) : Option Ipv4Addr :=
  ((sources.defaultGateway.filter fun gw => cidr.contains gw).or
    ((dnsHosts hosts).insertionSort fun a b => a ≤ b).head?).or sources.defaultGateway

/-- The names reverse DNS gives the hosts that have none. -/
def nameByDns (cidr : Ipv4Net) (hosts : Map Ipv4Addr HostResult) : Map Ipv4Addr HostResult :=
  let missing := (hosts.values.filter fun h => h.hostname.isNone).map (·.ip)
  if missing.isEmpty then hosts
  else
    (sources.dnsServer cidr hosts).elim hosts fun server =>
      let names := sources.unicastDnsPtrs missing server
      names.foldl (fun hosts entry => hosts.modify entry.1 (.nameIfNone entry.2)) hosts

def nameByUpnp (hosts : Map Ipv4Addr HostResult) : Map Ipv4Addr HostResult :=
  sources.upnpDevices.foldl (fun hosts dev => hosts.modify dev.ip dev.describe) hosts

/-- The name SMB gives a host, with its domain. -/
def nameBySmb (host : HostResult) : HostResult :=
  if host.openPorts.any fun p => p.port == 445 || p.port == 139 then
    (sources.probeSmb host.ip).elim host fun smb =>
      (smb.dnsComputerName.or smb.computerName).elim host fun computer =>
        host.rename (computer ++ smb.domainName.elim [] fun domain => '.' :: domain)
  else host

/-- The name on the certificate of a host that has none. -/
def nameByTls (host : HostResult) : HostResult :=
  let tlsPort := host.openPorts.find? fun p => p.port == 443 || p.port == 8443
  let missing := host.hostname.isNone || host.hostname == some ("?" : Text) || host.hostname == some ("-" : Text)
  if missing then
    (tlsPort.bind fun p => (sources.tlsCommonName host.ip p.port).join).elim host host.rename
  else host

/-- Targeted fingerprinting. -/
def fingerprint (hosts : Map Ipv4Addr HostResult) : Map Ipv4Addr HostResult :=
  hosts.mapValues fun host => sources.nameByTls (sources.nameBySmb host)

end NameSources

/-! ## Neighbours of version 6 -/

/-- Whether an entry is about the hardware address of a host. -/
def HostResult.hasMac (host : HostResult) (mac : Text) : Bool := 
  host.macAddress.any fun own => Text.eqIgnoreAsciiCase own mac

def HostResult.addNeighbour (ndp : NdpEntry) (host : HostResult) : HostResult :=
  if host.hasMac ndp.mac && !host.ipv6Addrs.contains ndp.ip then
    { host with ipv6Addrs := host.ipv6Addrs ++ [ndp.ip] }
  else host

/-- Correlates one entry: the hosts, and the hardware addresses that were found. -/
def correlate (found : Map Ipv4Addr HostResult × List Text) (ndp : NdpEntry) : Map Ipv4Addr HostResult × List Text :=
  (found.1.mapValues (HostResult.addNeighbour ndp),
    if found.1.values.any fun host => host.hasMac ndp.mac then found.2 ++ [ndp.mac.toAsciiLowercase] else found.2)

/-- The first name of an address of version 6 of a host that has none. -/
def HostResult.nameByNeighbours (names : Ipv6Addr → Option Text) (host : HostResult) : HostResult :=
  if host.hostname.isNone || host.hostname == some ("?" : Text) then
    (host.ipv6Addrs.findSome? names).elim host host.rename
  else host

namespace NameSources

variable (sources : NameSources)

/-- A station that is only known by an address of version 6. -/
def ipv6Only (names : Ipv6Addr → Option Text) (ndp : NdpEntry) : HostResult where
  ip := 0
  isAlive := true
  liveness := .answered
  hostname := (names ndp.ip).or (some ("[IPv6 Only]" : Text))
  macAddress := some ndp.mac
  vendor := sources.vendorOf ndp.mac
  openPorts := []
  minLatency := none
  ipv6Addrs := [ndp.ip]

/-- Harvests the neighbours of version 6: the hosts with theirs, and the stations that are no host. -/
def harvestNdp (hosts : Map Ipv4Addr HostResult) : Map Ipv4Addr HostResult × List HostResult :=
  let names := sources.ipv6MdnsHostnames (sources.ndpCache.map (·.ip))
  let (hosts, matched) := sources.ndpCache.foldl correlate (hosts, [])
  (hosts.mapValues (.nameByNeighbours names),
    (sources.ndpCache.filter fun ndp => !matched.contains ndp.mac.toAsciiLowercase).map (sources.ipv6Only names))

/-- Everything that is done about names. -/
def nameHosts (cidr : Ipv4Net) (enableIpv6 : Bool) (hosts : Map Ipv4Addr HostResult) :
    Map Ipv4Addr HostResult × List HostResult :=
  let hosts := sources.fingerprint (sources.nameByUpnp (sources.nameByDns cidr (sources.nameByMdns hosts)))
  if enableIpv6 then sources.harvestNdp hosts else (hosts, [])

end NameSources

/-! ## The scan -/

-- the laws of the order of addresses as numbers, for `sort`
instance isTrans_ipv4 : IsTrans Ipv4Addr (fun a b => a.toNat ≤ b.toNat) := ⟨fun _ _ _ => Nat.le_trans⟩

instance antisymm_ipv4 : Std.Antisymm (fun a b : Ipv4Addr => a.toNat ≤ b.toNat) :=
  ⟨fun _ _ h h' => BitVec.eq_of_toNat_eq (Nat.le_antisymm h h')⟩

instance total_ipv4 : Std.Total (fun a b : Ipv4Addr => a.toNat ≤ b.toNat) := ⟨fun _ _ => Nat.le_total _ _⟩

/-- What a scan reports. -/
structure ScanSummary where
  totalHosts : Nat
  activeHosts : List HostResult
  probedAddresses : List Ipv4Addr
  probesSent : Nat
  probesNotSent : Nat
  notSentReasons : Finset Text

/-- The order in which hosts are reported: by address, then by hardware address. -/
def hostLE (a b : HostResult) : Bool := ((compare a.ip b.ip).then (compare a.macAddress b.macAddress)).isLE

def scanSubnetExt (cidr : Ipv4Net) (ports : List UInt16) (enableIpv6 : Bool) (run : SweepRun) (sources : NameSources) :
    ScanSummary :=
  let sweep := sweepSubnet cidr ports run
  let (hosts, ipv6OnlyHosts) := sources.nameHosts cidr enableIpv6 sweep.hosts
  { totalHosts := cidr.hosts.length
    activeHosts := (hosts.values ++ ipv6OnlyHosts).insertionSort fun a b => hostLE a b = true
    probedAddresses := sweep.probedAddresses.sort fun a b => a.toNat ≤ b.toNat
    probesSent := sweep.probesSent
    probesNotSent := sweep.probesNotSent
    notSentReasons := sweep.notSentReasons }

/-! ## What names do not change -/

/-- The second host is the first but for its names, its vendor and its IPv6 addresses. -/
structure SameAnswers (h h' : HostResult) : Prop where
  ip : h'.ip = h.ip
  isAlive : h'.isAlive = h.isAlive
  liveness : h'.liveness = h.liveness
  macAddress : h'.macAddress = h.macAddress
  openPorts : h'.openPorts = h.openPorts
  minLatency : h'.minLatency = h.minLatency

namespace SameAnswers

theorem refl (h : HostResult) : SameAnswers h h := ⟨rfl, rfl, rfl, rfl, rfl, rfl⟩

theorem trans (h h' h'' : HostResult) (hfirst : SameAnswers h h') (hsecond : SameAnswers h' h'') : SameAnswers h h'' :=
  ⟨hsecond.ip.trans hfirst.ip, hsecond.isAlive.trans hfirst.isAlive, hsecond.liveness.trans hfirst.liveness,
    hsecond.macAddress.trans hfirst.macAddress, hsecond.openPorts.trans hfirst.openPorts,
    hsecond.minLatency.trans hfirst.minLatency⟩

theorem rename (name : Text) (h : HostResult) : SameAnswers h (h.rename name) := ⟨rfl, rfl, rfl, rfl, rfl, rfl⟩

theorem nameIfGeneric (name : Text) (h : HostResult) : SameAnswers h (h.nameIfGeneric name) := by
  unfold HostResult.nameIfGeneric
  split_ifs
  · exact rename name h
  · exact refl h

theorem nameIfNone (name : Text) (h : HostResult) : SameAnswers h (h.nameIfNone name) := by
  unfold HostResult.nameIfNone
  split_ifs
  · exact rename name h
  · exact refl h

/-- What is done if there is something to do it with. -/
theorem elim {α : Type} {h : HostResult} {f : α → HostResult} (hf : ∀ a, SameAnswers h (f a)) (o : Option α) :
    SameAnswers h (o.elim h f) := by
  cases o with
  | none => exact refl h
  | some a => exact hf a

theorem describe (dev : UpnpDevice) (h : HostResult) : SameAnswers h (dev.describe h) := by
  unfold UpnpDevice.describe
  refine trans _ _ _ ?_ (elim (fun name => nameIfGeneric name _) dev.friendlyName)
  cases dev.modelDescription.or dev.modelName with
  | none => exact refl h
  | some model => exact ⟨rfl, rfl, rfl, rfl, rfl, rfl⟩

theorem nameBySmb (sources : NameSources) (h : HostResult) : SameAnswers h (sources.nameBySmb h) := by
  unfold NameSources.nameBySmb
  split
  · exact elim (fun smb => elim (fun computer => rename _ h) _) _
  · exact refl h

theorem nameByTls (sources : NameSources) (h : HostResult) : SameAnswers h (sources.nameByTls h) := by
  unfold NameSources.nameByTls
  dsimp only
  split_ifs
  · exact elim (fun name => rename name h) _
  · exact refl h

theorem addNeighbour (ndp : NdpEntry) (h : HostResult) : SameAnswers h (h.addNeighbour ndp) := by
  unfold HostResult.addNeighbour
  split_ifs
  · exact ⟨rfl, rfl, rfl, rfl, rfl, rfl⟩
  · exact refl h

theorem nameByNeighbours (names : Ipv6Addr → Option Text) (h : HostResult) :
    SameAnswers h (h.nameByNeighbours names) := by
  unfold HostResult.nameByNeighbours
  split_ifs
  · exact elim (fun name => rename name h) _
  · exact refl h

end SameAnswers

/-- The hosts of the second map are those of the first but for their names. -/
abbrev SameHosts (hosts hosts' : Map Ipv4Addr HostResult) : Prop := hosts.Within SameAnswers hosts'

theorem SameHosts.next {hosts hosts' hosts'' : Map Ipv4Addr HostResult} (h : SameHosts hosts hosts')
    (h' : SameHosts hosts' hosts'') : SameHosts hosts hosts'' := Map.Within.trans SameAnswers.trans h h'

/-- Renaming hosts one by one. -/
theorem sameHosts_modify {E : Type} {key : E → Ipv4Addr} {f : E → HostResult → HostResult}
    (hf : ∀ e h, SameAnswers h (f e h)) (l : List E) (hosts : Map Ipv4Addr HostResult) :
    SameHosts hosts (l.foldl (fun hosts e => hosts.modify (key e) (f e)) hosts) :=
  Map.within_foldl SameAnswers.refl SameAnswers.trans
    (fun hosts e => Map.within_modify SameAnswers.refl hosts (key e) (hf e)) l hosts

namespace NameSources

variable (sources : NameSources) (cidr : Ipv4Net) (hosts : Map Ipv4Addr HostResult)

theorem sameHosts_mdns : SameHosts hosts (sources.nameByMdns hosts) :=
  sameHosts_modify (fun entry : Ipv4Addr × Text => SameAnswers.nameIfGeneric entry.2) _ _

theorem sameHosts_dns : SameHosts hosts (sources.nameByDns cidr hosts) := by
  unfold nameByDns
  dsimp only
  split_ifs
  · exact .refl SameAnswers.refl hosts
  · cases sources.dnsServer cidr hosts with
    | none => exact .refl SameAnswers.refl hosts
    | some server => exact sameHosts_modify (fun entry : Ipv4Addr × Text => SameAnswers.nameIfNone entry.2) _ _

theorem sameHosts_upnp : SameHosts hosts (sources.nameByUpnp hosts) := sameHosts_modify SameAnswers.describe _ _

theorem sameHosts_fingerprint : SameHosts hosts (sources.fingerprint hosts) :=
  Map.within_mapValues hosts fun host =>
    SameAnswers.trans _ _ _ (SameAnswers.nameBySmb sources host) (SameAnswers.nameByTls sources _)

theorem sameHosts_correlate (entries : List NdpEntry) (found : Map Ipv4Addr HostResult × List Text) :
    SameHosts found.1 (entries.foldl correlate found).1 := by
  induction entries generalizing found with
  | nil => exact .refl SameAnswers.refl found.1
  | cons ndp entries ih =>
    have hone : SameHosts found.1 (correlate found ndp).1 := Map.within_mapValues found.1 (SameAnswers.addNeighbour ndp)
    exact hone.next (ih _)

theorem sameHosts_ndp : SameHosts hosts (sources.harvestNdp hosts).1 :=
  (sameHosts_correlate sources.ndpCache (hosts, [])).next (Map.within_mapValues _ (SameAnswers.nameByNeighbours _))

/-- **Names change no answer**: not who is listed, nor who answered, nor with what. -/
theorem sameHosts_nameHosts (enableIpv6 : Bool) : SameHosts hosts (sources.nameHosts cidr enableIpv6 hosts).1 := by
  have hnamed := (((sources.sameHosts_mdns hosts).next (sources.sameHosts_dns cidr _)).next
    (sources.sameHosts_upnp _)).next (sources.sameHosts_fingerprint _)
  unfold nameHosts
  dsimp only
  split_ifs
  · exact hnamed.next (sources.sameHosts_ndp _)
  · exact hnamed

/-- What is listed beside the hosts stands at the unspecified address. -/
theorem ip_of_mem_ipv6Only (enableIpv6 : Bool) {h : HostResult}
    (hmem : h ∈ (sources.nameHosts cidr enableIpv6 hosts).2) : h.ip = 0 := by
  unfold nameHosts harvestNdp at hmem
  dsimp only at hmem
  split_ifs at hmem
  · obtain ⟨ndp, -, rfl⟩ := List.mem_map.mp hmem
    rfl
  · cases hmem

end NameSources

/-! ## Who is reported -/

section Reported

variable (cidr : Ipv4Net) (ports : List UInt16) (enableIpv6 : Bool) (run : SweepRun) (sources : NameSources)

/-- A host reported at an address is what the sweep knows of it, but for its names. -/
theorem known_of_mem_activeHosts {h : HostResult}
    (hmem : h ∈ (scanSubnetExt cidr ports enableIpv6 run sources).activeHosts) (hip : h.ip ≠ 0) :
    ∃ h' ∈ (sweepSubnet cidr ports run).hosts.lookup h.ip, SameAnswers h' h := by
  have hsame := sources.sameHosts_nameHosts cidr (sweepSubnet cidr ports run).hosts enableIpv6
  simp only [scanSubnetExt, List.mem_insertionSort, List.mem_append, Map.mem_values] at hmem
  obtain ⟨k, hk⟩ := hmem.resolve_right fun hbeside => hip (sources.ip_of_mem_ipv6Only cidr _ enableIpv6 hbeside)
  have hrel := hsame k
  rw [hk] at hrel
  cases hlook : (sweepSubnet cidr ports run).hosts.lookup k with
  | none => rw [hlook] at hrel; cases hrel
  | some h' =>
    rw [hlook] at hrel
    cases hrel with
    | some hrel =>
      rw [hrel.ip, (known_sweepSubnet cidr ports run k).ip h' hlook]
      exact ⟨h', hlook, hrel⟩

/-- The hosts reported at an address are what the sweep knows of it. -/
theorem mem_activeHosts {a : Ipv4Addr} (ha : a ≠ 0) (liveness : HostLiveness) :
    (∃ h ∈ (scanSubnetExt cidr ports enableIpv6 run sources).activeHosts, h.ip = a ∧ h.liveness = liveness) ↔
      ∃ h ∈ (sweepSubnet cidr ports run).hosts.lookup a, h.liveness = liveness := by
  constructor
  · rintro ⟨h, hmem, rfl, hliveness⟩
    obtain ⟨h', hlook, hsame⟩ := known_of_mem_activeHosts cidr ports enableIpv6 run sources hmem ha
    exact ⟨h', hlook, hsame.liveness.symm.trans hliveness⟩
  · rintro ⟨h, hlook, hliveness⟩
    have hrel := sources.sameHosts_nameHosts cidr (sweepSubnet cidr ports run).hosts enableIpv6 a
    rw [Option.mem_def.mp hlook] at hrel
    simp only [scanSubnetExt, List.mem_insertionSort, List.mem_append, Map.mem_values]
    cases hnamed : (sources.nameHosts cidr enableIpv6 (sweepSubnet cidr ports run).hosts).1.lookup a with
    | none => rw [hnamed] at hrel; cases hrel
    | some h' =>
      rw [hnamed] at hrel
      cases hrel with
      | some hrel =>
        exact ⟨h', .inl ⟨a, hnamed⟩, hrel.ip.trans ((known_sweepSubnet cidr ports run a).ip h hlook),
          hrel.liveness.trans hliveness⟩

/-- No address is reported twice. -/
theorem nodup_activeHosts : (((scanSubnetExt cidr ports enableIpv6 run sources).activeHosts.map (·.ip)).filter
    fun a => a ≠ 0).Nodup := by
  have hsame := sources.sameHosts_nameHosts cidr (sweepSubnet cidr ports run).hosts enableIpv6
  have hknown := known_sweepSubnet cidr ports run
  have hbeside := fun h => sources.ip_of_mem_ipv6Only cidr (sweepSubnet cidr ports run).hosts enableIpv6 (h := h)
  unfold scanSubnetExt
  dsimp only
  generalize sources.nameHosts cidr enableIpv6 (sweepSubnet cidr ports run).hosts = named at hsame hbeside ⊢
  have hperm := ((List.perm_insertionSort (fun a b => hostLE a b = true) (named.1.values ++ named.2)).map (·.ip)).filter
    fun a => a ≠ 0
  have hnone : (named.2.map (·.ip)).filter (fun a => a ≠ 0) = [] := by
    rw [List.filter_eq_nil_iff]
    intro a ha
    obtain ⟨h, hmem, rfl⟩ := List.mem_map.mp ha
    simpa using hbeside h hmem
  have hkeys : named.1.values.map (·.ip) = named.1.keys := by
    rw [Map.values, List.map_map]
    refine List.map_congr_left fun e he => ?_
    have hlook : named.1.lookup e.1 = some e.2 := AList.mem_lookup_iff.mpr he
    have hrel := hsame e.1
    rw [hlook] at hrel
    cases hlook' : (sweepSubnet cidr ports run).hosts.lookup e.1 with
    | none => rw [hlook'] at hrel; cases hrel
    | some h =>
      rw [hlook'] at hrel
      cases hrel with
      | some hrel => exact hrel.ip.trans ((hknown e.1).ip h hlook')
  rw [hperm.nodup_iff, List.map_append, List.filter_append, hnone, List.append_nil, hkeys]
  exact named.1.keys_nodup.filter _

end Reported

/-- What the summary of a scan owes to what the scan met. -/
structure ScanAccount (cidr : Ipv4Net) (ports : List UInt16) (run : SweepRun) (summary : ScanSummary) : Prop where
  /-- Who is reported to have answered was heard from during this run. -/
  answered : ∀ a, a ≠ 0 →
    ((∃ h ∈ summary.activeHosts, h.ip = a ∧ h.liveness = .answered) ↔ run.Heard cidr ports a)
  /-- Who is only remembered is in the cache, and was not heard from. -/
  remembered : ∀ a, a ≠ 0 → ((∃ h ∈ summary.activeHosts, h.ip = a ∧ h.liveness = .remembered) ↔
    a ∈ seedHosts cidr (arpMap cidr run.neighbours) ∧ ¬ run.Heard cidr ports a)
  once : ((summary.activeHosts.map (·.ip)).filter fun a => a ≠ 0).Nodup
  probed : ∀ a, a ∈ summary.probedAddresses ↔ run.Probed cidr ports a
  probedOnce : summary.probedAddresses.Nodup
  sent : summary.probesSent = (run.tcpInfos cidr ports).countP (fun info => info.status ≠ .notSent) +
    (run.echoOutcomes cidr ports).countP fun outcome => outcome.transmitted
  notSent : summary.probesNotSent = (run.tcpInfos cidr ports).countP (fun info => info.status = .notSent) +
    (run.echoOutcomes cidr ports).countP fun outcome => !outcome.transmitted

/-- **The account of a scan**: whatever the caches and the resolvers say, and whatever becomes of the probes, a host is
reported to have answered exactly if it was heard from, and an address as probed exactly if something left for it. -/
theorem scanSubnetExt_account (cidr : Ipv4Net) (ports : List UInt16) (enableIpv6 : Bool) (run : SweepRun)
    (sources : NameSources) : ScanAccount cidr ports run (scanSubnetExt cidr ports enableIpv6 run sources) := by
  have hsweep := sweepSubnet_account cidr ports run
  refine ⟨fun a ha => ?_, fun a ha => ?_, nodup_activeHosts cidr ports enableIpv6 run sources, fun a => ?_, ?_,
    hsweep.sent, hsweep.notSent⟩
  · rw [mem_activeHosts cidr ports enableIpv6 run sources ha]
    exact (hsweep.known a).answered
  · rw [mem_activeHosts cidr ports enableIpv6 run sources ha]
    exact (hsweep.known a).remembered
  · rw [← hsweep.probed]
    exact Finset.mem_sort _
  · exact Finset.sort_nodup _ _

/-- Every probe is counted as sent or as not sent. -/
theorem length_eq_countP {α : Type} (p : α → Bool) (l : List α) :
    l.length = l.countP p + l.countP fun a => !p a := by
  induction l with
  | nil => rfl
  | cons a l ih =>
    rw [List.length_cons, List.countP_cons, List.countP_cons, ih]
    cases p a <;> simp <;> omega

/-- **What a scan lists and counts.** Each address is listed once, as one that answered if it was heard from and as a
remembered one if only the cache has it. Every probe that comes to an end is counted once, and there is a reason for
not sending exactly if some echo was not sent. -/
theorem scan_lists (cidr : Ipv4Net) (ports : List UInt16) (enableIpv6 : Bool) (run : SweepRun) (sources : NameSources) :
    let summary := scanSubnetExt cidr ports enableIpv6 run sources
    (∀ a, a ≠ 0 → (a ∈ summary.activeHosts.map (·.ip) ↔
      a ∈ seedHosts cidr (arpMap cidr run.neighbours) ∨ run.Heard cidr ports a)) ∧
    (∀ a, a ≠ 0 → ((∃ h ∈ summary.activeHosts, h.ip = a ∧ h.liveness = .remembered) ↔
      a ∈ seedHosts cidr (arpMap cidr run.neighbours) ∧ ¬ run.Heard cidr ports a)) ∧
    ((summary.activeHosts.map (·.ip)).filter fun a => a ≠ 0).Nodup ∧
    summary.probesSent + summary.probesNotSent =
      (run.tcpInfos cidr ports).length + (run.echoOutcomes cidr ports).length ∧
    (summary.notSentReasons = ∅ ↔ ∀ outcome ∈ run.echoOutcomes cidr ports, outcome.transmitted = true) := by
  intro summary
  have haccount := scanSubnetExt_account cidr ports enableIpv6 run sources
  have hsweep := sweepSubnet_account cidr ports run
  refine ⟨fun a ha => ?_, haccount.remembered, haccount.once, ?_, ?_⟩
  · have heither : a ∈ summary.activeHosts.map (·.ip) ↔
        (∃ h ∈ summary.activeHosts, h.ip = a ∧ h.liveness = .answered) ∨
          ∃ h ∈ summary.activeHosts, h.ip = a ∧ h.liveness = .remembered := by
      rw [List.mem_map]
      constructor
      · rintro ⟨h, hmem, hip⟩
        cases hliveness : h.liveness with
        | answered => exact .inl ⟨h, hmem, hip, hliveness⟩
        | remembered => exact .inr ⟨h, hmem, hip, hliveness⟩
      · rintro (⟨h, hmem, hip, -⟩ | ⟨h, hmem, hip, -⟩) <;> exact ⟨h, hmem, hip⟩
    rw [heither, haccount.answered a ha, haccount.remembered a ha]
    by_cases hheard : run.Heard cidr ports a <;> simp [hheard]
  · rw [show summary.probesSent = _ from haccount.sent, show summary.probesNotSent = _ from haccount.notSent,
      length_eq_countP (fun info => info.status ≠ .notSent) (run.tcpInfos cidr ports),
      length_eq_countP (fun outcome => outcome.transmitted) (run.echoOutcomes cidr ports)]
    simp only [ne_eq, decide_not, Bool.not_not]
    omega
  · show (sweepSubnet cidr ports run).notSentReasons = ∅ ↔ _
    rw [Finset.eq_empty_iff_forall_notMem]
    simp only [hsweep.reasons, not_exists, not_and, ← AttemptOutcome.describeFailure_eq_none,
      Option.eq_none_iff_forall_ne_some]
    exact ⟨fun h outcome hmem reason => h reason outcome hmem, fun h reason outcome hmem => h outcome hmem reason⟩

end Idnx
