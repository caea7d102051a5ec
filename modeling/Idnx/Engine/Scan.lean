import Idnx.Lib.Keyed
import Idnx.Probes.Echo
import Idnx.Probes.Reach

/-!
# Sweeping a network

`sweepSubnet` asks every host of a network: TCP ports first, then an echo of every host that was not heard from. What
the neighbour cache says of a station puts it among the hosts and never among those that answered. A host answered
exactly if a connection to it was accepted or refused, or the reply to its own echo came from it; an address was probed
exactly if something left for it (`sweepSubnet_account`).
-/

namespace Idnx

namespace Ipv4Net

def broadcast (net : Ipv4Net) : Ipv4Addr := BitVec.ofNat 32 (net.network.toNat + (2 ^ (32 - net.prefixLen.val) - 1))

/-- The addresses a host may have, in order: on all but point-to-point links without the first and the last. -/
def hosts (net : Ipv4Net) : List Ipv4Addr :=
  let start := net.network.toNat
  let stop := net.broadcast.toNat
  let (start, stop) := if net.prefixLen < 31 then (min (start + 1) (2 ^ 32 - 1), stop - 1) else (start, stop)
  (List.range' start (stop + 1 - start)).map (BitVec.ofNat 32)

theorem nodup_hosts (net : Ipv4Net) : net.hosts.Nodup := by
  unfold hosts
  have hstop := net.broadcast.isLt
  split_ifs
  all_goals
    refine List.Nodup.map_on (fun x hx y hy heq => ?_) List.nodup_range'
    rw [List.mem_range'_1] at hx hy
    have := congrArg BitVec.toNat heq
    rw [BitVec.toNat_ofNat, BitVec.toNat_ofNat, Nat.mod_eq_of_lt (by omega), Nat.mod_eq_of_lt (by omega)] at this
    exact this

end Ipv4Net

/-! ## One port -/

/-- Why an operation on a socket failed (`std::io::ErrorKind`), as far as the scanner tells failures apart. -/
inductive ErrorKind where
  | connectionRefused
  | addrNotAvailable
  | addrInUse
  | invalidInput
  | permissionDenied
  | unsupported
  | other
  deriving DecidableEq, Repr

structure IoError where
  kind : ErrorKind
  text : Text

/-- Whether a connect error means the probe never left this machine. -/
def isLocalFailure (error : IoError) : Bool :=
  match error.kind with
  | .addrNotAvailable => true
  | .addrInUse => true
  | .invalidInput => true
  | .permissionDenied => true
  | .unsupported => true
  | _ => false

inductive PortStatus where
  | «open»
  | closed
  | filtered
  | notSent
  deriving DecidableEq, Repr

structure PortInfo where
  port : UInt16
  status : PortStatus
  latency : Option Nat
  localError : Option Text

/-- One attempt to connect: what came of it, and how long it took. -/
structure ConnectAttempt where
  result : Except IoError Unit
  elapsed : Nat

/-- Probes one TCP port. -/
def probeTcpSocket (port : UInt16) (attempt : ConnectAttempt) : PortInfo :=
  match attempt.result with
  | .ok _ => { port, status := .open, latency := some attempt.elapsed, localError := none }
  | .error e =>
    if e.kind = .connectionRefused then
      { port, status := .closed, latency := some attempt.elapsed, localError := none }
    else if isLocalFailure e then { port, status := .notSent, latency := none, localError := some e.text }
    else { port, status := .filtered, latency := none, localError := none }

/-- The host said something: it took the connection or refused it. -/
def ConnectAttempt.Heard (attempt : ConnectAttempt) : Prop :=
  attempt.result = .ok () ∨ ∃ e, attempt.result = .error e ∧ e.kind = .connectionRefused

/-- The probe left this machine. -/
def ConnectAttempt.Left (attempt : ConnectAttempt) : Prop := ∀ e, attempt.result = .error e → isLocalFailure e = false

/-! ## One host -/

/-- One host's TCP sweep, with what actually reached the wire. -/
structure HostScan where
  alive : Bool := false
  openPorts : List PortInfo := []
  minLatency : Option Nat := none
  sent : Nat := 0
  notSent : Nat := 0

/-- The shorter latency, where there is one to compare with. -/
def shorter (least : Option Nat) (latency : Nat) : Option Nat := some (least.elim latency fun m => min m latency)

/-- Takes one port's result in. -/
def HostScan.record (scan : HostScan) (info : PortInfo) : HostScan :=
  let scan := if info.status = .notSent then { scan with notSent := scan.notSent + 1 }
    else { scan with sent := scan.sent + 1 }
  if info.status = .open then
    { scan with
      alive := true
      minLatency := info.latency.elim scan.minLatency (shorter scan.minLatency)
      openPorts := scan.openPorts ++ [info] }
  else if info.status = .closed then
    { scan with
      alive := true
      minLatency := info.latency.elim scan.minLatency (shorter scan.minLatency) }
  else scan

/-- The results of the tasks that end, in the order of the ports. -/
def portInfos (ports : List UInt16) (attempts : Nat → Option ConnectAttempt) : List PortInfo :=
  ports.zipIdx.filterMap fun p => (attempts p.2).map (probeTcpSocket p.1)

/-- Scans a single host across ports; `attempts` are the tasks, and a task that is lost gives nothing. -/
def scanHostTcp (ports : List UInt16) (attempts : Nat → Option ConnectAttempt) : HostScan :=
  let scan := (portInfos ports attempts).foldl HostScan.record {}
  { scan with openPorts := scan.openPorts.insertionSort fun a b => a.port ≤ b.port }

/-! ## The hosts of a network -/

structure ArpEntry where
  ip : Ipv4Addr
  mac : Text
  hostname : Option Text
  vendor : Option Text

/-- How a host's liveness was established. -/
inductive HostLiveness where
  | answered
  | remembered
  deriving DecidableEq, Repr

structure HostResult where
  ip : Ipv4Addr
  isAlive : Bool
  liveness : HostLiveness
  hostname : Option Text
  macAddress : Option Text
  vendor : Option Text
  openPorts : List PortInfo
  minLatency : Option Nat
  ipv6Addrs : List Ipv6Addr

/-- A host nobody knew of before it answered. -/
def HostResult.heard (ip : Ipv4Addr) : HostResult where
  ip
  isAlive := true
  liveness := .answered
  hostname := none
  macAddress := none
  vendor := none
  openPorts := []
  minLatency := none
  ipv6Addrs := []

/-- A host the neighbour cache remembers. -/
def HostResult.cached (arp : ArpEntry) (ip : Ipv4Addr) : HostResult where
  ip
  isAlive := true
  liveness := .remembered
  hostname := arp.hostname
  macAddress := some arp.mac
  vendor := arp.vendor
  openPorts := []
  minLatency := none
  ipv6Addrs := []

/-- What the neighbour cache holds of a network; of two entries for an address the later one. -/
def arpMap (cidr : Ipv4Net) (entries : List ArpEntry) : Map Ipv4Addr ArpEntry :=
  entries.foldl (fun m entry => if cidr.contains entry.ip then AList.insert entry.ip entry m else m) ∅

/-- An entry that stands for no station. -/
def isGroupEntry (cidr : Ipv4Net) (ip : Ipv4Addr) (arp : ArpEntry) : Bool :=
  ip == cidr.broadcast || ip.isBroadcast || arp.mac == ("ff:ff:ff:ff:ff:ff" : Text) || ip.isMulticast

/-- The hosts before anything is asked. -/
def seedHosts (cidr : Ipv4Net) (arp : Map Ipv4Addr ArpEntry) : Map Ipv4Addr HostResult :=
  arp.entries.foldl (fun hosts e =>
    if isGroupEntry cidr e.1 e.2 then hosts else AList.insert e.1 (.cached e.2 e.1) hosts) ∅

/-- What a sweep has found, and what it has sent. -/
structure Sweep where
  hosts : Map Ipv4Addr HostResult
  probesSent : Nat := 0
  probesNotSent : Nat := 0
  probedAddresses : Finset Ipv4Addr := ∅
  notSentReasons : Finset Text := ∅

/-- What a scan that was answered makes of a host. -/
def HostScan.answer (scan : HostScan) (entry : HostResult) : HostResult :=
  { entry with
    isAlive := true
    liveness := .answered
    openPorts := scan.openPorts
    minLatency := scan.minLatency.or entry.minLatency }

/-- What a scan that was not answered makes of a host. -/
def HostScan.keep (scan : HostScan) (entry : HostResult) : HostResult :=
  { entry with openPorts := scan.openPorts, minLatency := scan.minLatency.or entry.minLatency }

/-- Merges one host's TCP findings, and counts what actually went out. -/
def Sweep.mergeTcp (sweep : Sweep) (task : Ipv4Addr × HostScan) : Sweep :=
  let (ip, scan) := task
  { sweep with
    probesSent := sweep.probesSent + scan.sent
    probesNotSent := sweep.probesNotSent + scan.notSent
    probedAddresses := if 0 < scan.sent then insert ip sweep.probedAddresses else sweep.probedAddresses
    hosts :=
      if scan.alive || !scan.openPorts.isEmpty then
        sweep.hosts.upd ip fun existing => scan.answer (existing.getD (.heard ip))
      else sweep.hosts.modify ip scan.keep }

/-- Whether an address still needs an echo after the TCP pass. -/
def needsEcho (existing : Option HostResult) : Bool := existing.all fun host => host.liveness != .answered

/-- Records one echo attempt against the sweep's counters. -/
def accountEcho (address : Ipv4Addr) (outcome : AttemptOutcome Ipv4Addr) (sweep : Sweep) : Sweep :=
  if outcome.transmitted then
    { sweep with
      probesSent := sweep.probesSent + 1
      probedAddresses := insert address sweep.probedAddresses }
  else
    { sweep with
      probesNotSent := sweep.probesNotSent + 1
      notSentReasons := outcome.describeFailure.elim sweep.notSentReasons fun reason =>
        insert reason sweep.notSentReasons }

/-- Merges what came of one echo. -/
def Sweep.mergeEcho (sweep : Sweep) (task : Ipv4Addr × AttemptOutcome Ipv4Addr) : Sweep :=
  let (ip, outcome) := task
  let sweep := accountEcho ip outcome sweep
  if outcome.result.isSome then
    { sweep with
      hosts := sweep.hosts.upd ip fun existing => { existing.getD (.heard ip) with liveness := .answered } }
  else sweep

/-- What a sweep meets: the system's neighbour cache, and per address what becomes of the connections, one for each
port, and of the echo. A task that is lost gives nothing. -/
structure SweepRun where
  neighbours : List ArpEntry
  connections : Ipv4Addr → Option (Nat → Option ConnectAttempt)
  identifier : UInt16
  echoes : Ipv4Addr → Option (Option EchoSocket)

namespace SweepRun

variable (run : SweepRun) (cidr : Ipv4Net) (ports : List UInt16)

/-- The scan of a host, if its task ends. -/
def scanOf (ip : Ipv4Addr) : Option HostScan := (run.connections ip).map (scanHostTcp ports)

/-- The echo of a host, if its task ends. -/
def echoOf (ip : Ipv4Addr) (sequence : Nat) : Option (AttemptOutcome Ipv4Addr) :=
  (run.echoes ip).map (echo ip run.identifier (UInt16.ofNat sequence))

def tcpTasks : List (Ipv4Addr × HostScan) :=
  cidr.hosts.filterMap fun ip => (run.scanOf ports ip).map fun scan => (ip, scan)

/-- One sequence per address. -/
def echoTasks (missing : List Ipv4Addr) : List (Ipv4Addr × AttemptOutcome Ipv4Addr) :=
  missing.zipIdx.filterMap fun p => (run.echoOf p.1 p.2).map fun outcome => (p.1, outcome)

/-- The sweep up to the echoes. -/
def sweepTcp : Sweep :=
  (run.tcpTasks cidr ports).foldl Sweep.mergeTcp { hosts := seedHosts cidr (arpMap cidr run.neighbours) }

end SweepRun

/-- Asks every host of a network for its TCP ports, and who was not heard from for an echo. -/
def sweepSubnet (cidr : Ipv4Net) (ports : List UInt16) (run : SweepRun) : Sweep :=
  let sweep := run.sweepTcp cidr ports
  let missing := cidr.hosts.filter fun ip => needsEcho (sweep.hosts.lookup ip)
  (run.echoTasks missing).foldl Sweep.mergeEcho sweep

/-! ## What a port and a host say -/

section Host

variable {port : UInt16} {attempt : ConnectAttempt} {ports : List UInt16} {attempts : Nat → Option ConnectAttempt}

theorem probeTcpSocket_heard_iff : attempt.Heard ↔
    (probeTcpSocket port attempt).status = .open ∨ (probeTcpSocket port attempt).status = .closed := by
  unfold ConnectAttempt.Heard probeTcpSocket
  cases hresult : attempt.result with
  | ok _ => simp
  | error e => dsimp only; split_ifs with hrefused hlocal <;> simp [hrefused]

theorem probeTcpSocket_left_iff : attempt.Left ↔ (probeTcpSocket port attempt).status ≠ .notSent := by
  unfold ConnectAttempt.Left probeTcpSocket
  cases hresult : attempt.result with
  | ok _ => simp
  | error e =>
    dsimp only
    split_ifs with hrefused hlocal
    · simp [isLocalFailure, hrefused]
    · simp [hlocal]
    · simp [hlocal]

/-- Who is heard from has been sent to. -/
theorem ConnectAttempt.Heard.left (h : attempt.Heard) : attempt.Left := by
  have hstatus : (probeTcpSocket 0 attempt).status = .open ∨ (probeTcpSocket 0 attempt).status = .closed := by
    rwa [← probeTcpSocket_heard_iff]
  have hsent : (probeTcpSocket 0 attempt).status ≠ .notSent := by
    rcases hstatus with hopen | hclosed
    · simp [hopen]
    · simp [hclosed]
  rwa [← probeTcpSocket_left_iff] at hsent

/-- What one result adds to a scan. -/
theorem record_adds (scan : HostScan) (info : PortInfo) :
    ((scan.record info).alive = true ↔ scan.alive = true ∨ info.status = .open ∨ info.status = .closed) ∧
    (scan.record info).openPorts = scan.openPorts ++ (if info.status = .open then [info] else []) ∧
    (scan.record info).sent = scan.sent + (if info.status ≠ .notSent then 1 else 0) ∧
    (scan.record info).notSent = scan.notSent + (if info.status = .notSent then 1 else 0) := by
  unfold HostScan.record
  cases info.status <;> simp

/-- What the results of a host add up to. -/
theorem foldl_record (infos : List PortInfo) (scan : HostScan) :
    ((infos.foldl HostScan.record scan).alive = true ↔
      scan.alive = true ∨ ∃ info ∈ infos, info.status = .open ∨ info.status = .closed) ∧
    (infos.foldl HostScan.record scan).openPorts = scan.openPorts ++ infos.filter (fun info => info.status = .open) ∧
    (infos.foldl HostScan.record scan).sent = scan.sent + infos.countP (fun info => info.status ≠ .notSent) ∧
    (infos.foldl HostScan.record scan).notSent = scan.notSent + infos.countP (fun info => info.status = .notSent) := by
  induction infos generalizing scan with
  | nil => simp
  | cons info infos ih =>
    obtain ⟨halive, hopen, hsent, hnot⟩ := record_adds scan info
    obtain ⟨ihalive, ihopen, ihsent, ihnot⟩ := ih (scan.record info)
    rw [List.foldl_cons]
    refine ⟨?_, ?_, ?_, ?_⟩
    · rw [ihalive, halive, List.exists_mem_cons_iff, or_assoc]
    · rw [ihopen, hopen, List.append_assoc, List.filter_cons]
      split_ifs <;> simp_all
    · rw [ihsent, hsent, List.countP_cons]
      simp only [decide_eq_true_eq]
      omega
    · rw [ihnot, hnot, List.countP_cons]
      simp only [decide_eq_true_eq]
      omega

theorem mem_portInfos {info : PortInfo} : info ∈ portInfos ports attempts ↔
    ∃ i, ∃ h : i < ports.length, ∃ attempt, attempts i = some attempt ∧ info = probeTcpSocket ports[i] attempt := by
  simp only [portInfos, List.mem_filterMap, Option.map_eq_some_iff, Prod.exists, List.mem_zipIdx_iff_getElem?,
    List.getElem?_eq_some_iff]
  constructor
  · rintro ⟨p, i, ⟨h, hp⟩, attempt, hattempt, rfl⟩
    exact ⟨i, h, attempt, hattempt, by rw [hp]⟩
  · rintro ⟨i, h, attempt, hattempt, rfl⟩
    exact ⟨_, i, ⟨h, rfl⟩, attempt, hattempt, rfl⟩

theorem scanHostTcp_alive : (scanHostTcp ports attempts).alive = true ↔
    ∃ i < ports.length, ∃ attempt, attempts i = some attempt ∧ attempt.Heard := by
  rw [scanHostTcp, (foldl_record _ _).1]
  simp only [Bool.false_eq_true, false_or, mem_portInfos]
  constructor
  · rintro ⟨-, ⟨i, hi, attempt, hattempt, rfl⟩, hstatus⟩
    rw [← probeTcpSocket_heard_iff] at hstatus
    exact ⟨i, hi, attempt, hattempt, hstatus⟩
  · rintro ⟨i, hi, attempt, hattempt, hheard⟩
    exact ⟨_, ⟨i, hi, attempt, hattempt, rfl⟩, by rwa [← probeTcpSocket_heard_iff]⟩

theorem scanHostTcp_sent : 0 < (scanHostTcp ports attempts).sent ↔
    ∃ i < ports.length, ∃ attempt, attempts i = some attempt ∧ attempt.Left := by
  rw [scanHostTcp, (foldl_record _ _).2.2.1, Nat.zero_add, List.countP_pos_iff]
  simp only [decide_eq_true_eq, mem_portInfos]
  constructor
  · rintro ⟨-, ⟨i, hi, attempt, hattempt, rfl⟩, hstatus⟩
    rw [← probeTcpSocket_left_iff] at hstatus
    exact ⟨i, hi, attempt, hattempt, hstatus⟩
  · rintro ⟨i, hi, attempt, hattempt, hleft⟩
    exact ⟨_, ⟨i, hi, attempt, hattempt, rfl⟩, by rwa [← probeTcpSocket_left_iff]⟩

theorem probeTcpSocket_open_iff : attempt.result = .ok () ↔ (probeTcpSocket port attempt).status = .open := by
  unfold probeTcpSocket
  cases hresult : attempt.result with
  | ok _ => simp
  | error e => dsimp only; split_ifs <;> simp

theorem scanHostTcp_openPorts : (scanHostTcp ports attempts).openPorts ≠ [] ↔
    ∃ i < ports.length, ∃ attempt, attempts i = some attempt ∧ attempt.result = .ok () := by
  have hmem : ∀ info, info ∈ (scanHostTcp ports attempts).openPorts ↔
      info ∈ portInfos ports attempts ∧ info.status = .open := by
    intro info
    rw [scanHostTcp, List.mem_insertionSort, (foldl_record _ _).2.1, List.nil_append, List.mem_filter,
      decide_eq_true_iff]
  rw [← List.length_pos_iff, List.length_pos_iff_exists_mem]
  simp only [hmem, mem_portInfos]
  constructor
  · rintro ⟨info, ⟨i, hi, attempt, hattempt, rfl⟩, hopen⟩
    rw [← probeTcpSocket_open_iff] at hopen
    exact ⟨i, hi, attempt, hattempt, hopen⟩
  · rintro ⟨i, hi, attempt, hattempt, hopen⟩
    exact ⟨_, ⟨i, hi, attempt, hattempt, rfl⟩, by rwa [← probeTcpSocket_open_iff]⟩

/-- A host with an open port is alive. -/
theorem scanHostTcp_answered : ((scanHostTcp ports attempts).alive || !(scanHostTcp ports attempts).openPorts.isEmpty) =
    (scanHostTcp ports attempts).alive := by
  rw [Bool.or_eq_left_iff_imp]
  intro hne
  rw [Bool.not_eq_true', List.isEmpty_eq_false_iff_exists_mem] at hne
  obtain ⟨info, hinfo⟩ := hne
  rw [scanHostTcp, List.mem_insertionSort, (foldl_record _ _).2.1, List.nil_append, List.mem_filter,
    decide_eq_true_eq] at hinfo
  rw [scanHostTcp, (foldl_record _ _).1]
  exact .inr ⟨info, hinfo.1, .inl hinfo.2⟩

end Host

/-! ## Who is heard from, and what leaves -/

namespace SweepRun

variable (run : SweepRun) (cidr : Ipv4Net) (ports : List UInt16) (a : Ipv4Addr)

/-- A connection to the address was accepted or refused. -/
def TcpHeard : Prop := ∃ attempts, run.connections a = some attempts ∧
  ∃ i < ports.length, ∃ attempt, attempts i = some attempt ∧ attempt.Heard

/-- A connection to the address was accepted. -/
def TcpAccepted : Prop := ∃ attempts, run.connections a = some attempts ∧
  ∃ i < ports.length, ∃ attempt, attempts i = some attempt ∧ attempt.result = .ok ()

/-- A connection attempt to the address left this machine. -/
def TcpLeft : Prop := ∃ attempts, run.connections a = some attempts ∧
  ∃ i < ports.length, ∃ attempt, attempts i = some attempt ∧ attempt.Left

theorem tcpHeard_iff : run.TcpHeard ports a ↔ (run.scanOf ports a).any (fun scan => scan.alive) = true := by
  rw [TcpHeard, scanOf]
  cases run.connections a with
  | none => simp
  | some attempts => simp [scanHostTcp_alive]

theorem tcpAccepted_iff : run.TcpAccepted ports a ↔ ∃ scan, run.scanOf ports a = some scan ∧ scan.openPorts ≠ [] := by
  rw [TcpAccepted, scanOf]
  cases run.connections a with
  | none => simp
  | some attempts => simp [scanHostTcp_openPorts]

instance : Decidable (run.TcpHeard ports a) := decidable_of_iff _ (tcpHeard_iff run ports a).symm

/-- The hosts that are asked for an echo. -/
def unheard : List Ipv4Addr := cidr.hosts.filter fun a => ¬ run.TcpHeard ports a

/-- The number of the echo of an address. -/
def sequenceOf : UInt16 := UInt16.ofNat ((run.unheard cidr ports).idxOf a)

/-- An echo of the address left this machine. -/
def EchoLeft : Prop := ∃ socket, run.echoes a = some (some socket) ∧ socket.bound = true ∧ socket.sent = true

/-- The reply to its own echo came from the address. -/
def EchoHeard : Prop := ∃ socket, run.echoes a = some (some socket) ∧ socket.bound = true ∧ socket.sent = true ∧
  ∃ r ∈ socket.received, r.sender = a ∧
    ∃ reply : EchoReply run.identifier (run.sequenceOf cidr ports a), r.datagram.take 1500 = reply.bytes

/-- The address was heard from during this run. -/
def Heard : Prop := a ∈ cidr.hosts ∧ (run.TcpHeard ports a ∨ run.EchoHeard cidr ports a)

/-- Something left this machine for the address. -/
def Probed : Prop := a ∈ cidr.hosts ∧ (run.TcpLeft ports a ∨ ¬ run.TcpHeard ports a ∧ run.EchoLeft a)

variable {run cidr ports a}

theorem TcpHeard.left (h : run.TcpHeard ports a) : run.TcpLeft ports a := by
  obtain ⟨attempts, hattempts, i, hi, attempt, hattempt, hheard⟩ := h
  exact ⟨attempts, hattempts, i, hi, attempt, hattempt, hheard.left⟩

theorem TcpAccepted.heard (h : run.TcpAccepted ports a) : run.TcpHeard ports a := by
  obtain ⟨attempts, hattempts, i, hi, attempt, hattempt, hopen⟩ := h
  exact ⟨attempts, hattempts, i, hi, attempt, hattempt, .inl hopen⟩

/-- Who is heard from has been asked. -/
theorem Heard.probed (h : run.Heard cidr ports a) : run.Probed cidr ports a := by
  refine ⟨h.1, ?_⟩
  by_cases htcp : run.TcpHeard ports a
  · exact .inl htcp.left
  · obtain ⟨socket, hsocket, hbound, hsent, -⟩ := h.2.resolve_left htcp
    exact .inr ⟨htcp, socket, hsocket, hbound, hsent⟩

end SweepRun

/-! ## What is known of a host -/

/-- What a sweep knows of an address: that a host is there if the cache remembers one or one was heard, and that it
answered if it was heard. Only the cache gives it a hardware address, and it has an open port if a connection to it
was accepted. -/
structure HostKnown (a : Ipv4Addr) (cached accepted heard : Prop) (known : Option HostResult) : Prop where
  ip : ∀ h ∈ known, h.ip = a
  answered : (∃ h ∈ known, h.liveness = .answered) ↔ heard
  listed : known.isSome = true ↔ cached ∨ heard
  hardware : ∀ h ∈ known, h.macAddress.isSome = true ↔ cached
  openPorts : ∀ h ∈ known, h.openPorts ≠ [] ↔ accepted

section Known

variable {a : Ipv4Addr} {cached accepted heard : Prop} {known : Option HostResult}

theorem HostKnown.needsEcho (h : HostKnown a cached accepted heard known) : needsEcho known = true ↔ ¬ heard := by
  rw [← h.answered]
  cases known with
  | none => simp [Idnx.needsEcho]
  | some host => simp [Idnx.needsEcho]

/-- Who is only remembered is in the cache and was not heard. -/
theorem HostKnown.remembered (h : HostKnown a cached accepted heard known) :
    (∃ host ∈ known, host.liveness = .remembered) ↔ cached ∧ ¬ heard := by
  have hlisted := h.listed
  have hanswered := h.answered
  cases known with
  | none =>
    rw [Option.isSome_none, eq_comm (a := false), iff_comm] at hlisted
    simp only [Option.not_mem_none, false_and, exists_false, false_iff, not_and, not_not]
    intro hcached
    exact absurd (hlisted.mp (.inl hcached)) (by decide)
  | some host =>
    simp only [Option.mem_some_iff, exists_eq_left', Option.isSome_some, true_iff] at hlisted hanswered ⊢
    cases hliveness : host.liveness with
    | answered =>
      have hheard := hanswered.mp hliveness
      simp [hheard]
    | remembered =>
      rw [hliveness] at hanswered
      have hheard : ¬ heard := fun hheard => by cases hanswered.mpr hheard
      simp [hheard, hlisted.resolve_right hheard]

/-- What a scan makes of what was known of its host. -/
def HostScan.onto (scan : HostScan) (ip : Ipv4Addr) (known : Option HostResult) : Option HostResult :=
  if scan.alive || !scan.openPorts.isEmpty then some (scan.answer (known.getD (.heard ip))) else known.map scan.keep

theorem HostKnown.hardware_getD (h : HostKnown a cached accepted heard known) :
    (known.getD (.heard a)).macAddress.isSome = true ↔ cached := by
  cases known with
  | none =>
    have hnone : ¬ cached := fun hcached => by cases h.listed.mpr (.inl hcached)
    exact iff_of_false Bool.false_ne_true hnone
  | some host => exact h.hardware host rfl

theorem HostKnown.ip_getD (h : HostKnown a cached accepted heard known) : (known.getD (.heard a)).ip = a := by
  cases known with
  | none => rfl
  | some host => exact h.ip host rfl

theorem HostKnown.onto {ports : List UInt16} {attempts : Nat → Option ConnectAttempt}
    (h : HostKnown a cached False False known) :
    HostKnown a cached ((scanHostTcp ports attempts).openPorts ≠ []) ((scanHostTcp ports attempts).alive = true)
      ((scanHostTcp ports attempts).onto a known) := by
  rw [HostScan.onto, scanHostTcp_answered]
  generalize scanHostTcp ports attempts = scan
  cases halive : scan.alive with
  | true =>
    refine ⟨?_, ?_, ?_, ?_, ?_⟩
    · intro host hhost
      cases Option.mem_some_iff.mp hhost
      exact h.ip_getD
    · simp [HostScan.answer]
    · simp
    · intro host hhost
      cases Option.mem_some_iff.mp hhost
      exact h.hardware_getD
    · intro host hhost
      cases Option.mem_some_iff.mp hhost
      exact Iff.rfl
  | false =>
    have hlisted := h.listed
    have hanswered := h.answered
    refine ⟨?_, ?_, ?_, ?_, ?_⟩
    · intro host hhost
      obtain ⟨host', hhost', rfl⟩ := Option.map_eq_some_iff.mp hhost
      exact h.ip host' hhost'
    · cases known with
      | none => simp
      | some host => simpa [HostScan.keep] using hanswered
    · simpa using hlisted
    · intro host hhost
      obtain ⟨host', hhost', rfl⟩ := Option.map_eq_some_iff.mp hhost
      exact h.hardware host' hhost'
    · intro host hhost
      obtain ⟨host', -, rfl⟩ := Option.map_eq_some_iff.mp hhost
      exact Iff.rfl

/-- What the echo of a host makes of what was known of it. -/
def echoOnto (ip : Ipv4Addr) (outcome : AttemptOutcome Ipv4Addr) (known : Option HostResult) : Option HostResult :=
  if outcome.result.isSome then some { known.getD (.heard ip) with liveness := .answered } else known

theorem HostKnown.echoOnto (outcome : AttemptOutcome Ipv4Addr) (hunheard : ¬ accepted)
    (h : HostKnown a cached accepted heard known) :
    HostKnown a cached accepted (heard ∨ outcome.result.isSome = true) (echoOnto a outcome known) := by
  unfold Idnx.echoOnto
  cases houtcome : outcome.result.isSome with
  | false => simpa using h
  | true =>
    refine ⟨?_, ?_, ?_, ?_, ?_⟩
    · intro host hhost
      cases Option.mem_some_iff.mp hhost
      exact h.ip_getD
    · simp
    · simp
    · intro host hhost
      cases Option.mem_some_iff.mp hhost
      exact h.hardware_getD
    · intro host hhost
      cases Option.mem_some_iff.mp hhost
      cases known with
      | none => exact iff_of_false (not_not_intro rfl) hunheard
      | some host => exact h.openPorts host rfl

end Known

/-! ## The account of a sweep -/

/-- The hosts of the cache, none of which has answered. -/
theorem hostKnown_seedHosts (cidr : Ipv4Net) (arp : Map Ipv4Addr ArpEntry) (a : Ipv4Addr) :
    HostKnown a (a ∈ seedHosts cidr arp) False False ((seedHosts cidr arp).lookup a) := by
  suffices ∀ h, (seedHosts cidr arp).lookup a = some h → ∃ entry, h = .cached entry a by
    refine ⟨fun h hh => ?_, ?_, ?_, fun h hh => ?_, fun h hh => ?_⟩
    · obtain ⟨entry, rfl⟩ := this h hh
      rfl
    · rw [iff_false]
      rintro ⟨h, hh, hanswered⟩
      obtain ⟨entry, rfl⟩ := this h hh
      cases hanswered
    · rw [or_false]
      exact AList.lookup_isSome
    · obtain ⟨entry, rfl⟩ := this h hh
      exact iff_of_true rfl (Map.mem_of_lookup hh)
    · obtain ⟨entry, rfl⟩ := this h hh
      exact iff_of_false (not_not_intro rfl) id
  unfold seedHosts
  generalize arp.entries = entries
  have hstart : ∀ h, (∅ : Map Ipv4Addr HostResult).lookup a = some h → ∃ entry, h = .cached entry a := by
    intro h hh
    rw [AList.lookup_empty] at hh
    cases hh
  generalize (∅ : Map Ipv4Addr HostResult) = hosts at hstart ⊢
  induction entries generalizing hosts with
  | nil => exact hstart
  | cons e entries ih =>
    rw [List.foldl_cons]
    refine ih _ fun h hh => ?_
    split_ifs at hh
    · exact hstart h hh
    · rw [Map.lookup_insert_ite] at hh
      split_ifs at hh with heq
      · subst heq
        exact ⟨e.2, (Option.some.inj hh).symm⟩
      · exact hstart h hh

section Merges

variable {sweep : Sweep} {a : Ipv4Addr}

theorem lookup_mergeTcp (sweep : Sweep) (task : Ipv4Addr × HostScan) (a : Ipv4Addr) :
    (sweep.mergeTcp task).hosts.lookup a =
      if a = task.1 then task.2.onto task.1 (sweep.hosts.lookup a) else sweep.hosts.lookup a := by
  obtain ⟨ip, scan⟩ := task
  unfold Sweep.mergeTcp HostScan.onto
  dsimp only
  by_cases hanswered : (scan.alive || !scan.openPorts.isEmpty) = true
  · rw [if_pos hanswered, if_pos hanswered, Map.lookup_upd]
    split_ifs with h
    · rw [h]
    · rfl
  · rw [if_neg hanswered, if_neg hanswered, Map.lookup_modify]
    split_ifs with h
    · rw [h]
    · rfl

theorem lookup_mergeEcho (sweep : Sweep) (task : Ipv4Addr × AttemptOutcome Ipv4Addr) (a : Ipv4Addr) :
    (sweep.mergeEcho task).hosts.lookup a =
      if a = task.1 then echoOnto task.1 task.2 (sweep.hosts.lookup a) else sweep.hosts.lookup a := by
  obtain ⟨ip, outcome⟩ := task
  have hhosts : (accountEcho ip outcome sweep).hosts = sweep.hosts := by
    unfold accountEcho
    split <;> rfl
  unfold Sweep.mergeEcho echoOnto
  dsimp only
  by_cases hresult : outcome.result.isSome = true
  · rw [if_pos hresult, if_pos hresult, Map.lookup_upd, hhosts]
    split_ifs with h
    · rw [h]
    · rfl
  · rw [if_neg hresult, if_neg hresult, hhosts, ite_self]

/-- What the TCP scans add to the counters. -/
theorem foldl_mergeTcp (tasks : List (Ipv4Addr × HostScan)) (sweep : Sweep) :
    (∀ a, a ∈ (tasks.foldl Sweep.mergeTcp sweep).probedAddresses ↔
      a ∈ sweep.probedAddresses ∨ ∃ task ∈ tasks, task.1 = a ∧ 0 < task.2.sent) ∧
    (tasks.foldl Sweep.mergeTcp sweep).probesSent = sweep.probesSent + (tasks.map fun task => task.2.sent).sum ∧
    (tasks.foldl Sweep.mergeTcp sweep).probesNotSent =
      sweep.probesNotSent + (tasks.map fun task => task.2.notSent).sum ∧
    (tasks.foldl Sweep.mergeTcp sweep).notSentReasons = sweep.notSentReasons := by
  induction tasks generalizing sweep with
  | nil => simp
  | cons task tasks ih =>
    obtain ⟨hprobed, hsent, hnot, hreasons⟩ := ih (sweep.mergeTcp task)
    rw [List.foldl_cons]
    refine ⟨fun a => ?_, ?_, ?_, hreasons⟩
    · rw [hprobed, List.exists_mem_cons_iff, ← or_assoc]
      refine or_congr_left ?_
      show a ∈ (if 0 < task.2.sent then insert task.1 sweep.probedAddresses else sweep.probedAddresses) ↔ _
      split_ifs with h
      · rw [Finset.mem_insert, and_iff_left h, or_comm, eq_comm]
      · simp [h]
    · rw [hsent, List.map_cons, List.sum_cons]
      exact Nat.add_assoc _ _ _
    · rw [hnot, List.map_cons, List.sum_cons]
      exact Nat.add_assoc _ _ _

/-- What the echoes add to the counters. -/
theorem foldl_mergeEcho (tasks : List (Ipv4Addr × AttemptOutcome Ipv4Addr)) (sweep : Sweep) :
    (∀ a, a ∈ (tasks.foldl Sweep.mergeEcho sweep).probedAddresses ↔
      a ∈ sweep.probedAddresses ∨ ∃ task ∈ tasks, task.1 = a ∧ task.2.transmitted = true) ∧
    (tasks.foldl Sweep.mergeEcho sweep).probesSent = sweep.probesSent + tasks.countP (fun task => task.2.transmitted) ∧
    (tasks.foldl Sweep.mergeEcho sweep).probesNotSent =
      sweep.probesNotSent + tasks.countP (fun task => !task.2.transmitted) ∧
    ∀ reason, reason ∈ (tasks.foldl Sweep.mergeEcho sweep).notSentReasons ↔
      reason ∈ sweep.notSentReasons ∨ ∃ task ∈ tasks, task.2.describeFailure = some reason := by
  induction tasks generalizing sweep with
  | nil => simp
  | cons task tasks ih =>
    obtain ⟨hprobed, hsent, hnot, hreasons⟩ := ih (sweep.mergeEcho task)
    have hstep : (sweep.mergeEcho task).probedAddresses = (accountEcho task.1 task.2 sweep).probedAddresses ∧
        (sweep.mergeEcho task).probesSent = (accountEcho task.1 task.2 sweep).probesSent ∧
        (sweep.mergeEcho task).probesNotSent = (accountEcho task.1 task.2 sweep).probesNotSent ∧
        (sweep.mergeEcho task).notSentReasons = (accountEcho task.1 task.2 sweep).notSentReasons := by
      unfold Sweep.mergeEcho
      dsimp only
      split <;> exact ⟨rfl, rfl, rfl, rfl⟩
    rw [hstep.1] at hprobed
    rw [hstep.2.1] at hsent
    rw [hstep.2.2.1] at hnot
    rw [hstep.2.2.2] at hreasons
    rw [List.foldl_cons, List.countP_cons, List.countP_cons]
    simp only [List.exists_mem_cons_iff, ← or_assoc]
    unfold accountEcho at hprobed hsent hnot hreasons
    cases htransmitted : task.2.transmitted with
    | true =>
      have hnone := AttemptOutcome.describeFailure_eq_none.mpr htransmitted
      rw [htransmitted] at hprobed hsent hnot hreasons
      simp only [if_true] at hprobed hsent hnot hreasons
      refine ⟨fun a => ?_, ?_, ?_, fun reason => ?_⟩
      · rw [hprobed, Finset.mem_insert, and_iff_left rfl, or_comm (a := a = task.1), eq_comm (a := a)]
      · rw [hsent]
        simp
        omega
      · rw [hnot]
        simp
      · rw [hreasons, hnone]
        simp
    | false =>
      rw [htransmitted] at hprobed hsent hnot hreasons
      simp only [Bool.false_eq_true, if_false] at hprobed hsent hnot hreasons
      refine ⟨fun a => ?_, ?_, ?_, fun reason => ?_⟩
      · rw [hprobed]
        simp
      · rw [hsent]
        simp
      · rw [hnot]
        simp
        omega
      · rw [hreasons]
        refine or_congr_left ?_
        cases task.2.describeFailure with
        | none => simp
        | some text =>
          rw [Option.elim_some, Finset.mem_insert, Option.some.injEq, or_comm, eq_comm]

end Merges

section Account

variable (cidr : Ipv4Net) (ports : List UInt16) (run : SweepRun)

/-- What is known of an address once the ports have been asked for. -/
theorem known_sweepTcp (a : Ipv4Addr) : HostKnown a (a ∈ seedHosts cidr (arpMap cidr run.neighbours))
    (a ∈ cidr.hosts ∧ run.TcpAccepted ports a) (a ∈ cidr.hosts ∧ run.TcpHeard ports a)
    ((run.sweepTcp cidr ports).hosts.lookup a) := by
  have hseed := hostKnown_seedHosts cidr (arpMap cidr run.neighbours) a
  have hlook := look_foldl_keyed (fun (sweep : Sweep) a => sweep.hosts.lookup a) lookup_mergeTcp
    (run.tcpTasks cidr ports) { hosts := seedHosts cidr (arpMap cidr run.neighbours) } a
  rw [SweepRun.tcpTasks, filter_keyed cidr.nodup_hosts] at hlook
  rw [SweepRun.sweepTcp, SweepRun.tcpTasks]
  refine hlook ▸ ?_
  by_cases ha : a ∈ cidr.hosts
  · rw [if_pos ha, and_iff_right ha, and_iff_right ha, SweepRun.tcpHeard_iff, SweepRun.tcpAccepted_iff, SweepRun.scanOf]
    cases run.connections a with
    | none => simpa using hseed
    | some attempts => simpa using hseed.onto
  · rw [if_neg ha, eq_false fun h : a ∈ cidr.hosts ∧ run.TcpHeard ports a => ha h.1,
      eq_false fun h : a ∈ cidr.hosts ∧ run.TcpAccepted ports a => ha h.1]
    exact hseed

/-- Who is asked for an echo. -/
theorem missing_eq_unheard : cidr.hosts.filter (fun ip => needsEcho ((run.sweepTcp cidr ports).hosts.lookup ip)) =
    run.unheard cidr ports := by
  refine List.filter_congr fun a ha => ?_
  rw [Bool.eq_iff_iff, (known_sweepTcp cidr ports run a).needsEcho, and_iff_right ha, decide_eq_true_iff]

theorem sweepSubnet_eq : sweepSubnet cidr ports run =
    (run.echoTasks (run.unheard cidr ports)).foldl Sweep.mergeEcho (run.sweepTcp cidr ports) := by
  rw [sweepSubnet, missing_eq_unheard]

theorem nodup_unheard : (run.unheard cidr ports).Nodup := cidr.nodup_hosts.filter _

theorem mem_unheard (a : Ipv4Addr) : a ∈ run.unheard cidr ports ↔ a ∈ cidr.hosts ∧ ¬ run.TcpHeard ports a := by
  rw [SweepRun.unheard, List.mem_filter, decide_eq_true_iff]

theorem echoTasks_unheard : run.echoTasks (run.unheard cidr ports) = (run.unheard cidr ports).filterMap fun a =>
    (run.echoOf a ((run.unheard cidr ports).idxOf a)).map fun outcome => (a, outcome) := by
  rw [SweepRun.echoTasks, zipIdx_eq_map_idxOf (nodup_unheard cidr ports run), List.filterMap_map]
  rfl

/-- What came of the echo of an address. -/
theorem echoOf_result_iff (a : Ipv4Addr) : run.EchoHeard cidr ports a ↔
    ∃ outcome, run.echoOf a ((run.unheard cidr ports).idxOf a) = some outcome ∧ outcome.result.isSome = true := by
  unfold SweepRun.echoOf SweepRun.EchoHeard SweepRun.sequenceOf
  constructor
  · rintro ⟨socket, hsocket, hbound, hsent, hreply⟩
    refine ⟨_, by rw [hsocket]; rfl, ?_⟩
    rw [Option.isSome_iff_exists]
    exact ⟨a, echo_answered_iff.mpr ⟨rfl, socket, rfl, hbound, hsent, hreply⟩⟩
  · rintro ⟨outcome, houtcome, hresult⟩
    obtain ⟨opened, hopened, rfl⟩ := Option.map_eq_some_iff.mp houtcome
    obtain ⟨result, hresult⟩ := Option.isSome_iff_exists.mp hresult
    obtain ⟨-, socket, rfl, hbound, hsent, hreply⟩ := echo_answered_iff.mp hresult
    exact ⟨socket, hopened, hbound, hsent, hreply⟩

theorem echoOf_transmitted_iff (a : Ipv4Addr) (n : Nat) : run.EchoLeft a ↔
    ∃ outcome, run.echoOf a n = some outcome ∧ outcome.transmitted = true := by
  unfold SweepRun.echoOf SweepRun.EchoLeft
  constructor
  · rintro ⟨socket, hsocket, hbound, hsent⟩
    exact ⟨_, by rw [hsocket]; rfl, echo_transmitted_iff.mpr ⟨socket, rfl, hbound, hsent⟩⟩
  · rintro ⟨outcome, houtcome, htransmitted⟩
    obtain ⟨opened, hopened, rfl⟩ := Option.map_eq_some_iff.mp houtcome
    obtain ⟨socket, rfl, hbound, hsent⟩ := echo_transmitted_iff.mp htransmitted
    exact ⟨socket, hopened, hbound, hsent⟩

/-- What is known of an address at the end. -/
theorem known_sweepSubnet (a : Ipv4Addr) : HostKnown a (a ∈ seedHosts cidr (arpMap cidr run.neighbours))
    (a ∈ cidr.hosts ∧ run.TcpAccepted ports a) (run.Heard cidr ports a)
    ((sweepSubnet cidr ports run).hosts.lookup a) := by
  have htcp := known_sweepTcp cidr ports run a
  have hlook := look_foldl_keyed (fun (sweep : Sweep) a => sweep.hosts.lookup a) lookup_mergeEcho
    (run.echoTasks (run.unheard cidr ports)) (run.sweepTcp cidr ports) a
  rw [echoTasks_unheard, filter_keyed (nodup_unheard cidr ports run)] at hlook
  rw [sweepSubnet_eq, echoTasks_unheard]
  refine hlook ▸ ?_
  have hmem := mem_unheard cidr ports run a
  by_cases ha : a ∈ run.unheard cidr ports
  · have hheard : run.Heard cidr ports a ↔ (a ∈ cidr.hosts ∧ run.TcpHeard ports a) ∨ run.EchoHeard cidr ports a := by
      rw [SweepRun.Heard, and_iff_right (hmem.mp ha).1, and_iff_right (hmem.mp ha).1]
    rw [if_pos ha, hheard, echoOf_result_iff]
    cases run.echoOf a ((run.unheard cidr ports).idxOf a) with
    | none => simpa using htcp
    | some outcome =>
      have haccepted : ¬ (a ∈ cidr.hosts ∧ run.TcpAccepted ports a) := fun h => (hmem.mp ha).2 h.2.heard
      simpa using htcp.echoOnto outcome haccepted
  · have hheard : run.Heard cidr ports a ↔ a ∈ cidr.hosts ∧ run.TcpHeard ports a := by
      rw [SweepRun.Heard]
      refine and_congr_right fun hhost => or_iff_left_of_imp fun _ => ?_
      by_contra htcp
      exact ha (hmem.mpr ⟨hhost, htcp⟩)
    rw [if_neg ha, hheard]
    exact htcp

theorem mem_probedAddresses (a : Ipv4Addr) :
    a ∈ (sweepSubnet cidr ports run).probedAddresses ↔ run.Probed cidr ports a := by
  rw [sweepSubnet_eq, (foldl_mergeEcho _ _).1, SweepRun.sweepTcp, (foldl_mergeTcp _ _).1, echoTasks_unheard]
  have htcp : (∃ task ∈ run.tcpTasks cidr ports, task.1 = a ∧ 0 < task.2.sent) ↔
      a ∈ cidr.hosts ∧ run.TcpLeft ports a := by
    simp only [SweepRun.tcpTasks, Prod.exists, mem_keyed, SweepRun.scanOf, Option.map_eq_some_iff]
    constructor
    · rintro ⟨b, scan, ⟨ha, attempts, hattempts, rfl⟩, rfl, hsent⟩
      exact ⟨ha, attempts, hattempts, scanHostTcp_sent.mp hsent⟩
    · rintro ⟨ha, attempts, hattempts, hleft⟩
      exact ⟨a, _, ⟨ha, attempts, hattempts, rfl⟩, rfl, scanHostTcp_sent.mpr hleft⟩
  have hecho : (∃ task ∈ (run.unheard cidr ports).filterMap fun a =>
      (run.echoOf a ((run.unheard cidr ports).idxOf a)).map fun outcome => (a, outcome),
      task.1 = a ∧ task.2.transmitted = true) ↔ (a ∈ cidr.hosts ∧ ¬ run.TcpHeard ports a) ∧ run.EchoLeft a := by
    simp only [Prod.exists, mem_keyed, mem_unheard, echoOf_transmitted_iff run a ((run.unheard cidr ports).idxOf a)]
    constructor
    · rintro ⟨b, outcome, ⟨ha, houtcome⟩, rfl, htransmitted⟩
      exact ⟨ha, outcome, houtcome, htransmitted⟩
    · rintro ⟨ha, outcome, houtcome, htransmitted⟩
      exact ⟨a, outcome, ⟨ha, houtcome⟩, rfl, htransmitted⟩
  rw [htcp, hecho, SweepRun.Probed, and_or_left, and_assoc]
  exact or_congr_left (or_iff_right (Finset.notMem_empty a))

/-- The results of the connection attempts to the hosts of a network, those that come to an end. -/
def SweepRun.tcpInfos : List PortInfo :=
  cidr.hosts.flatMap fun ip => (run.connections ip).elim [] (portInfos ports)

/-- What came of the echoes. -/
def SweepRun.echoOutcomes : List (AttemptOutcome Ipv4Addr) :=
  (run.echoTasks (run.unheard cidr ports)).map Prod.snd

theorem sum_tcpTasks (count : PortStatus → Bool) (f : HostScan → Nat)
    (hf : ∀ attempts,
      f (scanHostTcp ports attempts) = (portInfos ports attempts).countP fun info => count info.status) :
    ((run.tcpTasks cidr ports).map fun task => f task.2).sum =
      (run.tcpInfos cidr ports).countP fun info => count info.status := by
  unfold SweepRun.tcpTasks SweepRun.tcpInfos SweepRun.scanOf
  induction cidr.hosts with
  | nil => rfl
  | cons a hosts ih =>
    rw [List.flatMap_cons, List.countP_append, ← ih]
    cases hattempts : run.connections a with
    | none => rw [List.filterMap_cons_none (by rw [hattempts]; rfl), Option.elim_none, List.countP_nil, Nat.zero_add]
    | some attempts =>
      rw [List.filterMap_cons_some (by rw [hattempts]; rfl), List.map_cons, List.sum_cons, hf, Option.elim_some]

end Account

/-- What a sweep owes to what it met. -/
structure SweepAccount (cidr : Ipv4Net) (ports : List UInt16) (run : SweepRun) (sweep : Sweep) : Prop where
  /-- Who is listed, and who of them answered: the cache has no say in the latter. -/
  known : ∀ a, HostKnown a (a ∈ seedHosts cidr (arpMap cidr run.neighbours))
    (a ∈ cidr.hosts ∧ run.TcpAccepted ports a) (run.Heard cidr ports a) (sweep.hosts.lookup a)
  /-- An address is probed if something left for it. -/
  probed : ∀ a, a ∈ sweep.probedAddresses ↔ run.Probed cidr ports a
  /-- Every probe that comes to an end is counted once, as sent or as not sent. -/
  sent : sweep.probesSent = (run.tcpInfos cidr ports).countP (fun info => info.status ≠ .notSent) +
    (run.echoOutcomes cidr ports).countP fun outcome => outcome.transmitted
  notSent : sweep.probesNotSent = (run.tcpInfos cidr ports).countP (fun info => info.status = .notSent) +
    (run.echoOutcomes cidr ports).countP fun outcome => !outcome.transmitted
  /-- A reason is given for each echo that was not sent. -/
  reasons : ∀ reason, reason ∈ sweep.notSentReasons ↔
    ∃ outcome ∈ run.echoOutcomes cidr ports, outcome.describeFailure = some reason

/-- **The account of a sweep**: whatever the cache holds, and whatever becomes of the probes. -/
theorem sweepSubnet_account (cidr : Ipv4Net) (ports : List UInt16) (run : SweepRun) :
    SweepAccount cidr ports run (sweepSubnet cidr ports run) := by
  have hecho := foldl_mergeEcho (run.echoTasks (run.unheard cidr ports)) (run.sweepTcp cidr ports)
  have htcp := foldl_mergeTcp (run.tcpTasks cidr ports) { hosts := seedHosts cidr (arpMap cidr run.neighbours) }
  rw [← sweepSubnet_eq] at hecho
  refine ⟨known_sweepSubnet cidr ports run, mem_probedAddresses cidr ports run, ?_, ?_, fun reason => ?_⟩
  · rw [hecho.2.1, SweepRun.sweepTcp, htcp.2.1, Nat.zero_add, SweepRun.echoOutcomes, List.countP_map,
      sum_tcpTasks cidr ports run (fun status => status ≠ .notSent)]
    · rfl
    · intro attempts
      rw [scanHostTcp, (foldl_record _ _).2.2.1, Nat.zero_add]
  · rw [hecho.2.2.1, SweepRun.sweepTcp, htcp.2.2.1, Nat.zero_add, SweepRun.echoOutcomes, List.countP_map,
      sum_tcpTasks cidr ports run (fun status => status = .notSent)]
    · rfl
    · intro attempts
      rw [scanHostTcp, (foldl_record _ _).2.2.2, Nat.zero_add]
  · rw [hecho.2.2.2, SweepRun.sweepTcp, htcp.2.2.2, or_iff_right (Finset.notMem_empty reason), SweepRun.echoOutcomes]
    simp only [List.mem_map, exists_exists_and_eq_and]

end Idnx
