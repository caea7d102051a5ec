import Idnx.Lib.Lines
import Idnx.Net.Parse

/-!
# Routes of the kernel

The routing table as `ip route show` prints it (`printRoutes`), one route a line, and how it is read
(`parseLinuxIpRoute`): the first word is the destination, and the words behind `via` and `dev` are looked for in the
whole line. The reader of destinations of the BSD table is a sibling (`parseNetstatDestination`).
-/

namespace Idnx

open Text

/-- A route learned directly from the kernel routing table. -/
structure KernelRoute where
  destination : IpNet
  gateway : Option IpAddr
  gatewayZone : Option Text
  interface : Option Text
  deriving DecidableEq, Repr

/-- Splits a possibly scoped address such as `fe80::1%en0` into address and zone. -/
def parseScopedAddress (text : Text) : Option (IpAddr × Option Text) :=
  match splitOnce '%' text with
  | some (addr, zone) => (IpAddr.fromStr addr).map fun a => (a, some zone)
  | none => (IpAddr.fromStr text).map fun a => (a, none)

/-! ## Linux -/

/-- What the words of a line have said so far. -/
structure RouteScan where
  gateway : Option IpAddr
  gatewayZone : Option Text
  interface : Option Text

/-- One word, and the word behind it. -/
def RouteScan.read (scan : RouteScan) (word : Text) (next : Option Text) : RouteScan :=
  let scan :=
    match if word = "via" then next.bind parseScopedAddress else none with
    | some (addr, zone) => { scan with gateway := some addr, gatewayZone := zone }
    | none => scan
  match if word = "dev" then next else none with
  | some name => { scan with interface := some name }
  | none => scan

def RouteScan.words (scan : RouteScan) : List Text → RouteScan
  | [] => scan
  | word :: rest => (scan.read word rest.head?).words rest

/-- A link-local next hop is scoped by the device it was learned on when `ip` did not spell out a zone. -/
def RouteScan.zone (scan : RouteScan) : Option Text :=
  match scan.gatewayZone, scan.gateway with
  | none, some (.v6 v6) => if v6.isLinkLocal then scan.interface else none
  | zone, _ => zone

section Reader

-- `IpNet::from_str` of the library for prefixes
variable (ipNet : Text → Option IpNet)

/-- The destination of a route; the family of a default route is that of its gateway. -/
def linuxDestination (word : Text) (gateway : Option IpAddr) : Option IpNet :=
  if word = "default" then
    match gateway with
    | some (.v6 _) => some (.v6 0 0)
    | _ => some (.v4 0 0)
  else (ipNet word).map IpNet.trunc

def parseLine (parts : List Text) : Option KernelRoute :=
  match parts with
  | [] => none
  | first :: _ =>
    let scan := RouteScan.words ⟨none, none, none⟩ parts
    (linuxDestination ipNet first scan.gateway).map fun destination =>
      ⟨destination, scan.gateway, scan.zone, scan.interface⟩

/-- Parses Linux `ip -4 route show` or `ip -6 route show` output. -/
def parseLinuxIpRoute (output : Text) : List KernelRoute :=
  output.lines.filterMap fun line => parseLine ipNet line.words

/-! ## BSD -/

/-- A scoped destination such as `fe80::%en0/64` is still that prefix. -/
def stripZone (dest : Text) : Text :=
  match splitOnce '%' dest with
  | some (head, rest) =>
    match splitOnce '/' rest with
    | some (_, len) => head ++ '/' :: len
    | none => head
  | none => dest

/-- `str::parse::<u8>`: at least one digit, a leading `+` allowed, an error on overflow. -/
def parseU8 (t : Text) : Option Nat :=
  let digits := if t.head? = some '+' then t.tail else t
  if digits ≠ [] ∧ leadingDigits 10 digits = digits ∧ digitsValue 10 digits < 256 then some (digitsValue 10 digits)
  else none

/-- Expands macOS shorthand such as `10.242/16` or `192.168.51` into a network. -/
def parseAbbreviatedIpv4 (dest : Text) : Option Ipv4Net :=
  match splitOnce '/' dest with
  | some (ipPart, maskPart) => do
    let len ← parseU8 maskPart
    let octets := (split '.' ipPart).filterMap parseU8
    if octets = [] then none
    else
      let net ← Ipv4Net.new (.new (octets.getD 0 0) (octets.getD 1 0) (octets.getD 2 0) (octets.getD 3 0)) len
      return net.trunc
  | none =>
    let octets := (split '.' dest).filterMap parseU8
    if octets.length ≠ (split '.' dest).length then none
    else
      match octets with
      | [a] => Ipv4Net.new (.new a 0 0 0) 8
      | [a, b] => Ipv4Net.new (.new a b 0 0) 16
      | [a, b, c] => Ipv4Net.new (.new a b c 0) 24
      | _ => none

/-- The prefix of a single address. -/
def IpNet.host : IpAddr → IpNet
  | .v4 a => .v4 a 32
  | .v6 a => .v6 a 128

/-- Parses a macOS destination: a prefix, a bare address or an abbreviated IPv4 form. -/
def parseNetstatDestination (dest : Text) : Option IpNet :=
  let cleaned := stripZone dest
  match ipNet cleaned with
  | some net => some net.trunc
  | none =>
    match IpAddr.fromStr cleaned with
    | some addr => some (.host addr)
    | none => (parseAbbreviatedIpv4 cleaned).map Ipv4Net.toNet

end Reader

/-! ## What `ip route` prints -/

/-- An address as `inet_ntop` prints it: the last groups are dotted also where all others are zero. -/
def ntop : IpAddr → Text
  | .v4 a => a.toText
  | .v6 a =>
    if a.toNat / 2 ^ 32 = 0 ∧ a.toNat / 2 ^ 16 ≠ 0 then ("::" : Text) ++ Ipv4Addr.toText (BitVec.ofNat 32 a.toNat)
    else a.toText

/-- A word that is neither of the two that are looked for. -/
structure PlainWord (w : Text) : Prop where
  word : IsWord w
  ne_via : w ≠ "via"
  ne_dev : w ≠ "dev"

/-- A unicast route: a network without host bits, a next hop and its zone, a device, and the words that are printed in
front of them (`nhid 7`, `tos lowdelay`) and behind them (`proto kernel`, `metric 100`), which begin with a keyword. -/
structure UnicastRoute where
  destination : IpNet
  gateway : Option (IpAddr × Option Text)
  device : Option Text
  before : List Text
  after : List Text
  network : destination.trunc = destination
  zone_word : ∀ via ∈ gateway, ∀ zone ∈ via.2, ∀ c ∈ zone, isWhitespace c = false
  device_word : ∀ name ∈ device, IsWord name
  before_plain : ∀ w ∈ before, PlainWord w
  after_plain : ∀ w ∈ after, PlainWord w
  after_keyword : ∀ w ∈ after.head?, parseScopedAddress w = none

/-- The bits of an address of the family. -/
def IpNet.maxPrefixLen : IpNet → Nat
  | .v4 _ _ => 32
  | .v6 _ _ => 128

def IpAddr.family : IpAddr → Text
  | .v4 _ => "inet"
  | .v6 _ => "inet6"

def IpNet.family (net : IpNet) : Text := net.addr.family

namespace UnicastRoute

/-- `default`, the address of a host, or a prefix. -/
def destinationText (r : UnicastRoute) : Text :=
  if r.destination.prefixLen = 0 then "default"
  else if r.destination.prefixLen = r.destination.maxPrefixLen then ntop r.destination.addr
  else ntop r.destination.addr ++ '/' :: Text.ofNat r.destination.prefixLen

/-- A next hop as it is printed, with its zone. -/
def scopedText (addr : IpAddr) : Option Text → Text
  | some zone => ntop addr ++ '%' :: zone
  | none => ntop addr

/-- The next hop; one of the other family is printed with its family. -/
def viaWords (r : UnicastRoute) : List Text :=
  match r.gateway with
  | some (addr, zone) =>
    if addr.family = r.destination.family then ["via", scopedText addr zone]
    else ["via", addr.family, scopedText addr zone]
  | none => []

def devWords (r : UnicastRoute) : List Text :=
  match r.device with
  | some name => ["dev", name]
  | none => []

def words (r : UnicastRoute) : List Text := r.destinationText :: (r.before ++ (r.viaWords ++ (r.devWords ++ r.after)))

/-- The route that is meant. -/
def kernelRoute (r : UnicastRoute) : KernelRoute where
  destination := r.destination
  gateway := r.gateway.map Prod.fst
  gatewayZone :=
    match r.gateway with
    | some (_, some zone) => some zone
    | some (.v6 v6, none) => if v6.isLinkLocal then r.device else none
    | _ => none
  interface := r.device

end UnicastRoute

/-- The table: one line a route, with some blanks at its end. -/
def printRoutes (blanks : Nat) (rs : List UnicastRoute) : Text :=
  rs.flatMap fun r => List.intercalate [' '] r.words ++ List.replicate blanks ' ' ++ LineEnd.lf.toText

end Idnx
