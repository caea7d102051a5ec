import Idnx.Lib.Records
import Idnx.Probes.Passive

/-!
# RFC 3442 routes, read twice

Classless static routes as a DHCPINFORM reader takes them (`parseClasslessRoutes`) and as the passive decoder does
(`decodeClasslessRoutes`). Both read back what RFC 3442 writes. They part at an entry that is cut short or wider than
an address: the one refuses the option, the other keeps the entries before it.
-/

namespace Idnx

open Outcome

variable {ε : Type}

/-- One classless static route, exactly as the server encoded it. -/
structure ClasslessRoute where
  net : Ipv4Net
  nextHop : Ipv4Addr
  option : UInt8
  rawEntry : Bytes
  deriving DecidableEq, Repr

/-- The next destination descriptor; one that is short or too wide refuses the option. -/
def nextDescriptor (value : Bytes) (option : UInt8) :
    Nat × List ClasslessRoute → Outcome Unit (Turn (Nat × List ClasslessRoute) (List ClasslessRoute))
  | (cursor, routes) =>
    if cursor < value.length then do
      let width ← index value cursor
      let width := width.toNat
      require (width ≤ 32) ()
      let significant := significantOctets width
      let stop := cursor + 1 + significant + 4
      require (stop ≤ value.length) ()
      let octets ← slice value (cursor + 1) (cursor + 1 + significant)
      let destination ← ipv4OfSignificant octets
      let gateway ← slice value (cursor + 1 + significant) stop
      let net ← okOr (Ipv4Net.new destination width) ()
      let nextHop ← ipv4At gateway 0
      let rawEntry ← slice value cursor stop
      return .next (stop, routes ++ [{ net := net.trunc, nextHop, option, rawEntry }])
    else .ok (.done routes)

/-- Decodes the destination descriptors in options 121 and 249. -/
def parseClasslessRoutes (value : Bytes) (option : UInt8) : Outcome Unit (List ClasslessRoute) :=
  loop (nextDescriptor value option) (value.length + 1) (0, [])

/-! ## Entries as they are written -/

/-- One entry: a width, as many octets of the destination as it needs, and a next hop. -/
structure ClasslessEntry where
  width : Fin 33
  octets : Bytes
  nextHop : Ipv4Addr
  enough : octets.length = significantOctets width

namespace ClasslessEntry

def bytes (e : ClasslessEntry) : Bytes := UInt8.ofNat e.width :: (e.octets ++ beBytes 4 e.nextHop.toNat)

/-- The destination, of which the octets that are not written are zero. -/
def destination (e : ClasslessEntry) : Ipv4Addr :=
  BitVec.ofNat 32 (beNat (e.octets ++ List.replicate (4 - e.octets.length) 0))

def net (e : ClasslessEntry) : Ipv4Net := { addr := e.destination, prefixLen := e.width }

theorem length_bytes (e : ClasslessEntry) : e.bytes.length = 1 + significantOctets e.width + 4 := by
  rw [bytes, List.length_cons, List.length_append, length_beBytes, e.enough]
  omega

theorem bytes_pos (e : ClasslessEntry) : 0 < e.bytes.length := Nat.succ_pos _

theorem length_octets_le (e : ClasslessEntry) : e.octets.length ≤ 4 := by
  have hlt := e.width.isLt
  rw [e.enough, significantOctets]
  omega

theorem toNat_width (e : ClasslessEntry) : (UInt8.ofNat e.width).toNat = e.width := by
  have hlt := e.width.isLt
  rw [UInt8.toNat_ofNat']
  omega

theorem ipv4OfSignificant_octets (e : ClasslessEntry) :
    (ipv4OfSignificant e.octets : Outcome ε _) = .ok e.destination :=
  ipv4OfSignificant_eq e.length_octets_le

end ClasslessEntry

/-- The value is whole entries and nothing else. -/
def WholeEntries (value : Bytes) : Prop := ∃ entries : List ClasslessEntry, value = entries.flatMap ClasslessEntry.bytes

/-! ## What the two readers make of an entry -/

section Steps

variable {value : Bytes} {k : Nat}

/-- The pieces of an entry, where the value holds it. -/
theorem ClasslessEntry.holds_bytes {e : ClasslessEntry} (h : Holds value k e.bytes) :
    (index value k : Outcome ε _) = .ok (UInt8.ofNat e.width) ∧ Holds value (k + 1) e.octets ∧
      Holds value (k + 1 + significantOctets e.width) (beBytes 4 e.nextHop.toNat) ∧
        k + 1 + significantOctets e.width + 4 ≤ value.length := by
  have hlen := h.length_le
  rw [e.length_bytes] at hlen
  have hbytes : Holds value k ([UInt8.ofNat e.width] ++ (e.octets ++ beBytes 4 e.nextHop.toNat)) := h
  have hhop := hbytes.right.right
  rw [List.length_singleton, e.enough] at hhop
  exact ⟨Holds.index h, hbytes.right.left, hhop, by omega⟩

/-- The passive decoder keeps the destination as it is written. -/
theorem nextClasslessRoute_of_holds {e : ClasslessEntry} (h : Holds value k e.bytes)
    (routes : List (Ipv4Addr × Nat × Ipv4Addr)) :
    (nextClasslessRoute value (k, routes) : Outcome ε _) =
      .ok (.next (k + e.bytes.length, routes ++ [(e.destination, e.width.val, e.nextHop)])) := by
  obtain ⟨hwidth, hoctets, hhop, hlen⟩ := e.holds_bytes (ε := ε) h
  have hslice := hoctets.slice (ε := ε)
  rw [e.enough] at hslice
  have hnext := ipv4At_of_holds (ε := ε) hhop (length_beBytes _ _)
  rw [ofNat_beBytes (by decide)] at hnext
  have hlt := e.width.isLt
  rw [nextClasslessRoute, if_pos (by omega), hwidth, ok_bind]
  dsimp only
  rw [e.toNat_width, if_neg (by omega), if_neg (by omega), hslice, ok_bind, e.ipv4OfSignificant_octets, ok_bind,
    hnext, ok_bind, e.length_bytes]
  rfl

/-- What the INFORM reader makes of an entry. -/
def ClasslessEntry.route (option : UInt8) (e : ClasslessEntry) : ClasslessRoute :=
  { net := e.net.trunc, nextHop := e.nextHop, option, rawEntry := e.bytes }

theorem nextDescriptor_of_holds {e : ClasslessEntry} (h : Holds value k e.bytes) (option : UInt8)
    (routes : List ClasslessRoute) :
    nextDescriptor value option (k, routes) = .ok (.next (k + e.bytes.length, routes ++ [e.route option])) := by
  obtain ⟨hwidth, hoctets, hhop, hlen⟩ := e.holds_bytes (ε := Unit) h
  have hslice := hoctets.slice (ε := Unit)
  rw [e.enough] at hslice
  have hgateway := hhop.slice (ε := Unit)
  rw [length_beBytes] at hgateway
  have hnext := ipv4At_of_holds (ε := Unit) (Holds.self (beBytes 4 e.nextHop.toNat)) (length_beBytes _ _)
  rw [ofNat_beBytes (by decide)] at hnext
  have hraw := h.slice (ε := Unit)
  have hstop : k + e.bytes.length = k + 1 + significantOctets e.width + 4 := by
    rw [e.length_bytes]
    omega
  rw [hstop] at hraw
  have hlt := e.width.isLt
  have hnet : Ipv4Net.new e.destination e.width = some e.net := dif_pos hlt
  rw [nextDescriptor, if_pos (by omega), hwidth, ok_bind]
  dsimp only
  rw [e.toNat_width, require_of (by omega), ok_bind, require_of hlen, ok_bind, hslice, ok_bind,
    e.ipv4OfSignificant_octets, ok_bind, hgateway, ok_bind, hnet, okOr_some, ok_bind, hnext, ok_bind, hraw, ok_bind,
    hstop]
  rfl

/-- Where no entry can be read: the value goes on, with too great a width or too few bytes. -/
def Malformed (rest : Bytes) : Prop :=
  ∃ width tail, rest = width :: tail ∧ (32 < width.toNat ∨ tail.length < significantOctets width.toNat + 4)

theorem nextClasslessRoute_of_malformed {rest : Bytes} (hrest : Malformed rest) (h : value.drop k = rest)
    (routes : List (Ipv4Addr × Nat × Ipv4Addr)) :
    (nextClasslessRoute value (k, routes) : Outcome ε _) = .ok (.done routes) := by
  obtain ⟨width, tail, rfl, hbad⟩ := hrest
  have hlen := congrArg List.length h
  rw [List.length_drop, List.length_cons] at hlen
  have hindex : (index value k : Outcome ε _) = .ok width := index_of_drop h
  rw [nextClasslessRoute, if_pos (by omega), hindex, ok_bind]
  dsimp only
  split
  · rfl
  · rw [if_pos (by omega)]
    rfl

theorem nextDescriptor_of_malformed {rest : Bytes} (hrest : Malformed rest) (h : value.drop k = rest) (option : UInt8)
    (routes : List ClasslessRoute) : nextDescriptor value option (k, routes) = .err () := by
  obtain ⟨width, tail, rfl, hbad⟩ := hrest
  have hlen := congrArg List.length h
  rw [List.length_drop, List.length_cons] at hlen
  have hindex : (index value k : Outcome Unit _) = .ok width := index_of_drop h
  rw [nextDescriptor, if_pos (by omega), hindex, ok_bind]
  dsimp only
  by_cases hwidth : width.toNat ≤ 32
  · rw [require_of hwidth, ok_bind, require, if_neg (by omega), err_bind]
  · rw [require, if_neg hwidth, err_bind]

end Steps

/-- Every value is whole entries, and then nothing or a place where none can be read. -/
theorem exists_entries (value : Bytes) :
    ∃ (entries : List ClasslessEntry) (rest : Bytes), value = entries.flatMap ClasslessEntry.bytes ++ rest ∧
      (rest = [] ∨ Malformed rest) := by
  obtain ⟨entries, rest, hvalue, hrest⟩ := exists_records ClasslessEntry.bytes_pos value
  refine ⟨entries, rest, hvalue, ?_⟩
  match rest with
  | [] => exact .inl rfl
  | width :: tail =>
    by_cases hbad : 32 < width.toNat ∨ tail.length < significantOctets width.toNat + 4
    · exact .inr ⟨width, tail, rfl, hbad⟩
    have hlt : width.toNat < 33 := by omega
    have hlen : ((tail.drop (significantOctets width.toNat)).take 4).length = 4 := by
      rw [List.length_take, List.length_drop]
      omega
    let e : ClasslessEntry :=
      { width := ⟨width.toNat, hlt⟩
        octets := tail.take (significantOctets width.toNat)
        nextHop := BitVec.ofNat 32 (beNat ((tail.drop (significantOctets width.toNat)).take 4))
        enough := List.length_take_of_le (by omega) }
    have hsplit : width :: tail = e.bytes ++ tail.drop (significantOctets width.toNat + 4) := by
      have hhop : beBytes 4 e.nextHop.toNat = (tail.drop (significantOctets width.toNat)).take 4 :=
        beBytes_ofNat (by decide) hlen
      have hwidth : UInt8.ofNat e.width = width := UInt8.ofNat_toNat
      rw [ClasslessEntry.bytes, hhop, hwidth, List.cons_append, List.append_assoc, ← List.drop_drop,
        List.take_append_drop, List.take_append_drop]
    exact absurd hsplit (hrest e _)

/-! ## What the two readers make of a value -/

section Values

variable (entries : List ClasslessEntry) {rest : Bytes}

/-- The passive decoder reads the whole entries, whatever follows them. -/
theorem decodeClasslessRoutes_eq (hend : rest = [] ∨ Malformed rest) :
    (decodeClasslessRoutes (entries.flatMap ClasslessEntry.bytes ++ rest) : Outcome ε _) =
      .ok (entries.map fun e => (e.destination, e.width.val, e.nextHop)) := by
  obtain ⟨fuel, k, hloop, -, hdrop⟩ := loop_records_rest ClasslessEntry.bytes_pos
    (fun k e routes h => nextClasslessRoute_of_holds h routes) (Nat.zero_le _)
    (List.drop_zero : (entries.flatMap ClasslessEntry.bytes ++ rest).drop 0 = _) []
  unfold decodeClasslessRoutes
  rw [hloop, foldl_append_singleton, List.nil_append, loop]
  obtain rfl | hbad := hend
  · rw [nextClasslessRoute, if_neg (Nat.not_lt.mpr (List.drop_eq_nil_iff.mp hdrop))]
    rfl
  · rw [nextClasslessRoute_of_malformed hbad hdrop]
    rfl

theorem parseClasslessRoutes_eq (option : UInt8) :
    parseClasslessRoutes (entries.flatMap ClasslessEntry.bytes) option = .ok (entries.map (·.route option)) := by
  obtain ⟨fuel, k, hloop, -, hdrop⟩ := loop_records_rest ClasslessEntry.bytes_pos
    (fun k e routes h => nextDescriptor_of_holds h option routes) (Nat.zero_le _)
    (show (entries.flatMap ClasslessEntry.bytes).drop 0 = entries.flatMap ClasslessEntry.bytes ++ [] by
      rw [List.drop_zero, List.append_nil]) []
  unfold parseClasslessRoutes
  rw [hloop, foldl_append_singleton, List.nil_append, loop, nextDescriptor,
    if_neg (Nat.not_lt.mpr (List.drop_eq_nil_iff.mp hdrop))]
  rfl

theorem parseClasslessRoutes_of_malformed (hbad : Malformed rest) (option : UInt8) :
    parseClasslessRoutes (entries.flatMap ClasslessEntry.bytes ++ rest) option = .err () := by
  obtain ⟨fuel, k, hloop, -, hdrop⟩ := loop_records_rest ClasslessEntry.bytes_pos
    (fun k e routes h => nextDescriptor_of_holds h option routes) (Nat.zero_le _)
    (List.drop_zero : (entries.flatMap ClasslessEntry.bytes ++ rest).drop 0 = _) []
  unfold parseClasslessRoutes
  rw [hloop, loop, nextDescriptor_of_malformed hbad hdrop]
  rfl

end Values

/-! ## The routes a server has -/

/-- A route to a network, whose address has no bits behind its width. -/
structure StaticRoute where
  net : Ipv4Net
  nextHop : Ipv4Addr
  isNetwork : net.trunc = net

namespace StaticRoute

/-- The entry RFC 3442 writes for a route: the octets its width needs. -/
def entry (r : StaticRoute) : ClasslessEntry where
  width := r.net.prefixLen
  octets := (beBytes 4 r.net.addr.toNat).take (significantOctets r.net.prefixLen)
  nextHop := r.nextHop
  enough := by
    have hlt := r.net.prefixLen.isLt
    rw [List.length_take, length_beBytes, significantOctets]
    omega

def encode (routes : List StaticRoute) : Bytes := routes.flatMap fun r => r.entry.bytes

/-- The octets that are not written are zero in the address of a network. -/
theorem destination_entry (r : StaticRoute) : r.entry.destination = r.net.addr := by
  have hlt := r.net.prefixLen.isLt
  obtain ⟨s, hs⟩ : ∃ s, significantOctets r.net.prefixLen = s := ⟨_, rfl⟩
  have hfour : s ≤ 4 ∧ 8 * (4 - s) ≤ 32 - r.net.prefixLen.val := by
    rw [← hs, significantOctets]
    omega
  have haddr : r.net.addr.toNat / 2 ^ (32 - r.net.prefixLen.val) * 2 ^ (32 - r.net.prefixLen.val) =
      r.net.addr.toNat := by
    rw [← IpNet.toNat_clearBits]
    exact congrArg (fun net => net.addr.toNat) r.isNetwork
  obtain ⟨m, hm⟩ : ∃ m, r.net.addr.toNat = m * 256 ^ (4 - s) := by
    refine ⟨r.net.addr.toNat / 2 ^ (32 - r.net.prefixLen.val) * 2 ^ (32 - r.net.prefixLen.val - 8 * (4 - s)), ?_⟩
    rw [show (256 : Nat) = 2 ^ 8 from rfl, ← Nat.pow_mul, Nat.mul_assoc, ← Nat.pow_add, Nat.sub_add_cancel hfour.2,
      haddr]
  have hbytes : beBytes 4 r.net.addr.toNat = beBytes s m ++ List.replicate (4 - s) 0 := by
    have hsplit := beBytes_mul_pow s (4 - s) m
    rwa [← hm, show s + (4 - s) = 4 by omega] at hsplit
  have hoctets : r.entry.octets = beBytes s m := by
    show (beBytes 4 r.net.addr.toNat).take (significantOctets r.net.prefixLen) = _
    rw [hs, hbytes, List.take_left' (length_beBytes s m)]
  unfold ClasslessEntry.destination
  rw [hoctets, length_beBytes, ← hbytes, ofNat_beBytes (by decide)]

end StaticRoute

/-- What the passive decoder says of a route, as a network and a next hop. -/
def truncated (route : Ipv4Addr × Nat × Ipv4Addr) : Option (Ipv4Net × Ipv4Addr) :=
  (Ipv4Net.new route.1 route.2.1).map fun net => (net.trunc, route.2.2)

/-- Both readers take the value, and for the same networks and next hops. -/
def ReadAlike (value : Bytes) (option : UInt8) : Prop :=
  ∃ heard parsed, (decodeClasslessRoutes value : Outcome Empty _) = .ok heard ∧
    parseClasslessRoutes value option = .ok parsed ∧
      heard.map truncated = parsed.map fun r => some (r.net, r.nextHop)

/-- **The two readers of RFC 3442 routes.** Both read a list of routes back from what it is written as, and they read
a value alike exactly when it is whole entries. -/
theorem classless_readers (option : UInt8) :
    (∀ routes : List StaticRoute,
      (decodeClasslessRoutes (StaticRoute.encode routes) : Outcome Empty _) =
          .ok (routes.map fun r => (r.net.addr, r.net.prefixLen.val, r.nextHop)) ∧
        (List.map fun r => (r.net, r.nextHop)) <$> parseClasslessRoutes (StaticRoute.encode routes) option =
          .ok (routes.map fun r => (r.net, r.nextHop))) ∧
      ∀ value, ReadAlike value option ↔ WholeEntries value := by
  refine ⟨fun routes => ?_, fun value => ⟨?_, ?_⟩⟩
  · have hencode : StaticRoute.encode routes = (routes.map StaticRoute.entry).flatMap ClasslessEntry.bytes := by
      rw [List.flatMap_map]
      rfl
    have hdecode := decodeClasslessRoutes_eq (ε := Empty) (routes.map StaticRoute.entry) (.inl rfl)
    rw [List.append_nil, ← hencode, List.map_map] at hdecode
    have hparse := parseClasslessRoutes_eq (routes.map StaticRoute.entry) option
    rw [← hencode, List.map_map] at hparse
    constructor
    · rw [hdecode]
      refine congrArg Outcome.ok (List.map_congr_left fun r _ => ?_)
      exact Prod.ext r.destination_entry rfl
    · rw [hparse, map_ok, List.map_map]
      refine congrArg Outcome.ok (List.map_congr_left fun r _ => ?_)
      have hnet : r.entry.net = r.net := by
        rw [ClasslessEntry.net, r.destination_entry]
        rfl
      show (r.entry.net.trunc, r.nextHop) = (r.net, r.nextHop)
      rw [hnet, r.isNetwork]
  · rintro ⟨heard, parsed, -, hparse, -⟩
    obtain ⟨entries, rest, rfl, rfl | hbad⟩ := exists_entries value
    · exact ⟨entries, List.append_nil _⟩
    · rw [parseClasslessRoutes_of_malformed entries hbad] at hparse
      cases hparse
  · rintro ⟨entries, rfl⟩
    have hdecode := decodeClasslessRoutes_eq (ε := Empty) entries (.inl rfl)
    rw [List.append_nil] at hdecode
    refine ⟨_, _, hdecode, parseClasslessRoutes_eq entries option, ?_⟩
    rw [List.map_map, List.map_map]
    refine List.map_congr_left fun e _ => ?_
    show (Ipv4Net.new e.destination e.width).map (fun net => (net.trunc, e.nextHop)) = some (e.net.trunc, e.nextHop)
    rw [show Ipv4Net.new e.destination e.width = some e.net from dif_pos e.width.isLt]
    rfl

/-- A route to `10.0.0.0/8`, then an entry that is cut short: the passive decoder keeps the one, the INFORM reader
refuses both. -/
theorem cut_entry_read_apart : ¬ ReadAlike [8, 10, 192, 168, 1, 1, 24, 10] 121 := by
  rintro ⟨heard, parsed, -, hparse, -⟩
  rw [show parseClasslessRoutes [8, 10, 192, 168, 1, 1, 24, 10] 121 = .err () by decide] at hparse
  cases hparse

end Idnx
