import Idnx.Probes.Checksum
import Idnx.Probes.Walks

/-!
# Walks over IPv4 packets

DHCP options and their classless routes, RIP entries, MNDP records and OSPF advertisements are read inside their
packet, whatever lengths and counts it states.
-/

namespace Idnx

open Outcome

variable {ε : Type}

/-! ## IPv4 -/

section Ipv4

theorem safe_decodeArp (payload : Bytes) : Safe (fun _ => True) (decodeArp payload) := by
  refine (safe_require _ _).bind fun _ hlen => (safe_okOr _ _).bind fun ptype _ => ?_
  refine (safe_index (by omega)).bind fun hardwareLen _ => (safe_index (by omega)).bind fun protocolLen _ => ?_
  refine (safe_require _ _).bind fun _ _ => (safe_slice (by omega) (by omega)).bind fun sender _ => ?_
  exact (safe_ipv4At (by omega)).bind fun address _ => (safe_require _ _).bind fun _ _ => trivial

theorem safe_decodeClasslessRoutes (value : Bytes) :
    Safe (fun _ => True) (decodeClasslessRoutes value : Outcome ε _) := by
  refine safe_walk (fun i routes => ?_) _ _
  rw [nextClasslessRoute]
  split
  · refine (safe_index (by omega)).bind fun prefixLen _ => ?_
    dsimp only
    split
    · trivial
    split
    · trivial
    have hfour : significantOctets prefixLen.toNat ≤ 4 := by
      unfold significantOctets
      omega
    refine (safe_slice (by omega) (by omega)).bind fun octets hoctets => ?_
    refine (safe_ipv4OfSignificant ((length_slice hoctets).trans (by omega))).bind fun destination _ => ?_
    exact (safe_ipv4At (by omega)).bind fun nextHop _ => ⟨by omega, by dsimp only; omega⟩
  · trivial

theorem safe_dhcpRead (o : DhcpOptions) (code : UInt8) (value : Bytes) :
    Safe (fun _ => True) (o.read code value : Outcome ε _) := by
  unfold DhcpOptions.read
  split
  · split
    · exact (safe_ipv4At (by omega)).bind fun mask _ => trivial
    · trivial
  · exact (safe_chunkAddresses value).bind fun routers _ => trivial
  · split
    · exact (safe_index (by omega)).bind fun type _ => trivial
    · trivial
  · exact (safe_decodeClasslessRoutes value).bind fun routes _ => trivial
  · trivial

theorem safe_dhcpOptions (body : Bytes) (start : Nat) (o : DhcpOptions) :
    Safe (fun _ => True) (loop (nextDhcpOption body) (body.length + 1) (start, o) : Outcome ε _) := by
  refine safe_walk (fun i o => ?_) _ _
  rw [nextDhcpOption]
  split
  · refine (safe_index (by omega)).bind fun code _ => ?_
    split
    · trivial
    split
    · exact ⟨by omega, by dsimp only; omega⟩
    split
    · trivial
    refine (safe_index (by omega)).bind fun len _ => ?_
    dsimp only
    split
    · trivial
    refine (safe_slice (by omega) (by omega)).bind fun value _ => ?_
    exact (safe_dhcpRead o code value).bind fun o' _ => ⟨by omega, by dsimp only; omega⟩
  · trivial

theorem safe_decodeDhcp (serverMac : Text) (body : Bytes) : Safe (fun _ => True) (decodeDhcp serverMac body) := by
  refine (safe_require _ _).bind fun _ hlen => (safe_index (by omega)).bind fun op _ => ?_
  refine (safe_require _ _).bind fun _ _ => (safe_index (by omega)).bind fun htype _ => ?_
  refine (safe_index (by omega)).bind fun hlen' _ => (safe_require _ _).bind fun _ _ => ?_
  refine (safe_slice (by omega) (by omega)).bind fun cookie _ => (safe_require _ _).bind fun _ _ => ?_
  refine (safe_ipv4At (by omega)).bind fun yiaddr _ => (safe_dhcpOptions body _ _).bind fun o _ => ?_
  exact (safe_require _ _).bind fun _ _ => (safe_ipv4At (by omega)).bind fun giaddr _ => trivial

theorem safe_ripEntry {entry : Bytes} (h : entry.length = 20) :
    Safe (fun _ => True) (ripEntry entry : Outcome ε _) := by
  refine (safe_u16At (by omega)).bind fun family _ => ?_
  split
  · trivial
  refine (safe_ipv4At (by omega)).bind fun address _ => (safe_ipv4At (by omega)).bind fun netmask _ => ?_
  refine (safe_ipv4At (by omega)).bind fun nextHop _ => (safe_u32At (by omega)).bind fun metric _ => ?_
  split
  · trivial
  exact (safe_u16At (by omega)).bind fun tag _ => trivial

theorem safe_parseResponse (datagram : Bytes) : Safe (fun _ => True) (parseResponse datagram) := by
  refine (safe_require _ _).bind fun _ hlen => (safe_index (by omega)).bind fun command _ => ?_
  refine (safe_require _ _).bind fun _ _ => (safe_index (by omega)).bind fun version _ => ?_
  refine (safe_require _ _).bind fun _ _ => (safe_u16At (by omega)).bind fun reserved _ => ?_
  refine (safe_require _ _).bind fun _ _ => (safe_require _ _).bind fun _ _ => (safe_require _ _).bind fun _ _ => ?_
  refine safe_walk (fun offset routes => ?_) _ _
  rw [ripEntries]
  split
  · refine (safe_slice (by omega) (by omega)).bind fun entry hentry => ?_
    have hsize := length_slice_of_le hentry (by omega)
    exact (safe_ripEntry (by omega)).bind fun route _ => ⟨by omega, by dsimp only; omega⟩
  · trivial

theorem safe_classifyRip (sourceMac : Text) (sender : Ipv4Addr) (body : Bytes) :
    Safe (fun _ => True) (classifyRip sourceMac sender body : Outcome ε _) := by
  unfold classifyRip
  split
  · trivial
  split
  · have hupdate : Safe (fun _ => True) (decodeRipV2 sourceMac sender body) :=
      (safe_parseResponse body).bind fun entries _ => (safe_require _ _).bind fun _ _ => trivial
    exact hupdate.toOption.bind fun update _ => trivial
  · trivial

end Ipv4

namespace Ospf

theorem safe_helloNeighbours {body : Bytes} (h : 20 ≤ body.length) :
    Safe (fun _ => True) (helloNeighbours body : Outcome ε _) :=
  (safe_sliceFrom h).bind fun listed _ => safe_chunkAddresses listed

/-- The advertisements of an update are read to an end: each is counted, and starts inside the update. -/
theorem safe_linkStateUpdate {readLsa : Bytes → Outcome Unit DecodedLsa}
    (hlsa : ∀ body, Safe (fun _ => True) (readLsa body)) (body : Bytes) :
    Safe (fun _ => True) (linkStateUpdate readLsa body) := by
  refine (safe_require _ _).bind fun _ hlen => (safe_u32At (by omega)).bind fun count _ => ?_
  refine safe_loop (fun s => s.2.1 ≤ body.length) (fun s => s.1) (fun s hs => ?_) hlen (Nat.lt_succ_self _)
  obtain ⟨_ | left, cursor, sequences, prefixes⟩ := s
  · trivial
  refine (safe_sliceFrom hs).bind fun rest _ => (hlsa rest).toOption.bind fun lsa _ => ?_
  cases lsa with
  | none => trivial
  | some lsa =>
    dsimp only
    split
    · trivial
    · exact ⟨by dsimp only; omega, Nat.lt_succ_self left⟩

theorem safe_withContents {readLsa : Bytes → Outcome Unit DecodedLsa}
    (hlsa : ∀ body, Safe (fun _ => True) (readLsa body)) (decoded : OspfPacket) (kind : UInt8) (body : Bytes) :
    Safe (fun _ => True) (withContents decoded kind readLsa body) := by
  unfold withContents
  split
  · exact (safe_helloNeighbours (by omega)).bind fun neighbours _ => trivial
  split
  · exact (safe_linkStateUpdate hlsa body).bind fun update _ => trivial
  · trivial

/-- The prefixes are all withdrawn, or all not, with the advertisement that carries them. -/
def Marked (withdrawn : Bool) (prefixes : List AdvertisedPrefix) : Prop := ∀ p ∈ prefixes, p.withdrawn = withdrawn

theorem marked_nil (withdrawn : Bool) : Marked withdrawn [] := nofun

theorem marked_map {α : Type} {withdrawn : Bool} {f : α → AdvertisedPrefix} (h : ∀ a, (f a).withdrawn = withdrawn)
    (l : List α) : Marked withdrawn (l.map f) := by
  intro p hp
  obtain ⟨a, -, rfl⟩ := List.mem_map.mp hp
  exact h a

theorem Marked.append {withdrawn : Bool} {a b : List AdvertisedPrefix} (ha : Marked withdrawn a)
    (hb : Marked withdrawn b) : Marked withdrawn (a ++ b) := by
  intro p hp
  exact (List.mem_append.mp hp).elim (ha p) (hb p)

theorem returns_links (contents : Bytes) (withdrawn : Bool) (links : Nat) :
    Returns (Marked withdrawn) (loop (nextLink contents withdrawn) (links + 1) (links, 4, []) : Outcome ε _) := by
  refine returns_loop (fun s => Marked withdrawn s.2.2) (fun s => s.1) (fun s hs => ?_) (marked_nil withdrawn)
    (Nat.lt_succ_self _)
  obtain ⟨_ | left, cursor, prefixes⟩ := s
  · exact returns_ok hs
  rw [nextLink]
  split
  · exact returns_ok hs
  refine (returns_slice (by omega) (by omega)).bind fun link hlink => ?_
  have hsize := length_slice_of_le hlink (by omega)
  refine (returns_index (by omega)).bind fun type _ => (returns_ipv4At (by omega)).bind fun network _ => ?_
  refine (returns_ipv4At (by omega)).bind fun mask _ => (returns_u16At (by omega)).bind fun metric _ => ?_
  refine (returns_index (by omega)).bind fun more _ => returns_ok ⟨hs.append ?_, Nat.lt_succ_self left⟩
  exact marked_map (by exact fun _ => rfl) _

/-- An advertisement of whatever kind has its prefixes: none of them refuses it. -/
theorem returns_v2Prefixes (kind : UInt8) (linkStateId : Ipv4Addr) (withdrawn : Bool) (contents : Bytes) :
    Returns (Marked withdrawn) (v2Prefixes kind linkStateId withdrawn contents : Outcome ε _) := by
  have hnone : Returns (Marked withdrawn) (.ok [] : Outcome ε _) := returns_ok (marked_nil withdrawn)
  have hexternal : Returns (Marked withdrawn)
      ((if 8 ≤ contents.length then do
          let mask ← ipv4At contents 0
          let metric ← u24At contents 5
          return (maskedNet linkStateId mask).toList.map fun net =>
            { net, metric, lsaType := v2LsaName kind, withdrawn }
        else .ok []) : Outcome ε (List AdvertisedPrefix)) := by
    split
    · refine (returns_ipv4At (by omega)).bind fun mask _ => ?_
      exact (returns_u24At (by omega)).bind fun metric _ => returns_ok (marked_map (by exact fun _ => rfl) _)
    · exact hnone
  unfold v2Prefixes
  split
  · exact hexternal
  · exact hexternal
  · exact hexternal
  · exact hexternal
  · split
    · exact (returns_u16At (by omega)).bind fun links _ => returns_links contents withdrawn _
    · exact hnone
  · split
    · exact (returns_ipv4At (by omega)).bind fun mask _ => returns_ok (marked_map (by exact fun _ => rfl) _)
    · exact hnone
  · exact hnone

theorem safe_readV2Lsa (body : Bytes) : Safe (fun _ => True) (readV2Lsa body) := by
  refine (safe_require _ _).bind fun _ hlen => (safe_u16At (by omega)).bind fun age _ => ?_
  refine (safe_index (by omega)).bind fun kind _ => (safe_ipv4At (by omega)).bind fun linkStateId _ => ?_
  refine (safe_u32At (by omega)).bind fun sequence _ => (safe_u16At (by omega)).bind fun length _ => ?_
  refine (safe_require _ _).bind fun _ hlength => (safe_slice hlength.1 hlength.2).bind fun contents _ => ?_
  exact (returns_v2Prefixes kind linkStateId _ contents).safe.bind fun prefixes _ => trivial

/-- The length of a packet is a word, so the sum of its checksum fits. -/
theorem safe_parseV2 (payload : Bytes) : Safe (fun _ => True) (parseV2 payload) := by
  refine (safe_require _ _).bind fun _ hlen => (safe_index (by omega)).bind fun version _ => ?_
  refine (safe_require _ _).bind fun _ _ => (safe_u16At (by omega)).bind fun length _ => ?_
  refine (safe_require _ _).bind fun _ hlength => (safe_slice (by omega) hlength.2).bind fun packet hpacket => ?_
  have hsize := length_slice_of_le hpacket hlength.2
  have hlt := length.toNat_lt
  have hcopy : Safe (fun packet' => packet'.length = packet.length)
      (copyInto packet 16 24 (List.replicate 8 0) : Outcome Unit Bytes) := by
    unfold copyInto
    rw [if_pos ⟨by omega, by omega, rfl⟩]
    show (packet.take 16 ++ List.replicate 8 0 ++ packet.drop 24).length = packet.length
    rw [List.length_append, List.length_append, List.length_take, List.length_replicate, List.length_drop]
    omega
  refine hcopy.bind fun packet' hpacket' => (safe_internetChecksum (by omega)).bind fun checksum _ => ?_
  refine (safe_require _ _).bind fun _ _ => (safe_ipv4At (by omega)).bind fun routerId _ => ?_
  refine (safe_ipv4At (by omega)).bind fun area _ => (safe_u16At (by omega)).bind fun auType _ => ?_
  refine (safe_index (by omega)).bind fun kind _ => (safe_sliceFrom (by omega)).bind fun body _ => ?_
  exact safe_withContents safe_readV2Lsa _ kind body

/-- A prefix uses bytes that are there. -/
theorem safe_readV3Prefix (bytes : Bytes) (carriesMetric : Bool) :
    Safe (fun read => read.2.2 ≤ bytes.length) (readV3Prefix bytes carriesMetric) := by
  refine (safe_require _ _).bind fun _ hlen => (safe_index (by omega)).bind fun prefixLen _ => ?_
  refine (safe_require _ _).bind fun _ hwidth => (safe_require _ _).bind fun _ hpadded => ?_
  have hsixteen : significantOctets prefixLen.toNat ≤ 16 := by
    unfold significantOctets
    omega
  refine (safe_u16At (by omega)).bind fun metric _ => (safe_slice (by omega) (by omega)).bind fun octets hoctets => ?_
  refine (safe_ipv6OfSignificant ((length_slice hoctets).trans (by omega))).bind fun address _ => ?_
  exact (safe_okOr _ _).bind fun net _ => hpadded

theorem returns_v3PrefixWalk (contents : Bytes) (name : Text) (withdrawn : Bool) (count : Nat)
    (h : 12 ≤ contents.length) :
    Returns (Marked withdrawn)
      (loop (nextV3Prefix contents name withdrawn) (count + 1) (count, 12, []) : Outcome ε _) := by
  refine returns_loop (fun s => s.2.1 ≤ contents.length ∧ Marked withdrawn s.2.2) (fun s => s.1) (fun s hs => ?_)
    ⟨h, marked_nil withdrawn⟩ (Nat.lt_succ_self _)
  obtain ⟨_ | left, cursor, prefixes⟩ := s
  · exact returns_ok hs.2
  refine (returns_sliceFrom hs.1).bind fun rest hrest => ?_
  refine (safe_readV3Prefix rest true).returns_toOption.bind fun read hread => ?_
  cases read with
  | none => exact returns_ok hs.2
  | some read =>
    obtain ⟨net, metric, used⟩ := read
    have hused : used ≤ rest.length := hread _ rfl
    rw [hrest, List.length_drop] at hused
    obtain ⟨hcursor, hmarked⟩ := hs
    dsimp only at hcursor hused hmarked
    have hone : Marked withdrawn [{ net, metric, lsaType := name, withdrawn }] := marked_map (fun _ => rfl) [()]
    exact returns_ok ⟨⟨by dsimp only; omega, hmarked.append hone⟩, Nat.lt_succ_self left⟩

theorem returns_v3Prefixes (kind : UInt16) (withdrawn : Bool) (contents : Bytes) :
    Returns (Marked withdrawn) (v3Prefixes kind withdrawn contents : Outcome ε _) := by
  have hnone : Returns (Marked withdrawn) (.ok [] : Outcome ε _) := returns_ok (marked_nil withdrawn)
  have hsingle : Returns (Marked withdrawn)
      ((if 8 ≤ contents.length then do
          let metric ← u24At contents 1
          let rest ← sliceFrom contents 4
          let read ← (readV3Prefix rest false).toOption
          return read.toList.map fun r => { net := r.1, metric, lsaType := v3LsaName kind, withdrawn }
        else .ok []) : Outcome ε (List AdvertisedPrefix)) := by
    split
    · refine (returns_u24At (by omega)).bind fun metric _ => (returns_sliceFrom (by omega)).bind fun rest _ => ?_
      exact (safe_readV3Prefix rest false).returns_toOption.bind fun read _ => returns_ok (marked_map (by exact fun _ => rfl) _)
    · exact hnone
  unfold v3Prefixes
  split
  · split
    · exact (returns_u16At (by omega)).bind fun count _ => returns_v3PrefixWalk contents _ withdrawn _ ‹_›
    · exact hnone
  · exact hsingle
  · exact hsingle
  · exact hsingle
  · exact hnone

theorem safe_readV3Lsa (body : Bytes) : Safe (fun _ => True) (readV3Lsa body) := by
  refine (safe_require _ _).bind fun _ hlen => (safe_u16At (by omega)).bind fun age _ => ?_
  refine (safe_u16At (by omega)).bind fun kind _ => (safe_u32At (by omega)).bind fun sequence _ => ?_
  refine (safe_u16At (by omega)).bind fun length _ => (safe_require _ _).bind fun _ hlength => ?_
  refine (safe_slice hlength.1 hlength.2).bind fun contents _ => ?_
  exact (returns_v3Prefixes kind _ contents).safe.bind fun prefixes _ => trivial

theorem safe_parseV3 (payload : Bytes) : Safe (fun _ => True) (parseV3 payload) := by
  refine (safe_require _ _).bind fun _ hlen => (safe_index (by omega)).bind fun version _ => ?_
  refine (safe_require _ _).bind fun _ _ => (safe_u16At (by omega)).bind fun length _ => ?_
  refine (safe_require _ _).bind fun _ hlength => (safe_ipv4At (by omega)).bind fun routerId _ => ?_
  refine (safe_ipv4At (by omega)).bind fun area _ => (safe_index (by omega)).bind fun kind _ => ?_
  refine (safe_slice hlength.1 hlength.2).bind fun body _ => (safe_slice (by omega) hlength.2).bind fun raw _ => ?_
  exact safe_withContents safe_readV3Lsa _ kind body

end Ospf

theorem safe_ospfFact (sourceMac : Text) (sender : IpAddr) (protocol : Text) {packet : Outcome Unit Ospf.OspfPacket}
    (h : Safe (fun _ => True) packet) :
    Safe (fun _ => True) (ospfFact sourceMac sender protocol packet : Outcome ε _) := by
  refine h.toOption.bind fun packet _ => ?_
  cases packet <;> trivial

theorem safe_decodeIpv4 (sourceMac : Text) (payload : Bytes) :
    Safe (fun _ => True) (decodeIpv4 sourceMac payload : Outcome ε _) := by
  unfold decodeIpv4
  split
  · trivial
  refine (safe_index (by omega)).bind fun first _ => ?_
  dsimp only
  split
  · trivial
  refine (safe_index (by omega)).bind fun protocol _ => (safe_ipv4At (by omega)).bind fun source _ => ?_
  refine (safe_sliceFrom (by omega)).bind fun udp _ => ?_
  split
  · exact (safe_ospfFact sourceMac _ _ (Ospf.safe_parseV2 udp)).bind fun fact _ => trivial
  split
  · trivial
  split
  case h_2 => trivial
  case h_1 =>
    split
    · trivial
    refine (safe_sliceFrom (by omega)).bind fun body _ => ?_
    split
    · exact (safe_decodeDhcp sourceMac body).toOption.bind fun fact _ => trivial
    split
    · exact (safe_classifyRip sourceMac source body).bind fun fact _ => trivial
    split
    · exact (safe_parseMndpPacket body).toOption.bind fun neighbor _ => trivial
    · trivial

end Idnx
