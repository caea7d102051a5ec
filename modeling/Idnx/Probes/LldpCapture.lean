import Idnx.Lib.PacketFilter
import Idnx.Net.Capture
import Idnx.Probes.Layers
import Idnx.Probes.Walks

/-!
# Capturing announcements on two platforms

On Linux a packet filter in the kernel picks the announcements out of the traffic of a link; on macOS the reader looks
at every frame of its read buffers itself. The filter delivers exactly the announcements (`lldpCdpFilter_deliver`), and
both readers find the same neighbours in the same traffic (`captures_agree`).
-/

namespace Idnx

open Outcome PacketFilter

variable {ε : Type}

/-! ## The filter -/

def bpfLd : UInt16 := 0x00
def bpfH : UInt16 := 0x08
def bpfW : UInt16 := 0x00
def bpfAbs : UInt16 := 0x20
def bpfJmp : UInt16 := 0x05
def bpfJeq : UInt16 := 0x10
def bpfK : UInt16 := 0x00
def bpfRet : UInt16 := 0x06

/-- The program of `attach_lldp_cdp_filter`. -/
def lldpCdpFilter : List SockFilter :=
  [ { code := bpfLd ||| bpfH ||| bpfAbs, jt := 0, jf := 0, k := 12 },
    { code := bpfJmp ||| bpfJeq ||| bpfK, jt := 4, jf := 0, k := 0x000088CC },
    { code := bpfLd ||| bpfW ||| bpfAbs, jt := 0, jf := 0, k := 0 },
    { code := bpfJmp ||| bpfJeq ||| bpfK, jt := 0, jf := 3, k := 0x01000CCC },
    { code := bpfLd ||| bpfH ||| bpfAbs, jt := 0, jf := 0, k := 4 },
    { code := bpfJmp ||| bpfJeq ||| bpfK, jt := 0, jf := 1, k := 0x0000CCCC },
    { code := bpfRet ||| bpfK, jt := 0, jf := 0, k := 262144 },
    { code := bpfRet ||| bpfK, jt := 0, jf := 0, k := 0 } ]

/-- The program as the kernel reads it. -/
def lldpCdpProgram : Program :=
  [.load .half 12, .jump .equal 0x88CC 4 0, .load .word 0, .jump .equal 0x01000CCC 0 3, .load .half 4,
    .jump .equal 0xCCCC 0 1, .ret 262144, .ret 0]

theorem decode_lldpCdpFilter : lldpCdpFilter.mapM SockFilter.decode = some lldpCdpProgram := by decide

theorem lldpCdpProgram_ne_nil : lldpCdpProgram ≠ [] := List.cons_ne_nil _ _

theorem checked_lldpCdpProgram : checked lldpCdpProgram := by decide

/-- A frame that announces a neighbour: by its EtherType LLDP, or by its destination CDP. -/
def IsAnnouncement (frame : Bytes) : Prop :=
  14 ≤ frame.length ∧ ((frame.drop 12).take 2 = [0x88, 0xCC] ∨ frame.take 6 = cdpMulticastMac)

instance (frame : Bytes) : Decidable (IsAnnouncement frame) := inferInstanceAs (Decidable (_ ∧ _))

section Deliver

variable {frame : Bytes}

theorem loadAt_of_le {w : Width} {i : Nat} (h : i + w.bytes ≤ frame.length) :
    loadAt frame w i = some (beNat ((frame.drop i).take w.bytes)) := if_pos h

/-- Numbers of the same width are equal as the bytes they are read from. -/
theorem beNat_eq_iff {a b : Bytes} (h : a.length = b.length) : beNat a = beNat b ↔ a = b := by
  refine ⟨fun heq => ?_, congrArg beNat⟩
  rw [← beBytes_beNat a, ← beBytes_beNat b, h, heq]

theorem holds_equal {a b : Bytes} {k : Nat} (hk : k = beNat b) (h : a.length = b.length) :
    Comparison.equal.holds (beNat a) k = decide (a = b) := by
  subst hk
  rw [Comparison.holds, Bool.eq_iff_iff, beq_iff_eq, decide_eq_true_iff]
  exact beNat_eq_iff h

/-- The address of CDP, as the filter looks at it. -/
theorem take_eq_cdpMulticastMac (h : 6 ≤ frame.length) :
    frame.take 6 = cdpMulticastMac ↔
      (frame.drop 0).take 4 = [0x01, 0x00, 0x0C, 0xCC] ∧ (frame.drop 4).take 2 = [0xCC, 0xCC] := by
  have hsplit : frame.take 6 = (frame.drop 0).take 4 ++ (frame.drop 4).take 2 := by
    rw [List.drop_zero, ← List.take_add]
  have hmac : cdpMulticastMac = [0x01, 0x00, 0x0C, 0xCC] ++ [0xCC, 0xCC] := rfl
  rw [hsplit, hmac]
  refine ⟨fun heq => List.append_inj heq ?_, fun heq => by rw [heq.1, heq.2]⟩
  rw [List.length_take, List.length_drop]
  show min 4 (frame.length - 0) = 4
  omega

/-- **The verdict of the program**: all of an announcement, nothing of any other frame. -/
theorem verdict_lldpCdpProgram (frame : Bytes) :
    Verdict lldpCdpProgram frame 0 0 (if IsAnnouncement frame then 262144 else 0) := by
  by_cases hlen : 14 ≤ frame.length
  case neg =>
    rw [if_neg fun h => hlen h.1]
    exact .outside rfl (if_neg fun h => hlen h)
  have hhalf : ∀ i, i + 2 ≤ frame.length → ((frame.drop i).take 2).length = 2 := fun i hi => by
    rw [List.length_take, List.length_drop]
    omega
  have hword : ((frame.drop 0).take 4).length = 4 := by
    rw [List.length_take, List.length_drop]
    omega
  have hlldp := holds_equal (show 0x88CC = beNat [0x88, 0xCC] by decide) (hhalf 12 (by omega))
  have hhigh := holds_equal (show 0x01000CCC = beNat [0x01, 0x00, 0x0C, 0xCC] by decide) hword
  have hlow := holds_equal (show 0xCCCC = beNat [0xCC, 0xCC] by decide) (hhalf 4 (by omega))
  refine .load rfl (loadAt_of_le hlen) ?_
  by_cases htype : (frame.drop 12).take 2 = [0x88, 0xCC]
  case pos =>
    rw [if_pos ⟨hlen, .inl htype⟩]
    exact .taken rfl (hlldp.trans (decide_eq_true htype)) (.ret rfl)
  refine .notTaken rfl (hlldp.trans (decide_eq_false htype)) ?_
  have hcdp := take_eq_cdpMulticastMac (show 6 ≤ frame.length by omega)
  refine .load rfl (loadAt_of_le (show 0 + 4 ≤ frame.length by omega)) ?_
  by_cases hfront : (frame.drop 0).take 4 = [0x01, 0x00, 0x0C, 0xCC]
  case neg =>
    rw [if_neg fun h => h.2.elim htype fun hmac => hfront (hcdp.mp hmac).1]
    exact .notTaken rfl (hhigh.trans (decide_eq_false hfront)) (.ret rfl)
  refine .taken rfl (hhigh.trans (decide_eq_true hfront)) ?_
  refine .load rfl (loadAt_of_le (show 4 + 2 ≤ frame.length by omega)) ?_
  by_cases hback : (frame.drop 4).take 2 = [0xCC, 0xCC]
  case neg =>
    rw [if_neg fun h => h.2.elim htype fun hmac => hback (hcdp.mp hmac).2]
    exact .notTaken rfl (hlow.trans (decide_eq_false hback)) (.ret rfl)
  rw [if_pos ⟨hlen, .inr (hcdp.mpr ⟨hfront, hback⟩)⟩]
  exact .taken rfl (hlow.trans (decide_eq_true hback)) (.ret rfl)

end Deliver

/-- **The kernel admits the filter, and it delivers exactly the announcements**, cut to the snap length. -/
theorem lldpCdpFilter_deliver : ∃ f, attach lldpCdpFilter = some f ∧
    ∀ frame, f.deliver frame = if IsAnnouncement frame then some (frame.take 262144) else none := by
  refine ⟨_, attach_eq_some decode_lldpCdpFilter lldpCdpProgram_ne_nil checked_lldpCdpProgram, fun frame => ?_⟩
  have hverdict := verdict_lldpCdpProgram frame
  by_cases h : IsAnnouncement frame
  · rw [if_pos h] at hverdict ⊢
    exact Filter.deliver_of_pos hverdict (by decide)
  · rw [if_neg h] at hverdict ⊢
    exact Filter.deliver_of_zero hverdict

/-! ## The readers -/

/-- What a raw socket hands on of a frame: what its filter delivers, or all of it if it has none. -/
def delivered : Option Filter → Bytes → Option Bytes
  | some f, frame => f.deliver frame
  | none, frame => some frame

/-- What the Linux reader makes of a received frame; its buffer has 2048 bytes. -/
def receiveLinux (frame : Bytes) : Outcome ε (Option LldpNeighbor) :=
  let received := frame.take 2048
  if 14 < received.length then (parseLldpFrame received).toOption else .ok none

/-- The neighbours the Linux reader finds among the frames of a link. -/
def captureLinuxRawSocket (filter : Option Filter) (frames : List Bytes) : Outcome ε (List LldpNeighbor) :=
  filterMapM receiveLinux (frames.filterMap (delivered filter))

/-- What the macOS reader makes of a frame. -/
def examineMacos (frame : Bytes) : Outcome ε (Option LldpNeighbor) := do
  let etherType ← u16At frame 12
  let destination ← slice frame 0 6
  if etherType = 0x88CC ∨ destination = cdpMulticastMac then (parseLldpFrame frame).toOption else return none

/-- One record of a read buffer, as the macOS reader walks it. -/
def lldpBpfRecord (buffer : Bytes) :
    Nat × List LldpNeighbor → Outcome ε (Turn (Nat × List LldpNeighbor) (List LldpNeighbor))
  | (readOffset, neighbors) =>
    if readOffset + bpfHdrMinLen ≤ buffer.length then do
      let caplen ← leU32At buffer (readOffset + 8)
      let hdrlen ← leU16At buffer (readOffset + 16)
      if hdrlen < bpfHdrMinLen ∨ caplen = 0 then return .done neighbors
      let pktStart := readOffset + hdrlen
      let pktEnd := pktStart + caplen
      if buffer.length < pktEnd ∨ buffer.length < pktStart + 14 then return .done neighbors
      let frame ← slice buffer pktStart pktEnd
      let found ← examineMacos frame
      let advance := wordAlign (hdrlen + caplen)
      if advance = 0 then return .done (neighbors ++ found.toList)
      return .next (readOffset + advance, neighbors ++ found.toList)
    else .ok (.done neighbors)

/-- What the macOS reader finds in one read buffer. -/
def readMacos (buffer : Bytes) : Outcome ε (List LldpNeighbor) :=
  if 14 < buffer.length then loop (lldpBpfRecord buffer) (buffer.length + 1) (0, []) else .ok []

/-- The neighbours the macOS reader finds in its read buffers. -/
def captureMacosBpf : List Bytes → Outcome ε (List LldpNeighbor)
  | [] => .ok []
  | buffer :: buffers => do
    let found ← readMacos buffer
    let more ← captureMacosBpf buffers
    return found ++ more

/-! ## What they find -/

/-- The neighbour a frame announces. -/
def announcedNeighbor (frame : Bytes) : Option LldpNeighbor :=
  if IsAnnouncement frame then
    match parseLldpFrame frame with
    | .ok neighbor => some neighbor
    | _ => none
  else none

theorem toOption_parseLldpFrame {frame : Bytes} (h : IsAnnouncement frame) :
    ((parseLldpFrame frame).toOption : Outcome ε _) = .ok (announcedNeighbor frame) := by
  have hsafe := safe_parseLldpFrame frame
  rw [announcedNeighbor, if_pos h]
  cases hparse : parseLldpFrame frame with
  | ok neighbor => rfl
  | err e => rfl
  | panic =>
    rw [hparse] at hsafe
    exact absurd hsafe id

/-- A record that holds an Ethernet frame, which is not shorter than its header. -/
structure EthernetRecord extends BpfRecord where
  header_le : 14 ≤ frame.length

/-- The bytes of one read: records padded up to the next one. -/
def packed (rs : List EthernetRecord) : Bytes :=
  rs.dropLast.flatMap (fun r => r.padded) ++ (rs.getLast?.map fun r => r.bytes).getD []

theorem packed_concat (rs : List EthernetRecord) (r : EthernetRecord) :
    packed (rs ++ [r]) = rs.flatMap (fun r => r.padded) ++ r.bytes := by
  rw [packed, List.dropLast_concat, List.getLast?_concat]
  rfl

/-- The macOS reader reads a frame iff it announces a neighbour. -/
theorem examineMacos_eq {frame : Bytes} (h : 14 ≤ frame.length) :
    (examineMacos frame : Outcome ε _) = .ok (announcedNeighbor frame) := by
  have hiff : (word (frame.getD 12 0) (frame.getD 13 0) = 0x88CC ∨ frame.take 6 = cdpMulticastMac) ↔
      IsAnnouncement frame := by
    have htype : word (frame.getD 12 0) (frame.getD 13 0) = 0x88CC ↔ (frame.drop 12).take 2 = [0x88, 0xCC] := by
      rw [take_two (by omega), show (0x88CC : UInt16) = word 0x88 0xCC by decide, word_inj, List.cons.injEq,
        List.cons.injEq, eq_self, and_true]
    rw [htype]
    exact ⟨fun hframe => ⟨h, hframe⟩, fun hframe => hframe.2⟩
  have hdestination : (slice frame 0 6 : Outcome ε _) = .ok (frame.take 6) := slice_eq (k := 0) (n := 6) (by omega)
  rw [examineMacos, u16At_eq (by omega), ok_bind, hdestination, ok_bind]
  by_cases hframe : IsAnnouncement frame
  · rw [if_pos (hiff.mpr hframe), toOption_parseLldpFrame hframe]
  · rw [if_neg fun heither => hframe (hiff.mp heither), announcedNeighbor, if_neg hframe]
    rfl

section Record

variable {buffer : Bytes} {k : Nat} (r : EthernetRecord)

/-- **A turn at a record** hears its frame and steps behind its padding, whether or not the padding is there. -/
theorem lldpBpfRecord_of_holds (h : Holds buffer k r.bytes) (neighbors : List LldpNeighbor) :
    (lldpBpfRecord buffer (k, neighbors) : Outcome ε _) =
      .ok (.next (k + r.padded.length, neighbors ++ (announcedNeighbor r.frame).toList)) := by
  have hlen := h.length_le
  have hhdr : bpfHdrMinLen = 18 := rfl
  have hhdrlen : r.hdrlen = 18 + r.extra.length := rfl
  have hpos := r.header_le
  have hadvance := le_wordAlign (r.hdrlen + r.frame.length)
  rw [BpfRecord.length_bytes] at hlen
  have hcaplen : Holds buffer (k + 8) (beBytes 4 r.frame.length).reverse := by
    have hfields := h.left.left.left.left.right
    rwa [r.length_tstamp] at hfields
  have hlength : Holds buffer (k + 16) (beBytes 2 r.hdrlen).reverse := by
    have hfields := h.left.left.right
    simpa [r.length_tstamp, r.length_datalen] using hfields
  have hframe : Holds buffer (k + r.hdrlen) r.frame := by
    have hfields := h.right
    simp only [List.length_append, List.length_reverse, length_beBytes, r.length_tstamp, r.length_datalen] at hfields
    exact hfields
  rw [lldpBpfRecord, if_pos (by omega), leU32At_of_holds r.caplen_lt hcaplen, ok_bind,
    leU16At_of_holds (show r.hdrlen < 2 ^ 16 from r.hdrlen_lt) hlength, ok_bind, if_neg (by omega)]
  dsimp only
  rw [if_neg (by omega), hframe.slice, ok_bind, examineMacos_eq r.header_le, ok_bind, if_neg (by omega),
    BpfRecord.length_padded]
  rfl

/-- Too few bytes for a header end the loop. -/
theorem loop_lldpBpfRecord_of_short (h : buffer.length < k + bpfHdrMinLen) (neighbors : List LldpNeighbor)
    (fuel : Nat) : (loop (lldpBpfRecord buffer) (fuel + 1) (k, neighbors) : Outcome ε _) = .ok neighbors := by
  rw [loop, lldpBpfRecord, if_neg (Nat.not_le_of_lt h)]
  rfl

end Record

theorem foldl_announcedNeighbor (rs : List EthernetRecord) :
    rs.foldl (fun neighbors r => neighbors ++ (announcedNeighbor r.frame).toList) [] =
      rs.filterMap fun r => announcedNeighbor r.frame := by
  have hadd := foldl_flatMap (p := id) (g := fun neighbors (r : EthernetRecord) =>
    neighbors ++ (announcedNeighbor r.frame).toList) (fun _ _ => rfl) rs []
  exact hadd.trans (List.filterMap_eq_flatMap_toList _ _).symm

/-- **One read of packed records** finds what their frames announce. -/
theorem loop_lldpBpfRecord (rs : List EthernetRecord) :
    (loop (lldpBpfRecord (packed rs)) ((packed rs).length + 1) (0, []) : Outcome ε _) =
      .ok (rs.filterMap fun r => announcedNeighbor r.frame) := by
  have hhdr : bpfHdrMinLen = 18 := rfl
  rcases List.eq_nil_or_concat rs with rfl | ⟨rs, r, rfl⟩
  · exact loop_lldpBpfRecord_of_short (by decide) [] _
  rw [List.concat_eq_append]
  obtain ⟨buffer, hbuffer⟩ : ∃ buffer, buffer = packed (rs ++ [r]) := ⟨_, rfl⟩
  have hself : Holds buffer 0 (rs.flatMap (fun r => r.padded) ++ r.bytes) := by
    rw [hbuffer, packed_concat]
    exact Holds.self _
  have hlen : buffer.length = (rs.flatMap fun r => r.padded).length + r.bytes.length := by
    rw [hbuffer, packed_concat, List.length_append]
  have hpos := r.frame_pos
  have hadvance := le_wordAlign (r.hdrlen + r.frame.length)
  have hbytes := r.length_bytes
  have hfew := length_le_of_holds (fun r : EthernetRecord => r.padded_pos) rs
  obtain ⟨fuel, hfuel⟩ := Nat.exists_eq_add_of_le (show rs.length + 1 ≤ buffer.length by omega)
  have hstep : ∀ k (r : EthernetRecord) neighbors, Holds buffer k r.padded →
      (lldpBpfRecord buffer (k, neighbors) : Outcome ε _) =
        .ok (.next (k + r.padded.length, neighbors ++ (announcedNeighbor r.frame).toList)) := fun k r neighbors h =>
    lldpBpfRecord_of_holds r h.left neighbors
  have hrecords := loop_records hstep rs hself.left [] (fuel + 1 + 1)
  rw [← hbuffer, hfuel, show rs.length + 1 + fuel + 1 = fuel + 1 + 1 + rs.length by omega, hrecords,
    loop_next (lldpBpfRecord_of_holds r hself.right _), loop_lldpBpfRecord_of_short]
  · rw [← foldl_announcedNeighbor, List.foldl_append]
    rfl
  · rw [BpfRecord.length_padded]
    omega

/-! ## Both platforms -/

/-- The macOS reader finds what the frames of its reads announce, one read after the other. -/
theorem captureMacosBpf_packed (reads : List (List EthernetRecord)) :
    (captureMacosBpf (reads.map packed) : Outcome ε _) =
      .ok ((reads.flatten.map fun r => r.frame).filterMap announcedNeighbor) := by
  induction reads with
  | nil => rfl
  | cons rs reads ih =>
    have hread : (readMacos (packed rs) : Outcome ε _) =
        .ok ((rs.map fun r => r.frame).filterMap announcedNeighbor) := by
      unfold readMacos
      split
      case isTrue =>
        rw [loop_lldpBpfRecord, List.filterMap_map]
        rfl
      case isFalse hshort =>
        rcases List.eq_nil_or_concat rs with rfl | ⟨rs, r, rfl⟩
        · rfl
        · rw [List.concat_eq_append, packed_concat, List.length_append, BpfRecord.length_bytes] at hshort
          have hhdrlen : r.hdrlen = 18 + r.extra.length := rfl
          omega
    rw [List.map_cons, captureMacosBpf, hread, ok_bind, ih, ok_bind, List.flatten_cons, List.map_append,
      List.filterMap_append]
    rfl

/-- The header alone announces nothing. -/
theorem announced_of_length {frame : Bytes} (h : frame.length ≤ 14) : announcedNeighbor frame = none := by
  rw [announcedNeighbor]
  split
  case isFalse => rfl
  case isTrue hframe =>
    have hlen : frame.length = 14 := Nat.le_antisymm h hframe.1
    have hend : (loop (lldpTlv frame) (frame.length + 1) (14, {}) : Outcome Unit _) = .ok {} := by
      rw [loop, lldpTlv, if_neg (by omega)]
      rfl
    rw [parseLldpFrame, require_of hframe.1, ok_bind, cdpAnnounced, if_neg (by omega), ok_bind]
    dsimp only
    rw [hend]
    rfl

/-- The Linux reader hears what an announcement that fits its buffer says. -/
theorem receiveLinux_eq {frame : Bytes} (h : IsAnnouncement frame) (hfit : frame.length ≤ 2048) :
    (receiveLinux frame : Outcome ε _) = .ok (announcedNeighbor frame) := by
  rw [receiveLinux, List.take_of_length_le hfit]
  split
  case isTrue => exact toOption_parseLldpFrame h
  case isFalse hshort => rw [announced_of_length (by omega)]

/-- The Linux reader finds what the frames announce: the filter keeps them all, and its buffer holds them. -/
theorem captureLinuxRawSocket_eq {f : Filter} (hf : attach lldpCdpFilter = some f) {frames : List Bytes}
    (hfit : ∀ frame ∈ frames, frame.length ≤ 2048) :
    (captureLinuxRawSocket (some f) frames : Outcome ε _) = .ok (frames.filterMap announcedNeighbor) := by
  obtain ⟨f', hf', hdeliver⟩ := lldpCdpFilter_deliver
  obtain rfl := Option.some.inj (hf.symm.trans hf')
  induction frames with
  | nil => rfl
  | cons frame frames ih =>
    have hlen := hfit frame List.mem_cons_self
    replace ih := ih fun frame h => hfit frame (List.mem_cons_of_mem _ h)
    unfold captureLinuxRawSocket at ih ⊢
    by_cases hframe : IsAnnouncement frame
    case neg =>
      have hdrop : delivered (some f) frame = none := (hdeliver frame).trans (if_neg hframe)
      have hnone : announcedNeighbor frame = none := if_neg hframe
      rw [List.filterMap_cons_none hdrop, ih, List.filterMap_cons_none hnone]
    case pos =>
      have hkeep : delivered (some f) frame = some frame := by
        rw [delivered, hdeliver, if_pos hframe, List.take_of_length_le (by omega)]
      rw [List.filterMap_cons_some hkeep, filterMapM, receiveLinux_eq hframe hlen, ok_bind, ih, ok_bind]
      cases hfound : announcedNeighbor frame with
      | none => rw [List.filterMap_cons_none hfound]; rfl
      | some neighbor => rw [List.filterMap_cons_some hfound]; rfl

/-- **Both readers find the same neighbours** in the same traffic, and these are what the announcements among its
frames say: for every grouping of the frames into reads, every header and padding of the records, and every frame that
is whole and fits the buffer of the Linux reader. -/
theorem captures_agree {f : Filter} (hf : attach lldpCdpFilter = some f) (reads : List (List EthernetRecord))
    (hfit : ∀ r ∈ reads.flatten, r.frame.length ≤ 2048) :
    let frames := reads.flatten.map fun r => r.frame
    (captureMacosBpf (reads.map packed) : Outcome ε _) = .ok (frames.filterMap announcedNeighbor) ∧
      (captureLinuxRawSocket (some f) frames : Outcome ε _) = .ok (frames.filterMap announcedNeighbor) := by
  refine ⟨captureMacosBpf_packed reads, captureLinuxRawSocket_eq hf fun frame hframe => ?_⟩
  obtain ⟨r, hr, rfl⟩ := List.mem_map.mp hframe
  exact hfit r hr

/-- An LLDP frame that names its chassis and its port in a letter each. -/
def lettersFrame : Bytes :=
  [0x01, 0x80, 0xC2, 0x00, 0x00, 0x0E, 0x02, 0x00, 0x00, 0x00, 0x00, 0x01, 0x88, 0xCC, 0x02, 0x02, 0x07, 0x73, 0x04,
    0x02, 0x05, 0x70, 0x00, 0x00]

/-- The neighbour it announces. -/
def lettersNeighbor : LldpNeighbor :=
  { chassisId := "s", portId := "p", systemName := none, systemDescription := none, managementIp := none,
    capabilities := [] }

theorem captures_agree_letters : ∃ (f : Filter) (reads : List (List EthernetRecord)),
    attach lldpCdpFilter = some f ∧ (reads.flatten.map fun r => r.frame) = [lettersFrame, lettersFrame] ∧
    (captureMacosBpf (reads.map packed) : Outcome Unit _) = .ok [lettersNeighbor, lettersNeighbor] ∧
    (captureLinuxRawSocket (some f) [lettersFrame, lettersFrame] : Outcome Unit _) =
      .ok [lettersNeighbor, lettersNeighbor] := by
  obtain ⟨f, hf⟩ : ∃ f, attach lldpCdpFilter = some f :=
    ⟨_, attach_eq_some decode_lldpCdpFilter lldpCdpProgram_ne_nil checked_lldpCdpProgram⟩
  have hletters : announcedNeighbor lettersFrame = some lettersNeighbor := by decide
  have hboth : [lettersFrame, lettersFrame].filterMap announcedNeighbor = [lettersNeighbor, lettersNeighbor] := by
    rw [List.filterMap_cons_some hletters, List.filterMap_cons_some hletters, List.filterMap_nil]
  let r : EthernetRecord :=
    { tstamp := List.replicate 8 0, datalen := List.replicate 4 0, extra := [], frame := lettersFrame,
      padding := List.replicate 2 0, length_tstamp := rfl, length_datalen := rfl, hdrlen_lt := by decide,
      frame_ne := List.cons_ne_nil _ _, caplen_lt := by decide, length_padding := rfl, header_le := by decide }
  have hfit : ∀ r' ∈ [[r, r]].flatten, r'.frame.length ≤ 2048 := by
    intro r' hr'
    rcases List.mem_pair.mp hr' with rfl | rfl <;> decide
  obtain ⟨hmacos, hlinux⟩ := captures_agree (ε := Unit) hf [[r, r]] hfit
  rw [← hboth]
  exact ⟨f, [[r, r]], hf, rfl, hmacos, hlinux⟩

end Idnx
