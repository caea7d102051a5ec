import Idnx.Lib.Framing
import Idnx.Lib.Records

/-!
# Frames of a BPF read buffer

A read buffer is records: a header that states its own length and that of the frame, the frame, and padding up to a
multiple of four. `bpfFrames` gives the frames as slices of the buffer. Of records packed one behind the other it gives
exactly their frames, whether or not the last of them is padded (`bpfFrames_packed`, `bpfFrames_unpadded`); of any
buffer it gives slices inside the buffer of which each ends before the next one starts (`returns_bpfFrames`).
-/

namespace Idnx

open Outcome

variable {ε : Type}

/-! ## The splitter -/

/-- A slice of a list: a range inside it. -/
structure Slice {α : Type} (l : List α) where
  start : Nat
  stop : Nat
  start_le : start ≤ stop
  stop_le : stop ≤ l.length

/-- The elements of a slice. -/
def Slice.elements {α : Type} {l : List α} (s : Slice l) : List α := (l.drop s.start).take (s.stop - s.start)

/-- The slice of a range; a panic if the range is not inside the list. -/
def sliceOf {α : Type} (l : List α) (start stop : Nat) : Outcome ε (Slice l) :=
  if h : start ≤ stop ∧ stop ≤ l.length then .ok ⟨start, stop, h.1, h.2⟩ else .panic

/-- The least header of a record (`BPF_HDR_MIN_LEN`). -/
def bpfHdrMinLen : Nat := 18

/-- The next multiple of four. -/
def wordAlign (len : Nat) : Nat := (len + 3) / 4 * 4

/-- The four bytes from `i` on, the least significant first. -/
def leU32At (bytes : Bytes) (i : Nat) : Outcome ε Nat := do
  let a ← index bytes i
  let b ← index bytes (i + 1)
  let c ← index bytes (i + 2)
  let d ← index bytes (i + 3)
  return beNat [d, c, b, a]

/-- The two bytes from `i` on, the least significant first. -/
def leU16At (bytes : Bytes) (i : Nat) : Outcome ε Nat := do
  let a ← index bytes i
  let b ← index bytes (i + 1)
  return beNat [b, a]

/-- One record: a time stamp of eight bytes, the captured length, the length on the wire, and the length of the header
itself. A position is less than `2^64` by far. -/
def bpfRecord (buffer : Bytes) : Nat × List (Slice buffer) →
    Outcome ε (Turn (Nat × List (Slice buffer)) (List (Slice buffer)))
  | (offset, frames) =>
    if offset + bpfHdrMinLen ≤ buffer.length then do
      let caplen ← leU32At buffer (offset + 8)
      let hdrlen ← leU16At buffer (offset + 16)
      if hdrlen < bpfHdrMinLen ∨ caplen = 0 then return .done frames
      let start := offset + hdrlen
      let stop := start + caplen
      if buffer.length < stop then return .done frames
      let frame ← sliceOf buffer start stop
      let advance := wordAlign (hdrlen + caplen)
      if advance = 0 then return .done (frames ++ [frame])
      return .next (offset + advance, frames ++ [frame])
    else .ok (.done frames)

/-- Splits a BPF read buffer into individual frames. -/
def bpfFrames (buffer : Bytes) : Outcome ε (List (Slice buffer)) :=
  loop (bpfRecord buffer) (buffer.length + 1) (0, [])

/-! ## Any buffer -/

theorem le_wordAlign (len : Nat) : len ≤ wordAlign len := by
  unfold wordAlign
  omega

theorem returns_leU32At {bytes : Bytes} {i : Nat} (h : i + 4 ≤ bytes.length) :
    Returns (fun _ => True) (leU32At bytes i : Outcome ε _) := by
  refine (returns_index (by omega)).bind fun a _ => (returns_index (by omega)).bind fun b _ => ?_
  exact (returns_index (by omega)).bind fun c _ => (returns_index (by omega)).bind fun d _ => returns_ok trivial

theorem returns_leU16At {bytes : Bytes} {i : Nat} (h : i + 2 ≤ bytes.length) :
    Returns (fun _ => True) (leU16At bytes i : Outcome ε _) :=
  (returns_index (by omega)).bind fun a _ => (returns_index (by omega)).bind fun b _ => returns_ok trivial

theorem returns_sliceOf {l : Bytes} {start stop : Nat} (h : start ≤ stop) (h' : stop ≤ l.length) :
    Returns (fun s : Slice l => s.start = start ∧ s.stop = stop) (sliceOf l start stop : Outcome ε _) := by
  unfold sliceOf
  rw [dif_pos ⟨h, h'⟩]
  exact returns_ok ⟨rfl, rfl⟩

/-- Each slice ends before the next one starts. -/
def InOrder {buffer : Bytes} (frames : List (Slice buffer)) : Prop := frames.Pairwise fun a b => a.stop ≤ b.start

/-- **Every buffer is split to an end**, into slices that are apart. -/
theorem returns_bpfFrames (buffer : Bytes) : Returns InOrder (bpfFrames buffer : Outcome ε _) := by
  refine returns_loop (fun s : Nat × List (Slice buffer) => InOrder s.2 ∧ ∀ frame ∈ s.2, frame.stop ≤ s.1)
    (fun s => buffer.length - s.1) (fun s hs => ?_) ⟨List.Pairwise.nil, nofun⟩ (Nat.lt_succ_of_le (Nat.sub_le _ _))
  obtain ⟨offset, frames⟩ := s
  obtain ⟨hapart, hbehind⟩ := hs
  rw [bpfRecord]
  split
  case isFalse => exact returns_ok hapart
  case isTrue hin =>
    have hhdr : bpfHdrMinLen = 18 := rfl
    refine (returns_leU32At (by omega)).bind fun caplen _ => (returns_leU16At (by omega)).bind fun hdrlen _ => ?_
    split
    case isTrue => exact returns_ok hapart
    case isFalse hrecord =>
      obtain ⟨hmin, hcaplen⟩ := not_or.mp hrecord
      dsimp only
      split
      case isTrue => exact returns_ok hapart
      case isFalse hfits =>
        refine (returns_sliceOf (Nat.le_add_right _ _) (Nat.le_of_not_lt hfits)).bind fun frame hframe => ?_
        obtain ⟨hstart, hstop⟩ := hframe
        have hadvance := le_wordAlign (hdrlen + caplen)
        have hapart' : InOrder (frames ++ [frame]) := by
          refine List.pairwise_append.mpr ⟨hapart, List.pairwise_singleton _ _, fun a ha b hb => ?_⟩
          obtain rfl := List.mem_singleton.mp hb
          have := hbehind a ha
          omega
        rw [if_neg (by omega)]
        refine returns_ok ⟨⟨hapart', fun a ha => ?_⟩, ?_⟩
        · rcases List.mem_append.mp ha with ha | ha
          · have := hbehind a ha
            dsimp only
            omega
          · obtain rfl := List.mem_singleton.mp ha
            dsimp only
            omega
        · dsimp only
          omega

/-! ## Packed records -/

/-- A record as the kernel packs it: the header, of which everything behind the first eighteen bytes is `extra`, a frame
that is not empty, and the padding. -/
structure BpfRecord where
  tstamp : Bytes
  datalen : Bytes
  extra : Bytes
  frame : Bytes
  padding : Bytes
  length_tstamp : tstamp.length = 8
  length_datalen : datalen.length = 4
  hdrlen_lt : 18 + extra.length < 2 ^ 16
  frame_ne : frame ≠ []
  caplen_lt : frame.length < 2 ^ 32
  length_padding : padding.length =
    wordAlign (18 + extra.length + frame.length) - (18 + extra.length + frame.length)

namespace BpfRecord

def hdrlen (r : BpfRecord) : Nat := 18 + r.extra.length

/-- The record without its padding. -/
def bytes (r : BpfRecord) : Bytes :=
  r.tstamp ++ (beBytes 4 r.frame.length).reverse ++ r.datalen ++ (beBytes 2 r.hdrlen).reverse ++ r.extra ++ r.frame

def padded (r : BpfRecord) : Bytes := r.bytes ++ r.padding

theorem length_bytes (r : BpfRecord) : r.bytes.length = r.hdrlen + r.frame.length := by
  simp only [bytes, List.length_append, List.length_reverse, length_beBytes, r.length_tstamp, r.length_datalen, hdrlen]

theorem length_padded (r : BpfRecord) : r.padded.length = wordAlign (r.hdrlen + r.frame.length) := by
  have hle := le_wordAlign (r.hdrlen + r.frame.length)
  rw [padded, List.length_append, length_bytes, r.length_padding, hdrlen] at *
  omega

theorem frame_pos (r : BpfRecord) : 0 < r.frame.length := List.length_pos_of_ne_nil r.frame_ne

end BpfRecord

section Packed

variable {buffer : Bytes} {k : Nat}

theorem leU32At_of_holds {bytes : Bytes} {i n : Nat} (hn : n < 2 ^ 32) (h : Holds bytes i (beBytes 4 n).reverse) :
    (leU32At bytes i : Outcome ε _) = .ok n := by
  have hback : beNat (beBytes 4 n) = n := beNat_beBytes hn
  have hlen := length_beBytes 4 n
  match hbytes : beBytes 4 n, hlen with
  | [d, c, b, a], _ =>
    rw [hbytes] at h hback
    have hb : Holds bytes (i + 1) [b, c, d] := Holds.right (x := [a]) h
    have hc : Holds bytes (i + 2) [c, d] := Holds.right (x := [a, b]) h
    have hd : Holds bytes (i + 3) [d] := Holds.right (x := [a, b, c]) h
    rw [leU32At, Holds.index (y := [b, c, d]) h, ok_bind, hb.index, ok_bind, hc.index, ok_bind, hd.index, ok_bind,
      hback]
    rfl

theorem leU16At_of_holds {bytes : Bytes} {i n : Nat} (hn : n < 2 ^ 16) (h : Holds bytes i (beBytes 2 n).reverse) :
    (leU16At bytes i : Outcome ε _) = .ok n := by
  have hback : beNat (beBytes 2 n) = n := beNat_beBytes hn
  have hlen := length_beBytes 2 n
  match hbytes : beBytes 2 n, hlen with
  | [b, a], _ =>
    rw [hbytes] at h hback
    have hb : Holds bytes (i + 1) [b] := Holds.right (x := [a]) h
    rw [leU16At, Holds.index (y := [b]) h, ok_bind, hb.index, ok_bind, hback]
    rfl

/-- **A turn at a record** takes its frame and steps behind its padding, whether or not the padding is there. -/
theorem bpfRecord_of_holds (r : BpfRecord) (h : Holds buffer k r.bytes) (frames : List (Slice buffer)) :
    ∃ frame : Slice buffer, frame.elements = r.frame ∧
      (bpfRecord buffer (k, frames) : Outcome ε _) = .ok (.next (k + r.padded.length, frames ++ [frame])) := by
  have hlen := h.length_le
  have hhdr : bpfHdrMinLen = 18 := rfl
  have hhdrlen : r.hdrlen = 18 + r.extra.length := rfl
  have hpos := r.frame_pos
  have hadvance := le_wordAlign (r.hdrlen + r.frame.length)
  rw [BpfRecord.length_bytes] at hlen
  have hcaplen : Holds buffer (k + 8) (beBytes 4 r.frame.length).reverse := by
    have hfields := h.left.left.left.left.right
    rwa [r.length_tstamp] at hfields
  have hlength : Holds buffer (k + 16) (beBytes 2 r.hdrlen).reverse := by
    have hfields := h.left.left.right
    simpa [r.length_tstamp, r.length_datalen] using hfields
  have hframe : Holds buffer (k + r.hdrlen) r.frame := by
    have hfields := h.right
    simp only [List.length_append, List.length_reverse, length_beBytes, r.length_tstamp, r.length_datalen] at hfields
    exact hfields
  refine ⟨⟨k + r.hdrlen, k + r.hdrlen + r.frame.length, Nat.le_add_right _ _, by omega⟩, ?_, ?_⟩
  · rw [Slice.elements, Nat.add_sub_cancel_left, hframe.drop_take]
  · rw [bpfRecord, if_pos (by omega), leU32At_of_holds r.caplen_lt hcaplen, ok_bind,
      leU16At_of_holds (show r.hdrlen < 2 ^ 16 from r.hdrlen_lt) hlength, ok_bind, if_neg (by omega)]
    dsimp only
    rw [if_neg (by omega), sliceOf, dif_pos ⟨Nat.le_add_right _ _, by omega⟩, ok_bind, if_neg (by omega),
      BpfRecord.length_padded]
    rfl

/-- The turns at a sequence of records take their frames. -/
theorem loop_bpfRecord (rs : List BpfRecord) (h : Holds buffer k (rs.flatMap BpfRecord.padded))
    (frames : List (Slice buffer)) (fuel : Nat) :
    ∃ more : List (Slice buffer), more.map Slice.elements = rs.map BpfRecord.frame ∧
      (loop (bpfRecord buffer) (fuel + rs.length) (k, frames) : Outcome ε _) =
        loop (bpfRecord buffer) fuel (k + (rs.flatMap BpfRecord.padded).length, frames ++ more) := by
  induction rs generalizing k frames with
  | nil => exact ⟨[], rfl, by rw [List.append_nil]; rfl⟩
  | cons r rs ih =>
    rw [List.flatMap_cons] at h
    obtain ⟨frame, hframe, hturn⟩ := bpfRecord_of_holds (ε := ε) r h.left.left frames
    obtain ⟨more, hmore, hloop⟩ := ih h.right (frames ++ [frame])
    refine ⟨frame :: more, by rw [List.map_cons, hframe, hmore, List.map_cons], ?_⟩
    rw [List.length_cons, ← Nat.add_assoc, loop_next hturn, hloop, List.flatMap_cons, List.length_append, Nat.add_assoc,
      List.append_assoc]
    rfl

/-- Too few bytes for a header end the loop. -/
theorem loop_bpfRecord_of_short (h : buffer.length < k + bpfHdrMinLen) (frames : List (Slice buffer)) (fuel : Nat) :
    (loop (bpfRecord buffer) (fuel + 1) (k, frames) : Outcome ε _) = .ok frames := by
  rw [loop, bpfRecord, if_neg (Nat.not_le_of_lt h)]
  rfl

theorem BpfRecord.padded_pos (r : BpfRecord) : 0 < r.padded.length := by
  have hpos := r.frame_pos
  have hadvance := le_wordAlign (r.hdrlen + r.frame.length)
  rw [BpfRecord.length_padded]
  omega

/-- Records that are all padded are split into their frames. -/
theorem bpfFrames_packed (rs : List BpfRecord) :
    ∃ frames, (bpfFrames (rs.flatMap BpfRecord.padded) : Outcome ε _) = .ok frames ∧
      frames.map Slice.elements = rs.map BpfRecord.frame := by
  obtain ⟨fuel, hfuel⟩ := Nat.exists_eq_add_of_le (length_le_of_holds BpfRecord.padded_pos rs)
  obtain ⟨frames, hframes, hloop⟩ := loop_bpfRecord (ε := ε) rs (Holds.self _) [] (fuel + 1)
  refine ⟨frames, ?_, hframes⟩
  rw [bpfFrames, hfuel, show rs.length + fuel + 1 = fuel + 1 + rs.length by omega, hloop, List.nil_append]
  exact loop_bpfRecord_of_short (by rw [Nat.zero_add]; exact Nat.lt_add_of_pos_right (by decide)) frames fuel

/-- **The padding of the last record does not matter**: it may be cut short, or left out. -/
theorem bpfFrames_unpadded (rs : List BpfRecord) (r : BpfRecord) {padding : Bytes} (h : padding <+: r.padding) :
    ∃ frames, (bpfFrames (rs.flatMap BpfRecord.padded ++ r.bytes ++ padding) : Outcome ε _) = .ok frames ∧
      frames.map Slice.elements = (rs ++ [r]).map BpfRecord.frame := by
  have hshort := h.length_le
  have hfew := length_le_of_holds BpfRecord.padded_pos rs
  have hpos := r.frame_pos
  have hlen : (rs.flatMap BpfRecord.padded ++ r.bytes ++ padding).length =
      (rs.flatMap BpfRecord.padded).length + r.bytes.length + padding.length := by
    rw [List.length_append, List.length_append]
  have hbytes := r.length_bytes
  have hpadded : r.padded.length = r.bytes.length + r.padding.length := List.length_append
  have hself := Holds.self (rs.flatMap BpfRecord.padded ++ r.bytes ++ padding)
  obtain ⟨fuel, hfuel⟩ := Nat.exists_eq_add_of_le (show rs.length + 1 ≤ (rs.flatMap BpfRecord.padded ++ r.bytes ++
    padding).length by omega)
  obtain ⟨frames, hframes, hloop⟩ := loop_bpfRecord (ε := ε) rs hself.left.left [] (fuel + 1 + 1)
  have hlast := hself.left.right
  rw [Nat.zero_add] at hlast hloop
  obtain ⟨frame, hframe, hturn⟩ := bpfRecord_of_holds (ε := ε) r hlast ([] ++ frames)
  refine ⟨frames ++ [frame], ?_, ?_⟩
  · rw [bpfFrames, hfuel, show rs.length + 1 + fuel + 1 = fuel + 1 + 1 + rs.length by omega, hloop, loop_next hturn,
      List.nil_append]
    refine loop_bpfRecord_of_short ?_ _ fuel
    have hhdr : bpfHdrMinLen = 18 := rfl
    omega
  · rw [List.map_append, List.map_append, hframes, List.map_singleton, List.map_singleton, hframe]

end Packed

/-- **A read buffer is split into its frames**: packed records into exactly their frames in order, and any buffer into
slices inside it that share no byte. -/
theorem bpfFrames_spec :
    (∀ rs : List BpfRecord, ∃ frames, (bpfFrames (rs.flatMap BpfRecord.padded) : Outcome ε _) = .ok frames ∧
      frames.map Slice.elements = rs.map BpfRecord.frame) ∧
    (∀ (rs : List BpfRecord) (r : BpfRecord) (padding : Bytes), padding <+: r.padding →
      ∃ frames, (bpfFrames (rs.flatMap BpfRecord.padded ++ r.bytes ++ padding) : Outcome ε _) = .ok frames ∧
        frames.map Slice.elements = (rs ++ [r]).map BpfRecord.frame) ∧
    ∀ buffer : Bytes, ∃ frames, (bpfFrames buffer : Outcome ε _) = .ok frames ∧
      (∀ frame ∈ frames, frame.start ≤ frame.stop ∧ frame.stop ≤ buffer.length) ∧
      frames.Pairwise fun a b => ∀ i, ¬ ((a.start ≤ i ∧ i < a.stop) ∧ b.start ≤ i ∧ i < b.stop) := by
  refine ⟨bpfFrames_packed, fun rs r padding => bpfFrames_unpadded rs r, fun buffer => ?_⟩
  obtain ⟨frames, hframes, hapart⟩ := returns_bpfFrames (ε := ε) buffer
  refine ⟨frames, hframes, fun frame _ => ⟨frame.start_le, frame.stop_le⟩, hapart.imp fun hab i hi => ?_⟩
  omega

end Idnx
