import Idnx.Lib.Framing
import Idnx.Lib.Records
import Idnx.Lib.Text

/-!
# Capture files

A capture file is a header of 24 bytes and records, each with its own header and a frame. The magic number tells the
byte order the writer used. `read` gives the frames of exactly the files that are a header and whole records of a
plausible length on Ethernet (`read_capture`); any other file it refuses.
-/

namespace Idnx.Pcap

open Outcome

variable {ε : Type}

/-! ## The reader -/

def magicMicroseconds : Nat := 0xA1B2C3D4
def magicMicrosecondsSwapped : Nat := 0xD4C3B2A1
def magicNanoseconds : Nat := 0xA1B23C4D
def magicNanosecondsSwapped : Nat := 0x4D3CB2A1

/-- The framing every decoder assumes. -/
def linktypeEthernet : Nat := 1

def fileHeaderLen : Nat := 24
def recordHeaderLen : Nat := 16

/-- A capture file's frames, in the order they were recorded. -/
structure Capture where
  linkType : Nat
  frames : List Bytes
  deriving DecidableEq, Repr

/-- The bytes of a word, the most significant first: a writer that is not `swapped` is little-endian. -/
def inOrder (swapped : Bool) (raw : Bytes) : Bytes := if swapped then raw else raw.reverse

/-- The word at a place. -/
def word (swapped : Bool) (bytes : Bytes) (i : Nat) : Outcome ε Nat := do
  let raw ← slice bytes i (i + 4)
  return beNat (inOrder swapped raw)

/-- Whether the file is byte-swapped, as its magic number tells. -/
def readMagic (magic : Nat) : Outcome Text Bool :=
  if magic = magicMicroseconds ∨ magic = magicNanoseconds then .ok false
  else if magic = magicMicrosecondsSwapped ∨ magic = magicNanosecondsSwapped then .ok true
  else .err (("not a libpcap capture: magic 0x" : Text) ++ (beBytes 4 magic).flatMap hexByte)

/-- One turn of the loop over the records. -/
def readRecord (swapped : Bool) (snaplen : Nat) (bytes : Bytes) :
    Nat × List Bytes → Outcome Text (Turn (Nat × List Bytes) (List Bytes))
  | (i, frames) =>
    if i < bytes.length then do
      if bytes.length < i + recordHeaderLen then
        .err (("record header truncated at byte " : Text) ++ Text.ofNat i)
      else
      let captured ← word swapped bytes (i + 8)
      let _original : Nat ← word swapped bytes (i + 12)
      if max snaplen captured < captured ∨ 262144 < captured then
        .err (("record at byte " : Text) ++ Text.ofNat i ++ (" declares an implausible length" : Text))
      else
      let start := i + recordHeaderLen
      let stop := start + captured
      if bytes.length < stop then
        .err (("record at byte " : Text) ++ Text.ofNat i ++ (" declares " : Text) ++ Text.ofNat captured ++
          (" bytes and the file holds " : Text) ++ Text.ofNat (bytes.length - start))
      else
      let frame ← slice bytes start stop
      return .next (stop, frames ++ [frame])
    else .ok (.done frames)

/-- Reads a capture, or explains why it cannot be used. -/
def read (bytes : Bytes) : Outcome Text Capture := do
  require (fileHeaderLen ≤ bytes.length) ("shorter than a capture file header" : Text)
  let magic ← word false bytes 0
  let swapped ← readMagic magic
  let linkType ← word swapped bytes 20
  require (linkType = linktypeEthernet) (("link type " : Text) ++ Text.ofNat linkType ++
    (" is not Ethernet (DLT_EN10MB); its frames have a different header and decoding them as Ethernet would read " ++
      "arbitrary bytes as addresses" : Text))
  let snaplen ← word swapped bytes 16
  let frames ← loop (readRecord swapped snaplen bytes) (bytes.length + 1) (fileHeaderLen, [])
  return ⟨linkType, frames⟩

/-! ## Capture files -/

/-- The header of an Ethernet capture: byte order, unit of the time stamps, versions and zone, snapshot length. -/
structure FileHeader where
  swapped : Bool
  nanoseconds : Bool
  versions : Bytes
  length_versions : versions.length = 12
  snaplen : UInt32

def FileHeader.magic (h : FileHeader) : Nat := if h.nanoseconds then magicNanoseconds else magicMicroseconds

/-- A word as the writer of the file puts it. -/
def wordBytes (swapped : Bool) (x : Nat) : Bytes := inOrder swapped (beBytes 4 x)

def FileHeader.bytes (h : FileHeader) : Bytes :=
  wordBytes h.swapped h.magic ++ (h.versions ++ (wordBytes h.swapped h.snaplen.toNat ++
    wordBytes h.swapped linktypeEthernet))

/-- A record: when, how long the frame was on the wire, and what was captured of it. -/
structure Record where
  time : Bytes
  length_time : time.length = 8
  original : UInt32
  frame : Bytes
  length_frame : frame.length ≤ 262144

def Record.bytes (swapped : Bool) (r : Record) : Bytes :=
  r.time ++ (wordBytes swapped r.frame.length ++ (wordBytes swapped r.original.toNat ++ r.frame))

section Words

variable {swapped : Bool} {bytes raw : Bytes} {i x : Nat}

@[simp] theorem length_inOrder : (inOrder swapped raw).length = raw.length := by
  unfold inOrder
  split_ifs
  · rfl
  · exact List.length_reverse

@[simp] theorem inOrder_inOrder : inOrder swapped (inOrder swapped raw) = raw := by
  unfold inOrder
  split_ifs
  · rfl
  · exact List.reverse_reverse raw

@[simp] theorem length_wordBytes : (wordBytes swapped x).length = 4 := by
  rw [wordBytes, length_inOrder, length_beBytes]

/-- A word that is written is read back. -/
theorem word_of_holds (hx : x < 2 ^ 32) (h : Holds bytes i (wordBytes swapped x)) :
    (word swapped bytes i : Outcome ε Nat) = .ok x := by
  have hslice : (slice bytes i (i + 4) : Outcome ε _) = .ok (wordBytes swapped x) := by
    have hslice := h.slice (ε := ε)
    rwa [length_wordBytes] at hslice
  rw [word, hslice, ok_bind, wordBytes, inOrder_inOrder, beNat_beBytes (by simpa using hx)]
  rfl

/-- Any four bytes are a word. -/
theorem exists_word (swapped : Bool) (h : i + 4 ≤ bytes.length) :
    ∃ x, x < 2 ^ 32 ∧ Holds bytes i (wordBytes swapped x) ∧ (bytes.drop i).take 4 = wordBytes swapped x := by
  have hlen : ((bytes.drop i).take 4).length = 4 := by
    rw [List.length_take, List.length_drop]
    omega
  have hraw : (bytes.drop i).take 4 = wordBytes swapped (beNat (inOrder swapped ((bytes.drop i).take 4))) := by
    have hback := beBytes_beNat (inOrder swapped ((bytes.drop i).take 4))
    rw [length_inOrder, hlen] at hback
    rw [wordBytes, hback, inOrder_inOrder]
  refine ⟨_, ?_, ?_, hraw⟩
  · have hlt := beNat_lt (inOrder swapped ((bytes.drop i).take 4))
    rw [length_inOrder, hlen] at hlt
    exact hlt
  · rw [← hraw]
    exact holds_of_drop (by omega) (List.take_append_drop 4 _).symm

end Words

section Records

variable {swapped : Bool} {snaplen : Nat} {bytes : Bytes}

theorem length_recordBytes (r : Record) : (r.bytes swapped).length = recordHeaderLen + r.frame.length := by
  simp only [Record.bytes, List.length_append, r.length_time, length_wordBytes, recordHeaderLen]
  omega

/-- A turn at a record gives its frame and steps behind it. -/
theorem readRecord_step (k : Nat) (r : Record) (frames : List Bytes) (h : Holds bytes k (r.bytes swapped)) :
    readRecord swapped snaplen bytes (k, frames) =
      .ok (.next (k + (r.bytes swapped).length, frames ++ [r.frame])) := by
  have hlen := h.length_le
  have hframe := r.length_frame
  have hheader : recordHeaderLen = 16 := rfl
  rw [length_recordBytes] at hlen ⊢
  have hright : Holds bytes (k + 8)
      (wordBytes swapped r.frame.length ++ (wordBytes swapped r.original.toNat ++ r.frame)) := by
    have hright := h.right
    rwa [r.length_time] at hright
  have hcaptured := word_of_holds (ε := Text) (by omega) hright.left
  have horiginal := word_of_holds (ε := Text) r.original.toNat_lt (by
    have hleft := hright.right.left
    rwa [length_wordBytes] at hleft)
  have hslice : (slice bytes (k + recordHeaderLen) (k + recordHeaderLen + r.frame.length) : Outcome Text _) =
      .ok r.frame := by
    have hslice := hright.right.right.slice (ε := Text)
    rwa [length_wordBytes, length_wordBytes] at hslice
  rw [readRecord, if_pos (by omega), if_neg (by omega), hcaptured, ok_bind, horiginal, ok_bind, if_neg (by omega),
    if_neg (by omega), hslice, ok_bind, Nat.add_assoc]
  rfl

/-- At a place that no record begins the loop ends: with the frames at the end of the file, with an error before. -/
theorem readRecord_rest {k : Nat} (hk : k ≤ bytes.length)
    (h : ∀ (r : Record) more, bytes.drop k ≠ r.bytes swapped ++ more) (frames : List Bytes) :
    (readRecord swapped snaplen bytes (k, frames) = .ok (.done frames) ∧ bytes.drop k = []) ∨
      ((∃ e, readRecord swapped snaplen bytes (k, frames) = .err e) ∧ bytes.drop k ≠ []) := by
  have hheader : recordHeaderLen = 16 := rfl
  rw [readRecord]
  split_ifs with hin htruncated
  · exact .inr ⟨⟨_, rfl⟩, fun hnil => by rw [List.drop_eq_nil_iff] at hnil; omega⟩
  · have hne : bytes.drop k ≠ [] := fun hnil => by rw [List.drop_eq_nil_iff] at hnil; omega
    obtain ⟨captured, hlt, hcaptured, hraw⟩ := exists_word swapped (show k + 8 + 4 ≤ bytes.length by omega)
    obtain ⟨original, hlt', horiginal, hraw'⟩ :=
      exists_word swapped (show k + 12 + 4 ≤ bytes.length by omega)
    rw [word_of_holds hlt hcaptured, ok_bind, word_of_holds hlt' horiginal, ok_bind]
    dsimp only
    split_ifs with himplausible hpast
    · exact .inr ⟨⟨_, rfl⟩, hne⟩
    · exact .inr ⟨⟨_, rfl⟩, hne⟩
    · -- what begins here is a record
      have hframe : ((bytes.drop (k + 16)).take captured).length = captured := by
        rw [List.length_take, List.length_drop]
        omega
      have htime : ((bytes.drop k).take 8).length = 8 := by
        rw [List.length_take, List.length_drop]
        omega
      let r : Record := ⟨_, htime, UInt32.ofNat original, _, Nat.le_trans (Nat.le_of_eq hframe) (by omega)⟩
      refine absurd ?_ (h r (bytes.drop (k + 16 + captured)))
      rw [Record.bytes, hframe, UInt32.toNat_ofNat_of_lt' hlt', ← hraw, ← hraw', List.append_assoc, List.append_assoc,
        List.append_assoc, ← drop_cut bytes (k + 16), ← drop_cut bytes (k + 12),
        ← drop_cut bytes (k + 8), ← drop_cut bytes k]
  · exact .inl ⟨rfl, by rw [List.drop_eq_nil_iff]; omega⟩

/-- **The loop over the records** gives the frames of the records, if there is nothing else behind the header. -/
theorem loop_readRecord {start : Nat} (hstart : start ≤ bytes.length) {rs : List Record} {rest : Bytes}
    (hbytes : bytes.drop start = rs.flatMap (Record.bytes swapped) ++ rest)
    (hrest : ∀ (r : Record) more, rest ≠ r.bytes swapped ++ more) :
    (loop (readRecord swapped snaplen bytes) (bytes.length + 1) (start, []) = .ok (rs.map Record.frame) ∧ rest = []) ∨
      ((∃ e, loop (readRecord swapped snaplen bytes) (bytes.length + 1) (start, []) = .err e) ∧ rest ≠ []) := by
  have hpos : ∀ r : Record, 0 < (r.bytes swapped).length := fun r => by
    rw [length_recordBytes]
    exact Nat.lt_of_lt_of_le (by decide) (Nat.le_add_right recordHeaderLen _)
  obtain ⟨fuel, k, hloop, hk, rfl⟩ := loop_records_rest (f := fun frames r => frames ++ [r.frame]) hpos
    (fun k r frames h => readRecord_step k r frames h) hstart hbytes []
  rw [hloop, foldl_append_singleton, List.nil_append, loop]
  obtain ⟨hdone, hnil⟩ | ⟨⟨e, herr⟩, hne⟩ := readRecord_rest hk hrest (rs.map Record.frame)
  · exact .inl ⟨by rw [hdone]; rfl, hnil⟩
  · exact .inr ⟨⟨e, by rw [herr]; rfl⟩, hne⟩

end Records

/-! ## The header -/

theorem length_fileHeader (h : FileHeader) : h.bytes.length = fileHeaderLen := by
  simp only [FileHeader.bytes, List.length_append, length_wordBytes, h.length_versions, fileHeaderLen]

theorem FileHeader.magic_lt (h : FileHeader) : h.magic < 2 ^ 32 := by
  unfold FileHeader.magic
  split_ifs
  · decide
  · decide

/-- The magic number of a header, in whatever order, tells the order. -/
theorem readMagic_header (h : FileHeader) :
    readMagic (beNat (inOrder false (wordBytes h.swapped h.magic))) = .ok h.swapped := by
  unfold FileHeader.magic
  cases h.swapped <;> cases h.nanoseconds <;> decide

/-- A header is read for what it says. -/
theorem read_header (h : FileHeader) (rest : Bytes) : read (h.bytes ++ rest) = do
    let frames ← loop (readRecord h.swapped h.snaplen.toNat (h.bytes ++ rest)) ((h.bytes ++ rest).length + 1)
      (fileHeaderLen, [])
    return ⟨linktypeEthernet, frames⟩ := by
  have hlen := length_fileHeader h
  have hholds : Holds (h.bytes ++ rest) 0 h.bytes := ⟨[], rest, rfl, rfl⟩
  have hmagic : (word false (h.bytes ++ rest) 0 : Outcome Text _) =
      .ok (beNat (inOrder false (wordBytes h.swapped h.magic))) := by
    have hslice := hholds.left.slice (ε := Text)
    rw [length_wordBytes] at hslice
    rw [word, hslice]
    rfl
  have hright : Holds (h.bytes ++ rest) 16 (wordBytes h.swapped h.snaplen.toNat ++
      wordBytes h.swapped linktypeEthernet) := by
    have hright := hholds.right.right
    rwa [length_wordBytes, h.length_versions] at hright
  have hsnaplen := word_of_holds (ε := Text) h.snaplen.toNat_lt hright.left
  have hlink := word_of_holds (ε := Text) (x := linktypeEthernet) (by decide) (by
    have hlink := hright.right
    rwa [length_wordBytes] at hlink)
  rw [read, require_of (by rw [List.length_append]; omega), ok_bind, hmagic, ok_bind, readMagic_header, ok_bind, hlink,
    ok_bind, require_of rfl, ok_bind, hsnaplen, ok_bind]

/-- A magic number that is known is that of a header. -/
theorem readMagic_cases (x : Nat) :
    (∃ e, readMagic x = .err e) ∨ ∃ swapped nanoseconds : Bool, readMagic x = .ok swapped ∧
      wordBytes false x = wordBytes swapped (if nanoseconds then magicNanoseconds else magicMicroseconds) := by
  unfold readMagic
  split_ifs with hplain hswapped
  · rcases hplain with rfl | rfl
    · exact .inr ⟨false, false, rfl, rfl⟩
    · exact .inr ⟨false, true, rfl, rfl⟩
  · rcases hswapped with rfl | rfl
    · exact .inr ⟨true, false, rfl, by decide⟩
    · exact .inr ⟨true, true, rfl, by decide⟩
  · exact .inl ⟨_, rfl⟩

/-- What is not headed by a header is refused. -/
theorem read_headless {bytes : Bytes} (hno : ∀ (h : FileHeader) rest, bytes ≠ h.bytes ++ rest) :
    ∃ e, read bytes = .err e := by
  rw [read]
  by_cases hlen : fileHeaderLen ≤ bytes.length
  · have hheader : fileHeaderLen = 24 := rfl
    obtain ⟨magic, hmagic, hholds, hraw⟩ := exists_word false (show 0 + 4 ≤ bytes.length by omega)
    rw [require_of hlen, ok_bind, word_of_holds hmagic hholds, ok_bind]
    obtain ⟨e, he⟩ | ⟨swapped, nanoseconds, hswapped, horder⟩ := readMagic_cases magic
    · exact ⟨e, by rw [he, err_bind]⟩
    obtain ⟨link, hlink, hholds', hraw'⟩ := exists_word swapped (show 20 + 4 ≤ bytes.length by omega)
    rw [hswapped, ok_bind, word_of_holds hlink hholds', ok_bind]
    by_cases hethernet : link = linktypeEthernet
    · -- then it is headed by one
      subst hethernet
      obtain ⟨snaplen, hsnaplen, -, hraw''⟩ := exists_word swapped (show 16 + 4 ≤ bytes.length by omega)
      have hversions : ((bytes.drop 4).take 12).length = 12 := by
        rw [List.length_take, List.length_drop]
        omega
      refine absurd ?_ (hno ⟨swapped, nanoseconds, _, hversions, UInt32.ofNat snaplen⟩ (bytes.drop 24))
      rw [FileHeader.bytes, FileHeader.magic, ← horder, UInt32.toNat_ofNat_of_lt' hsnaplen, ← hraw, ← hraw', ← hraw'',
        List.append_assoc, List.append_assoc, List.append_assoc, ← drop_cut bytes 20, ← drop_cut bytes 16,
        ← drop_cut bytes 4, ← drop_cut bytes 0, List.drop_zero]
    · exact ⟨_, by rw [require, if_neg hethernet, err_bind]⟩
  · exact ⟨_, by rw [require, if_neg hlen, err_bind]⟩

/-- Behind a header the reader comes to the end of the records or to something else. -/
theorem read_body (h : FileHeader) (rs : List Record) {rest : Bytes}
    (hrest : ∀ (r : Record) more, rest ≠ r.bytes h.swapped ++ more) :
    (read (h.bytes ++ (rs.flatMap (Record.bytes h.swapped) ++ rest)) = .ok ⟨linktypeEthernet, rs.map Record.frame⟩ ∧
      rest = []) ∨
      ((∃ e, read (h.bytes ++ (rs.flatMap (Record.bytes h.swapped) ++ rest)) = .err e) ∧ rest ≠ []) := by
  rw [read_header]
  generalize hbytes : h.bytes ++ (rs.flatMap (Record.bytes h.swapped) ++ rest) = bytes
  have hstart : fileHeaderLen ≤ bytes.length := by
    rw [← hbytes, List.length_append, length_fileHeader]
    exact Nat.le_add_right _ _
  have hbody : bytes.drop fileHeaderLen = rs.flatMap (Record.bytes h.swapped) ++ rest := by
    rw [← hbytes, ← length_fileHeader h, List.drop_left]
  obtain ⟨hloop, hnil⟩ | ⟨⟨e, hloop⟩, hne⟩ := loop_readRecord hstart hbody hrest
  · exact .inl ⟨by rw [hloop]; rfl, hnil⟩
  · exact .inr ⟨⟨e, by rw [hloop]; rfl⟩, hne⟩

/-- **Reading a capture**: what is accepted is a header and records, and all of its frames come back; anything else is
refused, and nothing makes the reader panic. -/
theorem read_capture (bytes : Bytes) : read bytes ≠ .panic ∧ ∀ c, read bytes = .ok c ↔
    ∃ (h : FileHeader) (rs : List Record), bytes = h.bytes ++ rs.flatMap (Record.bytes h.swapped) ∧
      c = ⟨linktypeEthernet, rs.map Record.frame⟩ := by
  have hpos : ∀ swapped (r : Record), 0 < (r.bytes swapped).length := fun swapped r => by
    rw [length_recordBytes]
    exact Nat.lt_of_lt_of_le (by decide) (Nat.le_add_right recordHeaderLen _)
  have haccepts : ∀ (h : FileHeader) (rs : List Record), read (h.bytes ++ rs.flatMap (Record.bytes h.swapped)) =
      .ok ⟨linktypeEthernet, rs.map Record.frame⟩ := by
    intro h rs
    have hrest : ∀ (r : Record) more, [] ≠ r.bytes h.swapped ++ more := by
      intro r more hnil
      have hlen := congrArg List.length hnil
      rw [List.length_append, List.length_nil] at hlen
      have := hpos h.swapped r
      omega
    obtain ⟨hread, -⟩ | ⟨-, hne⟩ := read_body h rs hrest
    · rwa [List.append_nil] at hread
    · exact absurd rfl hne
  have hrefuses : (∃ e, read bytes = .err e) ∨ ∃ (h : FileHeader) (rs : List Record),
      bytes = h.bytes ++ rs.flatMap (Record.bytes h.swapped) := by
    by_cases hheaded : ∃ (h : FileHeader) (body : Bytes), bytes = h.bytes ++ body
    · obtain ⟨h, body, rfl⟩ := hheaded
      obtain ⟨rs, rest, rfl, hrest⟩ := exists_records (hpos h.swapped) body
      obtain ⟨-, rfl⟩ | ⟨herr, -⟩ := read_body h _ hrest
      · exact .inr ⟨h, rs, by rw [List.append_nil]⟩
      · exact .inl herr
    · exact .inl (read_headless fun h rest heq => hheaded ⟨h, rest, heq⟩)
  constructor
  · rcases hrefuses with ⟨e, herr⟩ | ⟨h, rs, rfl⟩
    · rw [herr]
      exact err_ne_panic
    · rw [haccepts]
      exact ok_ne_panic
  · intro c
    constructor
    · intro hread
      rcases hrefuses with ⟨e, herr⟩ | ⟨h, rs, rfl⟩
      · rw [herr] at hread
        cases hread
      · rw [haccepts] at hread
        exact ⟨h, rs, rfl, (Outcome.ok.inj hread).symm⟩
    · rintro ⟨h, rs, rfl, rfl⟩
      exact haccepts h rs

end Idnx.Pcap
