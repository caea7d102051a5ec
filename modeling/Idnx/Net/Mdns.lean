import Idnx.Lib.Utf8
import Idnx.Net.DnsNames

/-!
# PTR answers to multicast queries

`extractPtrTarget` skips the questions of a message and the name of its first answer, and if that is a PTR record it
reads the name in its data, following pointers (`parseDnsName`). It returns on every byte string. A response that is
`InStep`, whose names in front of the target are skipped as what they are, gives the target's name exactly if all
labels of it are among the first fifteen pieces (`ptr_target`).
-/

namespace Idnx

open Outcome

variable {ε : Type}

/-- The labels of a name from an offset on, at most `left` labels and pointers of it; nothing if it leaves the packet.
Labels that are not UTF-8 are passed over. -/
def dnsLabels (packet : Bytes) : (left offset : Nat) → List Text → Outcome ε (Option (List Text))
  | 0, _, labels => .ok (some labels)
  | left + 1, offset, labels =>
    if offset < packet.length then do
      let len ← index packet offset
      if len = 0 then return some labels
      else if isPointer len then
        if offset + 1 ≥ packet.length then return none
        else do
          let low ← index packet (offset + 1)
          if pointerTarget len low ≥ packet.length then return none
          else dnsLabels packet left (pointerTarget len low) labels
      else if offset + 1 + len.toNat > packet.length then return none
      else do
        let label ← slice packet (offset + 1) (offset + 1 + len.toNat)
        dnsLabels packet left (offset + 1 + len.toNat) (labels ++ (Text.fromUtf8 label).toList)
    else .ok (some labels)

/-- The labels of a name with dots between them. -/
def dotted (labels : List Text) : Text := List.intercalate ['.'] labels

/-- Parses domain name from DNS packet at given offset. -/
def parseDnsName (packet : Bytes) (offset : Nat) : Outcome ε (Option Text) := do
  match ← dnsLabels packet 15 offset [] with
  | some labels => return if labels = [] then none else some (dotted labels)
  | none => return none

def skipQuestions (packet : Bytes) : (questions offset : Nat) → Outcome ε Nat
  | 0, offset => .ok offset
  | questions + 1, offset => do
    let offset ← skipQuestion packet offset
    skipQuestions packet questions offset

/-- Skips the name of an answer: a pointer in front, or labels up to the root. -/
def skipAnswerName (packet : Bytes) (offset : Nat) : Outcome ε Nat := do
  let first ← index packet offset
  if isPointer first then return offset + 2
  else do
    let offset ← skipLabels packet offset
    return offset + 1

def extractPtrTarget (packet : Bytes) : Outcome ε (Option Text) :=
  if packet.length < 12 then .ok none
  else do
    let qdcount ← u16At packet 4
    let offset ← skipQuestions packet qdcount.toNat 12
    if offset < packet.length then do
      let offset ← skipAnswerName packet offset
      if offset + 10 ≤ packet.length then do
        let rtype ← u16At packet offset
        let rdlength ← u16At packet (offset + 8)
        if rtype = 12 ∧ offset + 10 + rdlength.toNat ≤ packet.length then parseDnsName packet (offset + 10)
        else return none
      else return none
    else return none

/-! ## Every byte string -/

theorem returns_dnsLabels (packet : Bytes) (left offset : Nat) (labels : List Text) :
    Returns (fun _ => True) (dnsLabels packet left offset labels : Outcome ε _) := by
  induction left generalizing offset labels with
  | zero => exact returns_ok trivial
  | succ left ih =>
    rw [dnsLabels]
    split
    · refine (returns_index ‹_›).bind fun len _ => ?_
      split
      · exact returns_ok trivial
      · split
        · split
          · exact returns_ok trivial
          · refine (returns_index (by omega)).bind fun low _ => ?_
            split
            · exact returns_ok trivial
            · exact ih _ _
        · split
          · exact returns_ok trivial
          · exact (returns_slice (by omega) (by omega)).bind fun label _ => ih _ _
    · exact returns_ok trivial

theorem returns_skipQuestions (packet : Bytes) (questions offset : Nat) :
    Returns (fun _ => True) (skipQuestions packet questions offset : Outcome ε _) := by
  induction questions generalizing offset with
  | zero => exact returns_ok trivial
  | succ questions ih => exact (returns_skipQuestion packet offset).bind fun offset' _ => ih offset'

/-- **Every byte string is read to the end.** -/
theorem returns_extractPtrTarget (packet : Bytes) :
    Returns (fun _ => True) (extractPtrTarget packet : Outcome ε _) := by
  unfold extractPtrTarget
  split
  · exact returns_ok trivial
  refine (returns_u16At (by omega)).bind fun qdcount _ => (returns_skipQuestions packet _ _).bind fun offset _ => ?_
  split
  · have hname : Returns (fun _ => True) (skipAnswerName packet offset : Outcome ε _) := by
      refine (returns_index ‹_›).bind fun first _ => ?_
      split
      · exact returns_ok trivial
      · exact (returns_skipLabels packet offset).bind fun _ _ => returns_ok trivial
    refine hname.bind fun offset _ => ?_
    split
    · refine (returns_u16At (by omega)).bind fun rtype _ => (returns_u16At (by omega)).bind fun rdlength _ => ?_
      split
      · refine (returns_dnsLabels packet 15 _ []).bind fun labels _ => ?_
        cases labels with
        | none => exact returns_ok trivial
        | some labels => exact returns_ok trivial
      · exact returns_ok trivial
    · exact returns_ok trivial
  · exact returns_ok trivial

/-! ## The name of the target -/

theorem Spelled.lt {packet : Bytes} {k : Nat} {ps : List Piece} (h : Spelled packet k ps) : k < packet.length := by
  cases h with
  | root h => exact (List.getElem?_eq_some_iff.mp h).1
  | label hl h hrest =>
    have hle := h.length_le
    rw [labelBytes, List.length_cons] at hle
    omega
  | pointer hp h hrest =>
    have hle := h.length_le
    rw [List.length_cons] at hle
    omega

/-- The texts of the labels among some pieces. -/
def pieceTexts (ps : List Piece) : List Text := (ps.filterMap Piece.bytes?).filterMap Text.fromUtf8

/-- A name is read up to the piece where the reader gives up. -/
theorem dnsLabels_spelled {packet : Bytes} {k : Nat} {ps : List Piece} (h : Spelled packet k ps) (left : Nat)
    (labels : List Text) :
    (dnsLabels packet left k labels : Outcome ε _) = .ok (some (labels ++ pieceTexts (ps.take left))) := by
  induction h generalizing left labels with
  | @root k hroot =>
    have hlt := (List.getElem?_eq_some_iff.mp hroot).1
    have hread : (index packet k : Outcome ε _) = .ok 0 := by rw [index, hroot]
    rw [List.take_nil, show pieceTexts [] = [] from rfl, List.append_nil]
    cases left with
    | zero => rfl
    | succ left =>
      rw [dnsLabels, if_pos hlt, hread, ok_bind, if_pos rfl]
      rfl
  | @label k l ps hl hholds hrest ih =>
    cases left with
    | zero => rw [List.take_zero, show pieceTexts [] = [] from rfl, List.append_nil, dnsLabels]
    | succ left =>
      obtain ⟨hzero, hpointer⟩ := length_ne hl
      have hlt := (Spelled.label hl hholds hrest).lt
      have hle := hholds.length_le
      have hbytes : Holds packet (k + 1) l := by
        have hright := @Holds.right _ packet [UInt8.ofNat l.length] l k hholds
        rwa [List.length_singleton] at hright
      have hnext : k + 1 + (UInt8.ofNat l.length).toNat = k + (labelBytes l).length := by
        rw [toNat_length hl, labelBytes, List.length_cons]
        omega
      have htexts : pieceTexts (.label l :: ps.take left) = (Text.fromUtf8 l).toList ++ pieceTexts (ps.take left) := by
        unfold pieceTexts
        rw [List.filterMap_cons_some (show Piece.bytes? (.label l) = some l from rfl)]
        cases htext : Text.fromUtf8 l with
        | none => rw [List.filterMap_cons_none htext]; rfl
        | some t => rw [List.filterMap_cons_some htext]; rfl
      have hslice : (slice packet (k + 1) (k + (labelBytes l).length) : Outcome ε _) = .ok l := by
        rw [show k + (labelBytes l).length = k + 1 + l.length by rw [labelBytes, List.length_cons]; omega]
        exact hbytes.slice
      rw [dnsLabels, if_pos hlt, Holds.index hholds, ok_bind, if_neg hzero, hpointer, if_neg Bool.false_ne_true, hnext,
        if_neg (Nat.not_lt.mpr hle), hslice, ok_bind, ih, List.take_succ_cons, htexts, List.append_assoc]
  | @pointer k hi lo ps hp hholds hrest ih =>
    cases left with
    | zero => rw [List.take_zero, show pieceTexts [] = [] from rfl, List.append_nil, dnsLabels]
    | succ left =>
      have hle := hholds.length_le
      have htarget := hrest.lt
      have hne : hi ≠ 0 := fun hzero => absurd (hzero ▸ hp) (show ¬ isPointer 0 = true by decide)
      have hlow : Holds packet (k + 1) [lo] := @Holds.right _ packet [hi] [lo] k hholds
      rw [List.length_cons, List.length_singleton] at hle
      rw [dnsLabels, if_pos (by omega), hholds.index, ok_bind, if_neg hne, if_pos hp, if_neg (by omega), hlow.index,
        ok_bind, if_neg (by omega), ih, List.take_succ_cons]
      rfl

/-- The name at an offset is that of the pieces the reader gets to. -/
theorem parseDnsName_spelled {packet : Bytes} {k : Nat} {ps : List Piece} (h : Spelled packet k ps) :
    (parseDnsName packet k : Outcome ε _) =
      .ok (if pieceTexts (ps.take 15) = [] then none else some (dotted (pieceTexts (ps.take 15)))) := by
  rw [parseDnsName, dnsLabels_spelled h, ok_bind, List.nil_append]
  rfl

theorem dotted_cons (t : Text) {l : List Text} (h : l ≠ []) : dotted (t :: l) = t ++ '.' :: dotted l := by
  rw [dotted, List.intercalate_cons_of_ne_nil h, List.append_assoc]
  rfl

theorem dotted_append {a b : List Text} (ha : a ≠ []) (hb : b ≠ []) :
    dotted (a ++ b) = dotted a ++ '.' :: dotted b := by
  induction a with
  | nil => exact absurd rfl ha
  | cons t a ih =>
    rw [List.cons_append, dotted_cons t (List.append_ne_nil_of_right_ne_nil a hb)]
    cases a with
    | nil => simp [dotted]
    | cons u a =>
      rw [ih (List.cons_ne_nil u a), dotted_cons t (List.cons_ne_nil u a), List.append_assoc, List.cons_append]

section Texts

variable {ps : List Piece} {names : List Text}

theorem Piece.AreTexts.pieceTexts_eq (h : Piece.AreTexts ps names) : pieceTexts ps = names := by
  have hread : Text.fromUtf8 ∘ Text.asBytes = some := funext Text.fromUtf8_asBytes
  rw [pieceTexts, h, List.filterMap_map, hread, List.filterMap_some]

/-- The pieces behind the fifteenth have no label, if they have no text. -/
theorem Piece.AreTexts.drop_eq_nil_iff (h : Piece.AreTexts ps names) (n : Nat) :
    pieceTexts (ps.drop n) = [] ↔ ∀ p ∈ ps.drop n, p = .pointer := by
  unfold pieceTexts
  rw [List.filterMap_eq_nil_iff]
  constructor
  · intro hnone p hp
    cases p with
    | pointer => rfl
    | label l =>
      have hl : l ∈ (ps.drop n).filterMap Piece.bytes? := List.mem_filterMap.mpr ⟨.label l, hp, rfl⟩
      have hall : l ∈ ps.filterMap Piece.bytes? := List.mem_filterMap.mpr ⟨.label l, List.mem_of_mem_drop hp, rfl⟩
      rw [h] at hall
      obtain ⟨t, -, rfl⟩ := List.mem_map.mp hall
      have htext := hnone _ hl
      rw [Text.fromUtf8_asBytes] at htext
      cases htext
  · intro hpointers l hl
    obtain ⟨p, hp, hbytes⟩ := List.mem_filterMap.mp hl
    rw [hpointers p hp] at hbytes
    cases hbytes

/-- **The full name is read** exactly if it has a label, and none behind the fifteenth piece. -/
theorem parseDnsName_eq_iff {packet : Bytes} {k : Nat} (hspelled : Spelled packet k ps) (h : Piece.AreTexts ps names) :
    (parseDnsName packet k : Outcome ε _) = .ok (some (dotted names)) ↔
      names ≠ [] ∧ ∀ p ∈ ps.drop 15, p = .pointer := by
  have hsplit : names = pieceTexts (ps.take 15) ++ pieceTexts (ps.drop 15) := by
    rw [← h.pieceTexts_eq, pieceTexts, pieceTexts, pieceTexts, ← List.filterMap_append, ← List.filterMap_append,
      List.take_append_drop]
  rw [parseDnsName_spelled hspelled, ← h.drop_eq_nil_iff 15, Outcome.ok.injEq]
  generalize pieceTexts (ps.take 15) = read at hsplit ⊢
  generalize pieceTexts (ps.drop 15) = missed at hsplit ⊢
  subst hsplit
  by_cases hread : read = []
  · rw [if_pos hread, hread]
    exact ⟨nofun, fun h => absurd h.2 h.1⟩
  · rw [if_neg hread, Option.some.injEq]
    constructor
    · intro heq
      refine ⟨List.append_ne_nil_of_left_ne_nil hread _, ?_⟩
      by_contra hmissed
      have hlen := congrArg List.length heq
      rw [dotted_append hread hmissed, List.length_append, List.length_cons] at hlen
      omega
    · rintro ⟨-, rfl⟩
      rw [List.append_nil]

end Texts

/-! ## Responses -/

/-- Where the data of the first answer stand. -/
def rdataOffset (questions : List Question) (answer : DnsRecord) : Nat :=
  12 + (questions.flatMap Question.toBytes).length + answer.name.toBytes.length + 10

/-- A response whose first answer is a PTR record with this target. -/
structure IsPtrResponse (packet : Bytes) (questions : List Question) (answer : DnsRecord) (ps : List Piece)
    (names : List Text) : Prop extends IsResponse packet questions answer where
  ptr : answer.rtype = 12
  target : Spelled packet (rdataOffset questions answer) ps
  texts : Piece.AreTexts ps names

theorem skipQuestions_of_holds {packet : Bytes} {k : Nat} {questions : List Question}
    (h : Holds packet k (questions.flatMap Question.toBytes))
    (hin : ∀ q ∈ questions, q.name.pointer = none ∨ ¬ q.qtype < 256) :
    (skipQuestions packet questions.length k : Outcome ε _) =
      .ok (k + (questions.flatMap Question.toBytes).length) := by
  induction questions generalizing k with
  | nil => rfl
  | cons q questions ih =>
    obtain ⟨hq, hquestions⟩ := List.forall_mem_cons.mp hin
    rw [List.flatMap_cons] at h ⊢
    have hskip : ¬ (q.name.pointer ≠ none ∧ q.qtype < 256) := fun hbad => hq.elim hbad.1 fun hno => hno hbad.2
    rw [List.length_cons, skipQuestions, skipQuestion_of_holds q h.left, ok_bind, if_neg hskip, Nat.add_zero,
      ih h.right hquestions, List.length_append, Nat.add_assoc]

theorem skipAnswerName_of_holds {packet : Bytes} {k : Nat} (name : WireName)
    (hin : name.pointer = none ∨ name.labels = []) (h : Holds packet k name.toBytes) :
    (skipAnswerName packet k : Outcome ε _) = .ok (k + name.toBytes.length) := by
  have hok := name.pointer_ok
  have hlabels := name.labels_ok
  unfold skipAnswerName
  unfold WireName.toBytes WireName.ending at h ⊢
  cases hpointer : name.pointer with
  | none =>
    rw [hpointer] at h
    -- the first byte is a length, or the root
    obtain ⟨first, rest, hfirst, hno⟩ : ∃ first rest, name.labels.flatMap labelBytes ++ [0] = first :: rest ∧
        isPointer first = false := by
      cases hcons : name.labels with
      | nil => exact ⟨0, [], rfl, by decide⟩
      | cons l labels =>
        rw [hcons] at hlabels
        exact ⟨UInt8.ofNat l.length, l ++ labels.flatMap labelBytes ++ [0], by simp [labelBytes],
          (length_ne (hlabels l List.mem_cons_self)).2⟩
    have hread : (index packet k : Outcome ε _) = .ok first := by
      dsimp only at h
      rw [hfirst] at h
      exact h.index
    rw [hread, ok_bind, hno, if_neg Bool.false_ne_true, skipLabels_of_holds hlabels h, ok_bind, List.length_append]
    rfl
  | some p =>
    obtain ⟨hi, lo⟩ := p
    rw [hpointer] at h hin
    rw [hin.resolve_left (Option.some_ne_none _), List.flatMap_nil, List.nil_append] at h ⊢
    rw [Holds.index h, ok_bind, if_pos (hok (hi, lo) hpointer)]
    rfl

/-- A response in step is read at the data of its first answer. -/
theorem extractPtrTarget_eq {packet : Bytes} {questions : List Question} {answer : DnsRecord}
    (h : IsResponse packet questions answer) (hptr : answer.rtype = 12) (hin : InStep questions answer) :
    (extractPtrTarget packet : Outcome ε _) = parseDnsName packet (rdataOffset questions answer) := by
  have hbody := h.body
  have hcount : (UInt16.ofNat questions.length).toNat = questions.length := by
    rw [UInt16.toNat_ofNat']
    exact Nat.mod_eq_of_lt h.qdcount_lt
  have hanswer := hbody.right
  rw [DnsRecord.toBytes] at hanswer
  have hfields := hanswer.right.left
  have hdata := hanswer.right.right.length_le
  have hfixed := answer.length_fixed
  have hname : 0 < answer.name.toBytes.length := by
    rw [WireName.toBytes, WireName.ending, List.length_append]
    cases answer.name.pointer with
    | none => exact Nat.lt_of_lt_of_le Nat.one_pos (Nat.le_add_left _ _)
    | some p => exact Nat.lt_of_lt_of_le Nat.one_pos (Nat.le_add_left _ _)
  rw [DnsRecord.fixed] at hfields
  have htype : (u16At packet _ : Outcome ε _) = .ok answer.rtype := u16At_of_holds hfields.left.left
  have hlen : (u16At packet _ : Outcome ε _) = .ok (UInt16.ofNat answer.rdata.length) :=
    u16At_of_holds (by rw [answer.toNat_length_rdata]; exact hfields.right)
  simp only [List.length_append, length_beBytes] at hlen
  unfold extractPtrTarget
  rw [if_neg (by omega), u16At_of_readU16 h.qdcount, ok_bind, hcount, skipQuestions_of_holds hbody.left hin.questions,
    ok_bind, if_pos (by omega), skipAnswerName_of_holds answer.name hin.answer hanswer.left, ok_bind,
    if_pos (by omega), htype, ok_bind, hlen, ok_bind, answer.toNat_length_rdata, if_pos ⟨hptr, by omega⟩]
  rfl

/-- **mDNS PTR extraction** returns on every byte string. Of a PTR response in step it gives the full name of the
target exactly if that has a label, and all its labels are among the first fifteen pieces. -/
theorem ptr_target (packet : Bytes) : Returns (fun _ => True) (extractPtrTarget packet : Outcome ε _) ∧
    ∀ questions answer ps names, IsPtrResponse packet questions answer ps names → InStep questions answer →
      ((extractPtrTarget packet : Outcome ε _) = .ok (some (dotted names)) ↔
        names ≠ [] ∧ ∀ p ∈ ps.drop 15, p = .pointer) := by
  refine ⟨returns_extractPtrTarget packet, fun questions answer ps names h hin => ?_⟩
  rw [extractPtrTarget_eq h.toIsResponse h.ptr hin]
  exact parseDnsName_eq_iff h.target h.texts

/-- A response to the question for `a`, whose answer has the name of these bytes and the target `c.a`. -/
def sampleResponse (name : Bytes) : Bytes :=
  [0, 0, 0x84, 0, 0, 1, 0, 1, 0, 0, 0, 0] ++ [1, 97, 0, 0, 12, 0, 1] ++ name ++ [0, 12, 0, 1, 0, 0, 0, 120, 0, 4] ++
    [1, 99, 0xC0, 12]

def sampleQuestion : Question where
  name := ⟨[[97]], none, by decide, nofun⟩
  qtype := 12
  qclass := 1

/-- The answer, named `a` by a pointer, behind some labels. -/
def sampleAnswer (labels : List Bytes) (hlabels : ∀ l ∈ labels, IsLabel l) : DnsRecord where
  name := ⟨labels, some (0xC0, 12), hlabels, fun _ h => by cases h; decide⟩
  rtype := 12
  rclass := 1
  ttl := 120
  rdata := [1, 99, 0xC0, 12]
  rdata_lt := by decide

/-- The pieces of `c.a`. -/
def samplePieces : List Piece := [.label [99], .pointer, .label [97]]

theorem spelled_sample {packet : Bytes} {k : Nat} (hrest : Holds packet k [1, 99, 0xC0, 12])
    (hname : Holds packet 12 [1, 97, 0]) : Spelled packet k samplePieces := by
  have hpointer : Holds packet (k + 2) [0xC0, 12] := @Holds.right _ packet [1, 99] [0xC0, 12] k hrest
  have hroot : Holds packet 14 [0] := @Holds.right _ packet [1, 97] [0] 12 hname
  refine .label ⟨by decide, by decide⟩ (@Holds.left _ packet [1, 99] [0xC0, 12] k hrest) ?_
  refine .pointer (by decide) hpointer ?_
  exact .label ⟨by decide, by decide⟩ (@Holds.left _ packet [1, 97] [0] 12 hname) (.root hroot.getElem?)

theorem isPtrResponse_sample {labels : List Bytes} (hlabels : ∀ l ∈ labels, IsLabel l) {packet : Bytes}
    (hpacket : packet = sampleResponse (labels.flatMap labelBytes ++ [0xC0, 12])) :
    IsPtrResponse packet [sampleQuestion] (sampleAnswer labels hlabels) samplePieces ["c", "a"] := by
  subst hpacket
  have hanswer : (sampleAnswer labels hlabels).toBytes = labels.flatMap labelBytes ++ [0xC0, 12] ++
      ([0, 12, 0, 1, 0, 0, 0, 120, 0, 4] ++ [1, 99, 0xC0, 12]) := by
    have hfixed : beBytes 2 (12 : UInt16).toNat ++ (beBytes 2 (1 : UInt16).toNat ++ beBytes 4 (120 : UInt32).toNat) ++
        beBytes 2 4 = [0, 12, 0, 1, 0, 0, 0, 120, 0, 4] := by decide
    rw [← hfixed]
    rfl
  have hquestion : [sampleQuestion].flatMap Question.toBytes = [1, 97, 0, 0, 12, 0, 1] := by decide
  have hbody : Holds (sampleResponse (labels.flatMap labelBytes ++ [0xC0, 12])) 12
      ([sampleQuestion].flatMap Question.toBytes ++ (sampleAnswer labels hlabels).toBytes) :=
    ⟨[0, 0, 0x84, 0, 0, 1, 0, 1, 0, 0, 0, 0], [], by rw [hanswer, hquestion, sampleResponse]; simp, rfl⟩
  have hrdata : Holds (sampleResponse (labels.flatMap labelBytes ++ [0xC0, 12]))
      (rdataOffset [sampleQuestion] (sampleAnswer labels hlabels)) [1, 99, 0xC0, 12] := hbody.right.right.right
  have hname := hbody.left
  rw [hquestion] at hname
  exact ⟨⟨rfl, by decide, ⟨1, rfl, by decide⟩, hbody⟩, rfl,
    spelled_sample hrdata (@Holds.left _ _ [1, 97, 0] [0, 12, 0, 1] 12 hname), rfl⟩

theorem ptr_target_sample : (extractPtrTarget (sampleResponse [0xC0, 12]) : Outcome Unit _) = .ok (some "c.a") := by
  have h := (ptr_target (ε := Unit) (sampleResponse [0xC0, 12])).2 _ _ _ _
    (isPtrResponse_sample (List.forall_mem_nil _) rfl) ⟨List.forall_mem_singleton.mpr (.inl rfl), .inr rfl⟩
  exact h.mpr ⟨by decide, by decide⟩

/-- A name with labels in front of its pointer is not skipped, and the answer is lost. -/
theorem ptr_target_lost : ¬ ∀ packet questions answer ps names, IsPtrResponse packet questions answer ps names →
    (extractPtrTarget packet : Outcome Unit _) = .ok (some (dotted names)) := by
  intro h
  have hlabel : ∀ l ∈ [([98] : Bytes)], IsLabel l := by decide
  have hread := h (sampleResponse [1, 98, 0xC0, 12]) _ _ _ _ (isPtrResponse_sample hlabel rfl)
  exact absurd hread (by decide)

end Idnx
