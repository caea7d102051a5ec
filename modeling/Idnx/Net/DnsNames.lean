import Idnx.Lib.Records
import Idnx.Probes.Layers

/-!
# Names in DNS messages

A name is labels and then the root, or a pointer to where the rest of it stands (`WireName`, `Spelled`). The two
resolvers do not read the names in front of the one they want but skip them, label by label. A question is skipped as a
whole, and one byte more if its name ends in a pointer and its type is below 256 (`skipQuestion_of_holds`): behind a
pointer the first byte of the type is taken for the root of the name.
-/

namespace Idnx

open Outcome

variable {ε : Type}

/-! ## Labels and names -/

/-- From one to sixty-three bytes. -/
def IsLabel (label : Bytes) : Prop := 0 < label.length ∧ label.length < 64

instance decidableIsLabel (label : Bytes) : Decidable (IsLabel label) :=
  inferInstanceAs (Decidable (0 < label.length ∧ label.length < 64))

/-- A label as it stands in a message, behind its length. -/
def labelBytes (label : Bytes) : Bytes := UInt8.ofNat label.length :: label

/-- A length with both top bits set is no length but begins a pointer. -/
def isPointer (b : UInt8) : Bool := b &&& 0xC0 == 0xC0

/-- Where a pointer points to. -/
def pointerTarget (hi lo : UInt8) : Nat := (word (hi &&& 0x3F) lo).toNat

/-- A name where it stands in a message: labels, and then the root or a pointer. -/
structure WireName where
  labels : List Bytes
  pointer : Option (UInt8 × UInt8)
  labels_ok : ∀ l ∈ labels, IsLabel l
  pointer_ok : ∀ p ∈ pointer, isPointer p.1 = true

namespace WireName

def ending (name : WireName) : Bytes :=
  match name.pointer with
  | some (hi, lo) => [hi, lo]
  | none => [0]

def toBytes (name : WireName) : Bytes := name.labels.flatMap labelBytes ++ name.ending

end WireName

/-- A question: a name, a type and a class. -/
structure Question where
  name : WireName
  qtype : UInt16
  qclass : UInt16

def Question.toBytes (q : Question) : Bytes := q.name.toBytes ++ (beBytes 2 q.qtype.toNat ++ beBytes 2 q.qclass.toNat)

/-- A record of the answer section. -/
structure DnsRecord where
  name : WireName
  rtype : UInt16
  rclass : UInt16
  ttl : UInt32
  rdata : Bytes
  rdata_lt : rdata.length < 65536

namespace DnsRecord

/-- The ten bytes between the name of a record and its data. -/
def fixed (a : DnsRecord) : Bytes :=
  beBytes 2 a.rtype.toNat ++ (beBytes 2 a.rclass.toNat ++ beBytes 4 a.ttl.toNat) ++ beBytes 2 a.rdata.length

def toBytes (a : DnsRecord) : Bytes := a.name.toBytes ++ (a.fixed ++ a.rdata)

theorem length_fixed (a : DnsRecord) : a.fixed.length = 10 := by
  simp only [fixed, List.length_append, length_beBytes]

theorem toNat_length_rdata (a : DnsRecord) : (UInt16.ofNat a.rdata.length).toNat = a.rdata.length := by
  rw [UInt16.toNat_ofNat']
  exact Nat.mod_eq_of_lt a.rdata_lt

end DnsRecord

/-- The bytes are a message with these questions and this record as the first of its answers. -/
structure IsResponse (packet : Bytes) (questions : List Question) (answer : DnsRecord) : Prop where
  qdcount : readU16 packet 4 = some (UInt16.ofNat questions.length)
  qdcount_lt : questions.length < 65536
  ancount : ∃ n, readU16 packet 6 = some n ∧ n ≠ 0
  body : Holds packet 12 (questions.flatMap Question.toBytes ++ answer.toBytes)

/-- The names in front of the target are skipped as what they are: questions whose names end in a pointer have a type
of 256 or more, and the name of the answer has no labels in front of a pointer. -/
structure InStep (questions : List Question) (answer : DnsRecord) : Prop where
  questions : ∀ q ∈ questions, q.name.pointer = none ∨ ¬ q.qtype < 256
  answer : answer.name.pointer = none ∨ answer.name.labels = []

/-- A label of a name, or a pointer to its rest. -/
inductive Piece where
  | label (bytes : Bytes)
  | pointer
  deriving DecidableEq, Repr

/-- The pieces of the name at a place of a message, pointers followed. -/
inductive Spelled (packet : Bytes) : Nat → List Piece → Prop where
  | root {k : Nat} (h : packet[k]? = some 0) : Spelled packet k []
  | label {k : Nat} {l : Bytes} {ps : List Piece} (hl : IsLabel l) (h : Holds packet k (labelBytes l))
      (hrest : Spelled packet (k + (labelBytes l).length) ps) : Spelled packet k (.label l :: ps)
  | pointer {k : Nat} {hi lo : UInt8} {ps : List Piece} (hp : isPointer hi = true) (h : Holds packet k [hi, lo])
      (hrest : Spelled packet (pointerTarget hi lo) ps) : Spelled packet k (.pointer :: ps)

namespace Piece

def bytes? : Piece → Option Bytes
  | .label l => some l
  | .pointer => none

/-- The labels among some pieces are these texts. -/
def AreTexts (ps : List Piece) (names : List Text) : Prop := ps.filterMap bytes? = names.map Text.asBytes

end Piece

/-! ## Skipping -/

/-- One turn of skipping the name of a question, which a pointer ends. -/
def questionTurn (packet : Bytes) (offset : Nat) : Outcome ε (Turn Nat Nat) :=
  if offset < packet.length then do
    let len ← index packet offset
    if len = 0 then return .done offset
    else if isPointer len then return .done (offset + 2)
    else return .next (offset + 1 + len.toNat)
  else .ok (.done offset)

/-- Skips a question. -/
def skipQuestion (packet : Bytes) (offset : Nat) : Outcome ε Nat := do
  let offset ← loop (questionTurn packet) (packet.length + 1) offset
  if offset < packet.length then do
    let b ← index packet offset
    -- the root of the name, then QTYPE and QCLASS
    return (if b = 0 then offset + 1 else offset) + 4
  else return offset + 4

/-- One turn of skipping labels; a pointer is skipped like a label. -/
def labelsTurn (packet : Bytes) (offset : Nat) : Outcome ε (Turn Nat Nat) :=
  if offset < packet.length then do
    let len ← index packet offset
    if len = 0 then return .done offset
    else return .next (offset + 1 + len.toNat)
  else .ok (.done offset)

/-- Skips labels up to the root. -/
def skipLabels (packet : Bytes) (offset : Nat) : Outcome ε Nat :=
  loop (labelsTurn packet) (packet.length + 1) offset

/-! ## Numbers -/

theorem u16At_of_readU16 {bytes : Bytes} {i : Nat} {n : UInt16} (h : readU16 bytes i = some n) :
    (u16At bytes i : Outcome ε _) = .ok n := by
  obtain ⟨two, htwo, rfl⟩ := Option.map_eq_some_iff.mp h
  obtain ⟨hle, hstop⟩ := getRange_eq_some htwo
  unfold getRange at htwo
  rw [if_pos ⟨hle, hstop⟩] at htwo
  unfold u16At slice
  rw [if_pos ⟨hle, hstop⟩, Option.some.inj htwo]
  rfl

theorem u16At_of_holds {bytes : Bytes} {i : Nat} {n : UInt16} (h : Holds bytes i (beBytes 2 n.toNat)) :
    (u16At bytes i : Outcome ε _) = .ok n := by
  obtain ⟨hi, lo, hbytes, rfl⟩ := beBytes_two n
  rw [hbytes] at h
  exact u16At_of_getElem? h.getElem? (@Holds.right _ bytes [hi] [lo] i h).getElem?

theorem readU16_of_u16At {bytes : Bytes} {i : Nat} {n : UInt16} (hi : i + 2 ≤ bytes.length)
    (h : (u16At bytes i : Outcome ε _) = .ok n) : readU16 bytes i = some n := by
  rw [u16At_eq hi] at h
  rw [readU16_eq hi, Outcome.ok.inj h]

/-! ## Bytes of a name -/

section Labels

variable {l : Bytes}

theorem toNat_length (h : IsLabel l) : (UInt8.ofNat l.length).toNat = l.length := by
  rw [UInt8.toNat_ofNat']
  exact Nat.mod_eq_of_lt (Nat.lt_trans h.2 (by decide))

/-- The length of a label is neither the root nor a pointer. -/
theorem length_ne (h : IsLabel l) : UInt8.ofNat l.length ≠ 0 ∧ isPointer (UInt8.ofNat l.length) = false := by
  have hall : ∀ n < 64, 0 < n → UInt8.ofNat n ≠ 0 ∧ isPointer (UInt8.ofNat n) = false := by decide
  exact hall _ h.2 h.1

theorem isPointer_iff (b : UInt8) : isPointer b = true ↔ 192 ≤ b.toNat := by
  have hall : ∀ n < 256, isPointer (UInt8.ofNat n) = true ↔ 192 ≤ n := by decide +kernel
  have hb := hall b.toNat b.toNat_lt
  rwa [UInt8.ofNat_toNat] at hb

theorem labelBytes_length_pos (l : Bytes) : 0 < (labelBytes l).length := Nat.succ_pos _

end Labels

/-- Labels are not more than their bytes. -/
theorem length_labels_le (labels : List Bytes) : labels.length ≤ (labels.flatMap labelBytes).length :=
  length_le_of_holds labelBytes_length_pos labels

section Skipping

variable {packet : Bytes} {k : Nat}

/-- A loop that steps behind each label comes to the end of the labels. -/
theorem loop_labels_to {β : Type} {body : Nat → Outcome ε (Turn Nat β)}
    (hstep : ∀ k l, IsLabel l → Holds packet k (labelBytes l) → body k = .ok (.next (k + (labelBytes l).length)))
    {labels : List Bytes} (hlabels : ∀ l ∈ labels, IsLabel l) (h : Holds packet k (labels.flatMap labelBytes)) :
    loop body (packet.length + 1) k =
      loop body (packet.length - labels.length + 1) (k + (labels.flatMap labelBytes).length) := by
  have hrun : ∀ (labels : List Bytes) (k fuel : Nat), (∀ l ∈ labels, IsLabel l) →
      Holds packet k (labels.flatMap labelBytes) →
      loop body (fuel + labels.length) k = loop body fuel (k + (labels.flatMap labelBytes).length) := by
    intro labels
    induction labels with
    | nil => exact fun k fuel _ _ => rfl
    | cons l labels ih =>
      intro k fuel hlabels h
      obtain ⟨hl, hlabels⟩ := List.forall_mem_cons.mp hlabels
      rw [List.flatMap_cons] at h
      rw [List.length_cons, ← Nat.add_assoc, loop_next (hstep k l hl h.left), ih _ fuel hlabels h.right,
        List.flatMap_cons, List.length_append, Nat.add_assoc]
  have hfew := length_labels_le labels
  have hle := h.length_le
  rw [← hrun labels k _ hlabels h, show packet.length - labels.length + 1 + labels.length = packet.length + 1 by omega]

/-- It ends there if its turn there is the last. -/
theorem loop_labels {β : Type} {body : Nat → Outcome ε (Turn Nat β)}
    (hstep : ∀ k l, IsLabel l → Holds packet k (labelBytes l) → body k = .ok (.next (k + (labelBytes l).length)))
    {labels : List Bytes} (hlabels : ∀ l ∈ labels, IsLabel l) (h : Holds packet k (labels.flatMap labelBytes)) {v : β}
    (hdone : body (k + (labels.flatMap labelBytes).length) = .ok (.done v)) :
    loop body (packet.length + 1) k = .ok v := by
  rw [loop_labels_to hstep hlabels h, loop, hdone]
  rfl

theorem questionTurn_label {l : Bytes} (hl : IsLabel l) (h : Holds packet k (labelBytes l)) :
    (questionTurn packet k : Outcome ε _) = .ok (.next (k + (labelBytes l).length)) := by
  obtain ⟨hzero, hpointer⟩ := length_ne hl
  have hle := h.length_le
  unfold questionTurn
  rw [if_pos (by rw [labelBytes, List.length_cons] at hle; omega), Holds.index h, ok_bind, if_neg hzero, hpointer,
    if_neg Bool.false_ne_true, toNat_length hl, labelBytes, List.length_cons, Nat.add_assoc, Nat.add_comm 1]
  rfl

theorem labelsTurn_label {l : Bytes} (hl : IsLabel l) (h : Holds packet k (labelBytes l)) :
    (labelsTurn packet k : Outcome ε _) = .ok (.next (k + (labelBytes l).length)) := by
  obtain ⟨hzero, -⟩ := length_ne hl
  have hle := h.length_le
  unfold labelsTurn
  rw [if_pos (by rw [labelBytes, List.length_cons] at hle; omega), Holds.index h, ok_bind, if_neg hzero,
    toNat_length hl, labelBytes, List.length_cons, Nat.add_assoc, Nat.add_comm 1]
  rfl

/-- Skipping labels ends at the root. -/
theorem skipLabels_of_holds {labels : List Bytes} (hlabels : ∀ l ∈ labels, IsLabel l)
    (h : Holds packet k (labels.flatMap labelBytes ++ [0])) :
    (skipLabels packet k : Outcome ε _) = .ok (k + (labels.flatMap labelBytes).length) := by
  refine loop_labels (fun k l hl hk => labelsTurn_label hl hk) hlabels h.left ?_
  have hle := h.right.length_le
  rw [List.length_singleton] at hle
  unfold labelsTurn
  rw [if_pos (by omega), h.right.index, ok_bind, if_pos rfl]
  rfl

/-- The name of a question is skipped up to its root, or behind its pointer. -/
theorem loop_questionTurn (name : WireName) (h : Holds packet k name.toBytes) :
    (loop (questionTurn packet) (packet.length + 1) k : Outcome ε _) =
      .ok (k + (name.labels.flatMap labelBytes).length + if name.pointer = none then 0 else 2) := by
  rw [WireName.toBytes] at h
  have hle := h.right.length_le
  refine loop_labels (fun k l hl hk => questionTurn_label hl hk) name.labels_ok h.left ?_
  have hend := h.right
  have hok := name.pointer_ok
  unfold WireName.ending at hend hle
  unfold questionTurn
  cases hpointer : name.pointer with
  | none =>
    rw [hpointer] at hend hle
    dsimp only [List.length_singleton] at hend hle
    rw [if_pos (by omega), hend.index, ok_bind, if_pos rfl]
    rfl
  | some p =>
    obtain ⟨hi, lo⟩ := p
    rw [hpointer] at hend hle
    dsimp only [List.length_cons, List.length_nil] at hend hle
    have hp : isPointer hi = true := hok (hi, lo) hpointer
    have hne : hi ≠ 0 := fun hzero => absurd (hzero ▸ hp) (show ¬ isPointer 0 = true by decide)
    rw [if_pos (by omega), hend.index, ok_bind, if_neg hne, if_pos hp]
    rfl

/-- **A question is skipped as a whole**, and one byte more if its name ends in a pointer and its type is below 256. -/
theorem skipQuestion_of_holds (q : Question) (h : Holds packet k q.toBytes) :
    (skipQuestion packet k : Outcome ε _) =
      .ok (k + q.toBytes.length + if q.name.pointer ≠ none ∧ q.qtype < 256 then 1 else 0) := by
  rw [Question.toBytes] at h
  have hname := h.left
  have hfields := h.right
  obtain ⟨hi, lo, htype, hword⟩ := beBytes_two q.qtype
  obtain ⟨chi, clo, hclass, -⟩ := beBytes_two q.qclass
  rw [htype, hclass] at hfields
  have hle := hfields.length_le
  have hnameLen : q.name.toBytes.length = (q.name.labels.flatMap labelBytes).length + q.name.ending.length :=
    List.length_append
  have hsmall : q.qtype < 256 ↔ hi = 0 := by
    rw [← hword, UInt16.lt_iff_toNat_lt, toNat_word, ← UInt8.toNat_inj, show (256 : UInt16).toNat = 256 from rfl,
      show (0 : UInt8).toNat = 0 from rfl]
    have := lo.toNat_lt
    omega
  have htotal : q.toBytes.length = q.name.toBytes.length + 4 := by
    rw [Question.toBytes, htype, hclass, List.length_append]
    rfl
  unfold skipQuestion
  rw [loop_questionTurn q.name hname, ok_bind, htotal, hnameLen]
  rw [hnameLen] at hfields hle
  rw [WireName.toBytes] at hname
  have hend := hname.right
  simp only [List.cons_append, List.nil_append, List.length_cons, List.length_nil] at hfields hle
  unfold WireName.ending at hend hfields hle ⊢
  cases hpointer : q.name.pointer with
  | none =>
    rw [hpointer] at hend hle
    dsimp only [List.length_singleton] at hend hle
    rw [if_pos rfl, Nat.add_zero, if_pos (by omega), hend.index, ok_bind, if_pos rfl, if_neg (fun h => h.1 rfl)]
    exact congrArg Outcome.ok (by dsimp only [List.length_singleton]; omega)
  | some p =>
    rw [hpointer] at hfields hle
    dsimp only [List.length_cons, List.length_nil] at hfields hle
    rw [← Nat.add_assoc] at hfields
    rw [if_neg (Option.some_ne_none p), if_pos (by omega), hfields.index, ok_bind]
    by_cases hzero : hi = 0
    · rw [if_pos hzero, if_pos ⟨Option.some_ne_none p, hsmall.mpr hzero⟩]
      exact congrArg Outcome.ok (by dsimp only [List.length_cons, List.length_nil]; omega)
    · rw [if_neg hzero, if_neg fun h => hzero (hsmall.mp h.2)]
      exact congrArg Outcome.ok (by dsimp only [List.length_cons, List.length_nil]; omega)

/-! ### Every byte string -/

/-- A loop over the offsets of a message returns if each turn does, and a turn that is not the last moves ahead. -/
theorem returns_offsets {body : Nat → Outcome ε (Turn Nat Nat)}
    (hbody : ∀ k, Returns (Turn.Ends (fun k' => k < packet.length ∧ k < k') fun _ => True) (body k)) (k : Nat) :
    Returns (fun _ => True) (loop body (packet.length + 1) k) := by
  refine returns_loop (fun _ => True) (fun k => packet.length - k) (fun k _ => ?_) trivial (by omega)
  refine (hbody k).mono fun turn hturn => ?_
  cases turn with
  | next k' =>
    have hahead : k < packet.length ∧ k < k' := hturn
    exact ⟨trivial, by omega⟩
  | done v => trivial

theorem returns_skipLabels (packet : Bytes) (k : Nat) :
    Returns (fun _ => True) (skipLabels packet k : Outcome ε _) := by
  refine returns_offsets (fun k => ?_) k
  unfold labelsTurn
  split
  · refine (returns_index ‹_›).bind fun len _ => ?_
    split
    · exact returns_ok trivial
    · exact returns_ok ⟨‹_›, by omega⟩
  · exact returns_ok trivial

theorem returns_skipQuestion (packet : Bytes) (k : Nat) :
    Returns (fun _ => True) (skipQuestion packet k : Outcome ε _) := by
  have hloop : Returns (fun _ => True) (loop (questionTurn packet) (packet.length + 1) k : Outcome ε _) := by
    refine returns_offsets (fun k => ?_) k
    unfold questionTurn
    split
    · refine (returns_index ‹_›).bind fun len _ => ?_
      split
      · exact returns_ok trivial
      · split
        · exact returns_ok trivial
        · exact returns_ok ⟨‹_›, by omega⟩
    · exact returns_ok trivial
  refine hloop.bind fun offset _ => ?_
  split
  · exact (returns_index ‹_›).bind fun b _ => returns_ok trivial
  · exact returns_ok trivial

end Skipping

end Idnx
