import Idnx.Lib.Framing
import Idnx.Lib.Outcome
import Idnx.Lib.Text
import Mathlib.Data.Nat.Bitwise

/-!
# BER as the SNMP probes write and read it

Tag-length-value elements, integers and object identifiers, and `Reader`, the cursor over one container.

* an element is its header and its contents (`encodeTlv_eq`), and a reader in front of an element reads it
  (`Reader.Left.tlv`); no reader panics (`Reader.Sound`);
* an integer is read as it was written (`decodeIntegerValue_integerBytes`), and so is every object identifier whose
  first two components share one byte (`decodeOidValue_oidBody`).
-/

namespace Idnx

def tagInteger : UInt8 := 0x02
def tagOctetString : UInt8 := 0x04
def tagNull : UInt8 := 0x05
def tagObjectIdentifier : UInt8 := 0x06
def tagSequence : UInt8 := 0x30

/-! ## Writing -/

def encodeLength (len : Nat) : Bytes :=
  if len < 128 then [UInt8.ofNat len]
  else if len < 256 then [0x81, UInt8.ofNat len]
  else if len < 65536 then [0x82, UInt8.ofNat (len >>> 8), UInt8.ofNat (len &&& 0xFF)]
  else [0x83, UInt8.ofNat (len >>> 16), UInt8.ofNat ((len >>> 8) &&& 0xFF), UInt8.ofNat (len &&& 0xFF)]

def encodeTlv (tag : UInt8) (value : Bytes) : Bytes := tag :: encodeLength value.length ++ value

/-- The bytes the loop of `encode_integer` pushes, the least significant first; eight are enough for 64 bits. -/
def integerLoop : Nat → Int → Bytes
  | 0, _ => []
  | fuel + 1, v =>
    let byte := UInt8.ofNat (v % 256).toNat
    let v := v / 256
    if (v = 0 ∧ byte &&& 0x80 = 0) ∨ (v = -1 ∧ byte &&& 0x80 ≠ 0) then [byte] else byte :: integerLoop fuel v

/-- The contents of an integer. -/
def integerBytes (val : Int) : Bytes := (integerLoop 8 val).reverse

def encodeInteger (val : Int) : Bytes := encodeTlv tagInteger (integerBytes val)

def encodeOctetString (val : Bytes) : Bytes := encodeTlv tagOctetString val

def encodeNull : Bytes := [tagNull, 0x00]

/-- An object identifier. -/
abbrev Oid := List UInt32

/-- Whether an identifier begins with another. -/
def Oid.startsWith (oid start : Oid) : Bool :=
  if oid.length < start.length then false else oid.take start.length == start

/-- The groups of seven bits above the lowest, as the loop of `encode_oid` pushes them. -/
def groupLoop : Nat → UInt32 → Bytes
  | 0, _ => []
  | fuel + 1, val => if val > 0 then ((val &&& 0x7F) ||| 0x80).toUInt8 :: groupLoop fuel (val >>> 7) else []

/-- One component behind the first two. -/
def encodeComponent (comp : UInt32) : Bytes :=
  if comp < 128 then [comp.toUInt8] else ((comp &&& 0x7F).toUInt8 :: groupLoop 5 (comp >>> 7)).reverse

/-- The contents of an object identifier: the first two components share one byte, cut to it if they do not fit. -/
def oidBody : Oid → Bytes
  | first :: second :: rest => (first * 40 + second).toUInt8 :: rest.flatMap encodeComponent
  | _ => []

def encodeOid (oid : Oid) : Bytes :=
  if oid.length < 2 then [tagObjectIdentifier, 0x00] else encodeTlv tagObjectIdentifier (oidBody oid)

/-! ## Reading -/

/-- The components read and the one being read, after one more byte. -/
def componentStep (acc : Oid × UInt32) (b : UInt8) : Oid × UInt32 :=
  let current := (acc.2 <<< 7) ||| (b &&& 0x7F).toUInt32
  if b &&& 0x80 = 0 then (acc.1 ++ [current], 0) else (acc.1, current)

def decodeOidValue (data : Bytes) : Outcome Text Oid :=
  match data with
  | [] => .ok []
  | first :: rest => .ok (rest.foldl componentStep ([first.toUInt32 / 40, first.toUInt32 % 40], 0)).1

/-- A signed 64-bit number shifted left by one byte, which is then filled. -/
def integerStep (val : Int) (b : UInt8) : Int := Int.bmod (val * 256 + b.toNat) (2 ^ 64)

def decodeIntegerValue (data : Bytes) : Int :=
  match data with
  | [] => 0
  | first :: _ => data.foldl integerStep (if first &&& 0x80 ≠ 0 then -1 else 0)

/-- An integer cut to 32 bits, unsigned. -/
def asU32 (v : Int) : UInt32 := UInt32.ofNat (v % 2 ^ 32).toNat

/-- One more byte of a length; `none` if it does not fit the machine word. -/
def lengthStep (len : Nat) (byte : UInt8) : Option Nat :=
  let shifted := len * 256 % 2 ^ 64
  if shifted + byte.toNat < 2 ^ 64 then some (shifted + byte.toNat) else none

/-- A tag as error texts show it. -/
def tagText (tag : UInt8) : Text :=
  ("0x" : Text) ++ (if tag < 16 then ("0" : Text) else []) ++ Text.hexOfNat tag.toNat

/-- A cursor over one container. -/
structure Reader where
  bytes : Bytes
  cursor : Nat
  deriving DecidableEq, Repr

namespace Reader

open Outcome

def new (bytes : Bytes) : Reader := ⟨bytes, 0⟩

variable (r : Reader) (what : Text)

def done : Bool := r.cursor ≥ r.bytes.length

def remaining : Outcome Text Nat := if r.cursor ≤ r.bytes.length then .ok (r.bytes.length - r.cursor) else .panic

/-- The length at the cursor, definite form only. -/
def length : Outcome Text (Nat × Reader) := do
  let first ← okOr r.bytes[r.cursor]? (what ++ ": the container ended before its length")
  let r : Reader := ⟨r.bytes, r.cursor + 1⟩
  if first &&& 0x80 = 0 then .ok (first.toNat, r)
  else
    let count := (first &&& 0x7F).toNat
    if count = 0 ∨ count > 4 then .err (what ++ ": unsupported length encoding")
    else do
      let bytes ← okOr (getRange r.bytes r.cursor (r.cursor + count)) (what ++ ": its length field is truncated")
      let len ← okOr (bytes.foldlM lengthStep 0) (what ++ ": its declared length overflows")
      .ok (len, ⟨r.bytes, r.cursor + count⟩)

/-- Reads one element: its tag and a reader of its contents. -/
def tlv : Outcome Text ((UInt8 × Reader) × Reader) := do
  let tag ← okOr r.bytes[r.cursor]? (what ++ ": the container ended before its tag")
  let (len, r) ← length ⟨r.bytes, r.cursor + 1⟩ what
  let stop ← okOr (if r.cursor + len < 2 ^ 64 then some (r.cursor + len) else none)
    (what ++ ": its declared length overflows")
  match getRange r.bytes r.cursor stop with
  | some value => .ok ((tag, .new value), ⟨r.bytes, stop⟩)
  | none => do
    let remaining ← r.remaining
    .err (what ++ ": declares " ++ Text.ofNat len ++ " bytes and its container holds " ++ Text.ofNat remaining)

/-- Reads one element and requires its tag. -/
def expect (tag : UInt8) : Outcome Text (Reader × Reader) := do
  let ((found, value), r) ← r.tlv what
  if found ≠ tag then .err (what ++ ": expected tag " ++ tagText tag ++ ", found " ++ tagText found)
  else .ok (value, r)

/-- What remains. -/
def rest : Outcome Text Bytes := slice r.bytes r.cursor r.bytes.length

def finished : Outcome Text Unit :=
  if r.done then .ok ()
  else do
    let remaining ← r.remaining
    .err (what ++ ": " ++ Text.ofNat remaining ++ " byte(s) remain after its declared fields")

/-- Reads one integer field. -/
def integer : Outcome Text (Int × Reader) := do
  let (value, r) ← r.expect what tagInteger
  let bytes ← value.rest
  .ok (decodeIntegerValue bytes, r)

end Reader

/-! ## Single bytes -/

/-- The top bit of a byte. -/
theorem and_0x80_eq_zero {b : UInt8} : b &&& 0x80 = 0 ↔ b.toNat < 128 := by
  have hb := b.toNat_lt
  have hnat : (b &&& 0x80).toNat = b.toNat / 128 % 2 * 128 := by
    rw [UInt8.toNat_and, show (0x80 : UInt8).toNat = 2 ^ 7 from rfl, Nat.and_two_pow,
      Nat.testBit_eq_decide_div_mod_eq, show (2 : Nat) ^ 7 = 128 from rfl]
    obtain h | h : b.toNat / 128 % 2 = 0 ∨ b.toNat / 128 % 2 = 1 := by omega
    · rw [h]
      rfl
    · rw [h]
      rfl
  rw [← UInt8.toNat_inj, hnat]
  show b.toNat / 128 % 2 * 128 = 0 ↔ _
  omega

/-- The bits below it. -/
@[simp] theorem toNat_and_0x7F (b : UInt8) : (b &&& 0x7F).toNat = b.toNat % 128 := by
  rw [UInt8.toNat_and, show (0x7F : UInt8).toNat = 2 ^ 7 - 1 from rfl, Nat.and_two_pow_sub_one_eq_mod]

/-! ## Elements -/

/-- The tag and the length in front of `n` bytes of contents. -/
def tlvHeader (tag : UInt8) (n : Nat) : Bytes := tag :: encodeLength n

theorem encodeTlv_eq (tag : UInt8) (value : Bytes) : encodeTlv tag value = tlvHeader tag value.length ++ value := rfl

@[simp] theorem length_encodeTlv (tag : UInt8) (value : Bytes) :
    (encodeTlv tag value).length = (tlvHeader tag value.length).length + value.length := by
  rw [encodeTlv_eq, List.length_append]

theorem length_encodeLength_pos (n : Nat) : 0 < (encodeLength n).length := by
  unfold encodeLength
  split
  · simp
  · split
    · simp
    · split
      · simp
      · simp

/-- The forms a length may take: one byte, or the number of bytes that hold it and these bytes, perhaps with zeroes in
front. -/
def LengthOctets (n : Nat) (octets : Bytes) : Prop :=
  (n < 128 ∧ octets = [UInt8.ofNat n]) ∨
    ∃ k, 1 ≤ k ∧ k ≤ 4 ∧ n < 256 ^ k ∧ octets = UInt8.ofNat (0x80 + k) :: beBytes k n

/-- Lengths below `2 ^ 24` are written in one of them. -/
theorem lengthOctets_encodeLength {n : Nat} (h : n < 2 ^ 24) : LengthOctets n (encodeLength n) := by
  have hlow : ∀ m, UInt8.ofNat (m &&& 0xFF) = UInt8.ofNat m := by
    intro m
    rw [show (0xFF : Nat) = 2 ^ 8 - 1 from rfl, Nat.and_two_pow_sub_one_eq_mod]
    apply UInt8.toNat_inj.mp
    simp
  unfold encodeLength
  by_cases h1 : n < 128
  · exact .inl ⟨h1, if_pos h1⟩
  · rw [if_neg h1]
    by_cases h2 : n < 256
    · exact .inr ⟨1, by omega, by omega, by omega, by rw [if_pos h2]; rfl⟩
    · rw [if_neg h2]
      by_cases h3 : n < 65536
      · refine .inr ⟨2, by omega, by omega, by omega, ?_⟩
        rw [if_pos h3, hlow, Nat.shiftRight_eq_div_pow]
        rfl
      · refine .inr ⟨3, by omega, by omega, by omega, ?_⟩
        rw [if_neg h3, hlow, hlow, Nat.shiftRight_eq_div_pow, Nat.shiftRight_eq_div_pow]
        simp [beBytes, Nat.div_div_eq_div_mul]

/-- The bytes are an element with this tag and these contents. -/
def IsTlv (tag : UInt8) (value bytes : Bytes) : Prop :=
  ∃ octets, LengthOctets value.length octets ∧ bytes = tag :: octets ++ value

theorem isTlv_encodeTlv {value : Bytes} (tag : UInt8) (h : value.length < 2 ^ 24) :
    IsTlv tag value (encodeTlv tag value) := ⟨_, lengthOctets_encodeLength h, rfl⟩

theorem IsTlv.length_lt {tag : UInt8} {value bytes : Bytes} (h : IsTlv tag value bytes) :
    value.length < bytes.length := by
  obtain ⟨octets, -, rfl⟩ := h
  simp only [List.length_append, List.length_cons]
  omega

/-- Lengths of at most four octets leave an element within the address space. -/
theorem IsTlv.fits {tag : UInt8} {value bytes : Bytes} (h : IsTlv tag value bytes) : bytes.length < 2 ^ 64 := by
  obtain ⟨octets, hoctets, rfl⟩ := h
  simp only [List.length_append, List.length_cons]
  obtain ⟨hshort, rfl⟩ | ⟨k, -, hk, hlong, rfl⟩ := hoctets
  · simp only [List.length_cons, List.length_nil]
    omega
  · have hpow : 256 ^ k ≤ 256 ^ 4 := Nat.pow_le_pow_right (by decide) hk
    simp only [List.length_cons, length_beBytes]
    omega

/-- Up to seven bytes of a length fit the machine word. -/
theorem foldlM_lengthStep {bytes : Bytes} {acc j : Nat} (hacc : acc < 256 ^ j) (hj : j + bytes.length ≤ 7) :
    bytes.foldlM lengthStep acc = some (bytes.foldl (fun n b => n * 256 + b.toNat) acc) := by
  induction bytes generalizing acc j with
  | nil => rfl
  | cons b bytes ih =>
    rw [List.length_cons] at hj
    have hb := b.toNat_lt
    have hpow : 256 ^ (j + 1) ≤ 256 ^ 7 := Nat.pow_le_pow_right (by decide) (by omega)
    have hnext : acc * 256 + b.toNat < 256 ^ (j + 1) := by
      rw [pow_succ]
      omega
    have hfits : acc * 256 + b.toNat < 2 ^ 64 := by omega
    have hmod : acc * 256 % 2 ^ 64 = acc * 256 := by omega
    have hstep : lengthStep acc b = some (acc * 256 + b.toNat) := by
      unfold lengthStep
      simp only [hmod, hfits, if_true]
    rw [List.foldlM_cons, hstep]
    exact ih hnext (by omega)

/-- A length as a reader meets it: short, or a count of octets that say it. -/
theorem LengthOctets.reads {n : Nat} {octets : Bytes} (h : LengthOctets n octets) :
    (∃ first, octets = [first] ∧ first &&& 0x80 = 0 ∧ first.toNat = n) ∨
      ∃ first more, octets = first :: more ∧ ¬ first &&& 0x80 = 0 ∧ (first &&& 0x7F).toNat = more.length ∧
        ¬ (more.length = 0 ∨ more.length > 4) ∧ more.foldlM lengthStep 0 = some n := by
  obtain ⟨hlt, he⟩ | ⟨k, hk1, hk4, hlt, he⟩ := h
  · have hfirst : (UInt8.ofNat n).toNat = n := by
      rw [UInt8.toNat_ofNat']
      omega
    exact .inl ⟨_, he, and_0x80_eq_zero.mpr (by omega), hfirst⟩
  · have hfirst : (UInt8.ofNat (0x80 + k)).toNat = 128 + k := by
      rw [UInt8.toNat_ofNat']
      omega
    refine .inr ⟨_, _, he, by rw [and_0x80_eq_zero]; omega, ?_, by rw [length_beBytes]; omega, ?_⟩
    · rw [toNat_and_0x7F, hfirst, length_beBytes]
      omega
    · rw [foldlM_lengthStep (j := 0) (by simp) (by simp; omega)]
      exact congrArg some (beNat_beBytes hlt)

namespace Reader

open Outcome

/-- The reader has `left` in front of it, in a container that fits the address space. -/
structure Left (r : Reader) (left : Bytes) : Prop where
  drop : r.bytes.drop r.cursor = left
  le : r.cursor ≤ r.bytes.length
  fits : r.bytes.length < 2 ^ 64

variable {r : Reader} {left value : Bytes} {tag : UInt8}

theorem left_new (h : value.length < 2 ^ 64) : Left (new value) value := ⟨rfl, Nat.zero_le _, h⟩

theorem Left.getElem? {b : UInt8} (h : Left r (b :: left)) : r.bytes[r.cursor]? = some b := by
  have := congrArg (·[0]?) h.drop
  simpa using this

theorem Left.advance {front : Bytes} (h : Left r (front ++ left)) : Left ⟨r.bytes, r.cursor + front.length⟩ left := by
  have hlen := congrArg List.length h.drop
  rw [List.length_drop, List.length_append] at hlen
  refine ⟨?_, ?_, h.fits⟩
  · rw [← List.drop_drop, h.drop, List.drop_left]
  · show r.cursor + front.length ≤ r.bytes.length
    have := h.le
    omega

theorem Left.getRange {front : Bytes} (h : Left r (front ++ left)) :
    getRange r.bytes r.cursor (r.cursor + front.length) = some front := by
  have hlen := congrArg List.length h.drop
  rw [List.length_drop, List.length_append] at hlen
  have := h.le
  unfold Idnx.getRange
  rw [if_pos ⟨by omega, by omega⟩, h.drop, show r.cursor + front.length - r.cursor = front.length by omega,
    List.take_left]

theorem Left.length {n : Nat} {octets : Bytes} (h : Left r (octets ++ left)) (ho : LengthOctets n octets)
    (what : Text) :
    r.length what = .ok (n, ⟨r.bytes, r.cursor + octets.length⟩) := by
  unfold Reader.length
  obtain ⟨first, rfl, htop, hfirst⟩ | ⟨first, more, rfl, htop, hcount, hfew, hfold⟩ := ho.reads
  · rw [h.getElem?, okOr_some, ok_bind, if_pos htop, hfirst]
    rfl
  · have hcons : Left r ([first] ++ (more ++ left)) := h
    have hmore := hcons.advance.getRange
    rw [h.getElem?, okOr_some, ok_bind, if_neg htop]
    dsimp only
    rw [hcount, if_neg hfew]
    rw [show r.cursor + 1 = r.cursor + [first].length from rfl, hmore, okOr_some, ok_bind, hfold, okOr_some, ok_bind]
    rw [List.length_singleton, List.length_cons, Nat.add_assoc, Nat.add_comm 1]

/-- A reader in front of an element reads it. -/
theorem Left.tlv {bytes : Bytes} (h : Left r (bytes ++ left)) (ht : IsTlv tag value bytes) (what : Text) :
    ∃ r', r.tlv what = .ok ((tag, .new value), r') ∧ Left r' left := by
  obtain ⟨octets, ho, rfl⟩ := ht
  have htail : Left ⟨r.bytes, r.cursor + 1⟩ (octets ++ (value ++ left)) := by
    have hcons : Left r ([tag] ++ (octets ++ (value ++ left))) := by simpa using h
    exact hcons.advance
  have hvalue : Left ⟨r.bytes, r.cursor + 1 + octets.length⟩ (value ++ left) := htail.advance
  have hfits := Nat.lt_of_le_of_lt hvalue.advance.le hvalue.fits
  refine ⟨⟨r.bytes, r.cursor + 1 + octets.length + value.length⟩, ?_, hvalue.advance⟩
  unfold Reader.tlv
  rw [h.getElem?, okOr_some, ok_bind, htail.length ho, ok_bind]
  dsimp only at hfits ⊢
  rw [if_pos hfits, okOr_some, ok_bind, hvalue.getRange]

theorem Left.expect {bytes : Bytes} (h : Left r (bytes ++ left)) (ht : IsTlv tag value bytes) (what : Text) :
    ∃ r', r.expect what tag = .ok (.new value, r') ∧ Left r' left := by
  obtain ⟨r', hr, hleft⟩ := h.tlv ht what
  refine ⟨r', ?_, hleft⟩
  unfold Reader.expect
  rw [hr, ok_bind]
  simp

/-- What is left in front of a new reader of the contents of an element. -/
theorem Left.contents {bytes : Bytes} (h : Left r (bytes ++ left)) (ht : IsTlv tag value bytes) :
    Left (new value) value := by
  refine left_new ?_
  have hlen := congrArg List.length h.drop
  rw [List.length_drop, List.length_append] at hlen
  have := ht.length_lt
  have := h.fits
  omega

theorem Left.rest (h : Left r left) : r.rest = .ok left := by
  unfold Reader.rest slice
  rw [if_pos ⟨h.le, Nat.le_refl _⟩, ← h.drop, List.take_of_length_le (by rw [List.length_drop])]

theorem Left.finished (h : Left r []) (what : Text) : r.finished what = .ok () := by
  have : r.bytes.length ≤ r.cursor := List.drop_eq_nil_iff.mp h.drop
  unfold Reader.finished done
  simp [this]

theorem Left.done (h : Left r left) : r.done = left.isEmpty := by
  unfold Reader.done
  rw [← h.drop, Bool.eq_iff_iff]
  simp

/-! ### No reader panics -/

/-- The cursor is in its container or at its end. -/
def Sound (r : Reader) : Prop := r.cursor ≤ r.bytes.length

theorem sound_new (bytes : Bytes) : (new bytes).Sound := Nat.zero_le _

theorem Sound.remaining (h : r.Sound) : Safe (fun _ => True) r.remaining := by
  unfold Reader.remaining
  split
  · trivial
  · exact absurd h ‹_›

theorem safe_length (r : Reader) (what : Text) : Safe (fun p => p.2.Sound) (r.length what) := by
  unfold Reader.length
  refine (safe_okOr _ _).bind fun first hfirst => ?_
  have hlt : r.cursor < r.bytes.length := (List.getElem?_eq_some_iff.mp hfirst).1
  dsimp only
  split
  · exact hlt
  · split
    · trivial
    · refine (safe_okOr _ _).bind fun bytes hbytes => (safe_okOr _ _).bind fun len _ => ?_
      exact (getRange_eq_some hbytes).2

theorem safe_tlv (r : Reader) (what : Text) : Safe (fun p => p.1.2.Sound ∧ p.2.Sound) (r.tlv what) := by
  unfold Reader.tlv
  refine (safe_okOr _ _).bind fun tag _ => (safe_length _ what).bind fun p hp => (safe_okOr _ _).bind fun stop _ => ?_
  split
  · rename_i hvalue
    exact ⟨sound_new _, (getRange_eq_some hvalue).2⟩
  · exact hp.remaining.bind fun _ _ => trivial

theorem safe_expect (r : Reader) (what : Text) (tag : UInt8) :
    Safe (fun p => p.1.Sound ∧ p.2.Sound) (r.expect what tag) := by
  unfold Reader.expect
  refine (safe_tlv r what).bind fun ⟨⟨found, value⟩, left⟩ hp => ?_
  dsimp only
  split
  · trivial
  · exact hp

theorem Sound.rest (h : r.Sound) : Safe (fun _ => True) r.rest := by
  unfold Reader.rest slice
  rw [if_pos ⟨h, Nat.le_refl _⟩]
  trivial

theorem Sound.finished (h : r.Sound) (what : Text) : Safe (fun _ => True) (r.finished what) := by
  unfold Reader.finished
  split
  · trivial
  · exact h.remaining.bind fun _ _ => trivial

theorem safe_integer (r : Reader) (what : Text) : Safe (fun p => p.2.Sound) (r.integer what) := by
  unfold Reader.integer
  exact (safe_expect r what tagInteger).bind fun p hp => hp.1.rest.bind fun _ _ => hp.2

end Reader

/-! ## Integers -/

/-- The integer a byte string says in two's complement, however long it is. -/
def signedValue (data : Bytes) : Int :=
  match data with
  | [] => 0
  | first :: _ => data.foldl (fun v b => v * 256 + b.toNat) (if first &&& 0x80 ≠ 0 then -1 else 0)

theorem signedValue_concat {data : Bytes} (h : data ≠ []) (b : UInt8) :
    signedValue (data ++ [b]) = signedValue data * 256 + b.toNat := by
  cases data with
  | nil => exact absurd rfl h
  | cons first rest =>
    show List.foldl _ _ ((first :: rest) ++ [b]) = _
    rw [List.foldl_append]
    rfl

theorem signedValue_singleton (b : UInt8) :
    signedValue [b] = if b.toNat < 128 then (b.toNat : Int) else b.toNat - 256 := by
  simp only [signedValue, List.foldl_cons, List.foldl_nil, ne_eq, and_0x80_eq_zero]
  by_cases h : b.toNat < 128
  · rw [if_neg (not_not_intro h), if_pos h]
    omega
  · rw [if_pos h, if_neg h]
    omega

/-- The loop stops with the shortest string that says the number. -/
theorem integerLoop_spec {n fuel : Nat} {v : Int} (hfuel : n < fuel) (hlo : -(128 * 256 ^ n) ≤ v)
    (hhi : v < 128 * 256 ^ n) :
    integerLoop fuel v ≠ [] ∧ (integerLoop fuel v).length ≤ n + 1 ∧ signedValue (integerLoop fuel v).reverse = v := by
  induction n generalizing fuel v with
  | zero =>
    obtain ⟨fuel, rfl⟩ : ∃ k, fuel = k + 1 := ⟨fuel - 1, by omega⟩
    rw [pow_zero] at hlo hhi
    have hbyte : (UInt8.ofNat (v % 256).toNat).toNat = (v % 256).toNat := by
      rw [UInt8.toNat_ofNat']
      omega
    unfold integerLoop
    dsimp only
    rw [if_pos (by rw [ne_eq, and_0x80_eq_zero, hbyte]; omega)]
    refine ⟨by simp, by simp, ?_⟩
    rw [List.reverse_singleton, signedValue_singleton, hbyte]
    split
    · omega
    · omega
  | succ n ih =>
    obtain ⟨fuel, rfl⟩ : ∃ k, fuel = k + 1 := ⟨fuel - 1, by omega⟩
    have hbyte : (UInt8.ofNat (v % 256).toNat).toNat = (v % 256).toNat := by
      rw [UInt8.toNat_ofNat']
      omega
    unfold integerLoop
    dsimp only
    split
    · rename_i hstop
      rw [ne_eq, and_0x80_eq_zero, hbyte] at hstop
      refine ⟨by simp, by simp, ?_⟩
      rw [List.reverse_singleton, signedValue_singleton, hbyte]
      split
      · omega
      · omega
    · rw [pow_succ] at hlo hhi
      obtain ⟨hne, hlen, hvalue⟩ := @ih fuel (v / 256) (by omega) (by omega) (by omega)
      refine ⟨by simp, by simpa using hlen, ?_⟩
      rw [List.reverse_cons, signedValue_concat (by simpa using hne), hvalue, hbyte]
      omega

/-- The reader wraps the number to 64 bits. -/
theorem foldl_integerStep (data : Bytes) (v : Int) :
    data.foldl integerStep (Int.bmod v (2 ^ 64)) =
      Int.bmod (data.foldl (fun v b => v * 256 + b.toNat) v) (2 ^ 64) := by
  induction data generalizing v with
  | nil => rfl
  | cons b data ih =>
    have hstep : integerStep (Int.bmod v (2 ^ 64)) b = Int.bmod (v * 256 + b.toNat) (2 ^ 64) := by
      unfold integerStep
      rw [Int.add_bmod, Int.bmod_mul_bmod, ← Int.add_bmod]
    rw [List.foldl_cons, List.foldl_cons, hstep, ih]

theorem decodeIntegerValue_eq (data : Bytes) : decodeIntegerValue data = Int.bmod (signedValue data) (2 ^ 64) := by
  cases data with
  | nil => rfl
  | cons first rest =>
    unfold decodeIntegerValue signedValue
    dsimp only
    rw [← foldl_integerStep]
    congr 1
    split <;> rfl

theorem integerBytes_spec {v : Int} (hlo : -2 ^ 63 ≤ v) (hhi : v < 2 ^ 63) :
    integerBytes v ≠ [] ∧ (integerBytes v).length ≤ 8 ∧ signedValue (integerBytes v) = v := by
  obtain ⟨hne, hlen, hvalue⟩ := @integerLoop_spec 7 8 v (by omega) (by omega) (by omega)
  exact ⟨by simpa [integerBytes] using hne, by simpa [integerBytes] using hlen, hvalue⟩

/-- An integer is read as it was written. -/
theorem decodeIntegerValue_integerBytes {v : Int} (hlo : -2 ^ 63 ≤ v) (hhi : v < 2 ^ 63) :
    decodeIntegerValue (integerBytes v) = v := by
  rw [decodeIntegerValue_eq, (integerBytes_spec hlo hhi).2.2]
  exact Int.bmod_eq_of_le (by omega) (by omega)

/-- A reader in front of an integer of any length reads what the decoder makes of it. -/
theorem Reader.Left.integerOf {r : Reader} {value bytes left : Bytes} (h : r.Left (bytes ++ left))
    (ht : IsTlv tagInteger value bytes) (what : Text) :
    ∃ r', r.integer what = .ok (decodeIntegerValue value, r') ∧ Reader.Left r' left := by
  obtain ⟨r', hr, hleft⟩ := h.expect ht what
  have hrest := (h.contents ht).rest
  refine ⟨r', ?_, hleft⟩
  unfold Reader.integer
  rw [hr, Outcome.ok_bind]
  dsimp only
  rw [hrest, Outcome.ok_bind]

/-! ## Object identifiers -/

theorem toNat_shiftRight_seven (c : UInt32) : (c >>> 7).toNat = c.toNat / 128 := by
  rw [UInt32.toNat_shiftRight]
  exact Nat.shiftRight_eq_div_pow _ _

theorem toNat_and_0x7F_toUInt8 (c : UInt32) : (c &&& 0x7F).toUInt8.toNat = c.toNat % 128 := by
  rw [UInt32.toNat_toUInt8, UInt32.toNat_and]
  show (c.toNat &&& 2 ^ 7 - 1) % 2 ^ 8 = _
  rw [Nat.and_two_pow_sub_one_eq_mod]
  omega

/-- Putting the low seven bits back below the others. -/
theorem shiftRight_shiftLeft_or {c : UInt32} {b : UInt8} (h : b.toNat % 128 = c.toNat % 128) :
    (c >>> 7) <<< 7 ||| (b &&& 0x7F).toUInt32 = c := by
  have hc := c.toNat_lt
  apply UInt32.toNat_inj.mp
  rw [UInt32.toNat_or, UInt32.toNat_shiftLeft, UInt32.toNat_shiftRight, UInt8.toNat_toUInt32, toNat_and_0x7F, h]
  show (c.toNat >>> 7) <<< 7 % 2 ^ 32 ||| c.toNat % 128 = c.toNat
  rw [Nat.shiftRight_eq_div_pow, Nat.shiftLeft_eq, Nat.mod_eq_of_lt (by omega), Nat.mul_comm,
    ← Nat.two_pow_add_eq_or_of_lt (by omega)]
  omega

theorem componentStep_last {b : UInt8} {c : UInt32} (comps : Oid) (hb : b.toNat = c.toNat % 128) :
    componentStep (comps, c >>> 7) b = (comps ++ [c], 0) := by
  unfold componentStep
  rw [if_pos (and_0x80_eq_zero.mpr (by omega)), shiftRight_shiftLeft_or (by omega)]

theorem componentStep_more {b : UInt8} {c : UInt32} (comps : Oid) (hb : b.toNat = c.toNat % 128 + 128) :
    componentStep (comps, c >>> 7) b = (comps, c) := by
  unfold componentStep
  rw [if_neg (by rw [and_0x80_eq_zero]; omega), shiftRight_shiftLeft_or (by omega)]

/-- The groups above the lowest, most significant first, are read back as the number they were cut from. -/
theorem foldl_groupLoop {fuel : Nat} {val : UInt32} (comps : Oid) (h : val.toNat < 128 ^ fuel) :
    (groupLoop fuel val).reverse.foldl componentStep (comps, 0) = (comps, val) := by
  induction fuel generalizing val with
  | zero =>
    have : val = 0 := UInt32.toNat_inj.mp (by simpa using h)
    rw [this]
    rfl
  | succ fuel ih =>
    unfold groupLoop
    split
    · have hshift := toNat_shiftRight_seven val
      have hbyte : (((val &&& 0x7F) ||| 0x80).toUInt8).toNat = val.toNat % 128 + 128 := by
        rw [UInt32.toNat_toUInt8, UInt32.toNat_or, UInt32.toNat_and]
        show (val.toNat &&& 2 ^ 7 - 1 ||| 2 ^ 7 * 1) % 2 ^ 8 = _
        rw [Nat.and_two_pow_sub_one_eq_mod, Nat.or_comm, ← Nat.two_pow_add_eq_or_of_lt (by omega)]
        omega
      rw [pow_succ] at h
      rw [List.reverse_cons, List.foldl_append, ih (by omega)]
      exact componentStep_more comps hbyte
    · rename_i hzero
      have : val = 0 := UInt32.toNat_inj.mp (by
        have := UInt32.lt_iff_toNat_lt.not.mp hzero
        rw [UInt32.toNat_zero] at this ⊢
        omega)
      rw [this]
      rfl

theorem encodeComponent_eq (comp : UInt32) :
    encodeComponent comp = (groupLoop 5 (comp >>> 7)).reverse ++ [(comp &&& 0x7F).toUInt8] := by
  unfold encodeComponent
  split
  · rename_i hlt
    have hlt' : comp.toNat < 128 := UInt32.lt_iff_toNat_lt.mp hlt
    have hhigh : comp >>> 7 = 0 := by
      apply UInt32.toNat_inj.mp
      rw [toNat_shiftRight_seven, UInt32.toNat_zero]
      omega
    have hlow : comp.toUInt8 = (comp &&& 0x7F).toUInt8 := by
      apply UInt8.toNat_inj.mp
      rw [toNat_and_0x7F_toUInt8, UInt32.toNat_toUInt8]
      omega
    rw [hhigh, hlow]
    rfl
  · rw [List.reverse_cons]

theorem foldl_encodeComponent (comps : Oid) (comp : UInt32) :
    (encodeComponent comp).foldl componentStep (comps, 0) = (comps ++ [comp], 0) := by
  have hc := comp.toNat_lt
  have hshift := toNat_shiftRight_seven comp
  rw [encodeComponent_eq, List.foldl_append, foldl_groupLoop comps (by omega)]
  exact componentStep_last comps (toNat_and_0x7F_toUInt8 comp)

/-- The identifiers whose first two components share one byte. -/
def Oid.Carried (oid : Oid) : Prop :=
  ∃ first second rest, oid = first :: second :: rest ∧ first.toNat * 40 + second.toNat < 256 ∧ second.toNat < 40

/-- They are read as they were written. -/
theorem decodeOidValue_oidBody {oid : Oid} (h : oid.Carried) : decodeOidValue (oidBody oid) = .ok oid := by
  obtain ⟨first, second, rest, rfl, hsum, hsecond⟩ := h
  have hrest : ∀ comps : Oid, (rest.flatMap encodeComponent).foldl componentStep (comps, 0) = (comps ++ rest, 0) := by
    induction rest with
    | nil => simp
    | cons comp rest ih =>
      intro comps
      rw [List.flatMap_cons, List.foldl_append, foldl_encodeComponent, ih, List.append_assoc]
      rfl
  have hfirst : ((first * 40 + second).toUInt8.toUInt32).toNat = first.toNat * 40 + second.toNat := by
    rw [UInt8.toNat_toUInt32, UInt32.toNat_toUInt8, UInt32.toNat_add, UInt32.toNat_mul]
    show (first.toNat * 40 % 2 ^ 32 + second.toNat) % 2 ^ 32 % 2 ^ 8 = _
    omega
  have hdiv : (first * 40 + second).toUInt8.toUInt32 / 40 = first := by
    apply UInt32.toNat_inj.mp
    rw [UInt32.toNat_div, hfirst]
    show (first.toNat * 40 + second.toNat) / 40 = _
    omega
  have hmod : (first * 40 + second).toUInt8.toUInt32 % 40 = second := by
    apply UInt32.toNat_inj.mp
    rw [UInt32.toNat_mod, hfirst]
    show (first.toNat * 40 + second.toNat) % 40 = _
    omega
  show Outcome.ok (List.foldl componentStep _ (rest.flatMap encodeComponent)).1 = _
  rw [hdiv, hmod, hrest]
  rfl

end Idnx
