import Idnx.Lib.Framing
import Idnx.Lib.Outcome
import Idnx.Net.Address

/-!
# Reading captured bytes

What the decoders of captured traffic share: numbers and addresses at a place of a byte string, whole chunks of it,
the text of a hardware address, and the one's-complement checksum of the IP protocols. An index outside the string is
a panic, and so is a sum of thirty-two bits that overflows.
-/

namespace Idnx

open Outcome

variable {ε : Type}

/-! ## Numbers and addresses -/

/-- `u16::from_be_bytes` of the two bytes from `i` on. -/
def u16At (bytes : Bytes) (i : Nat) : Outcome ε UInt16 := do
  let two ← slice bytes i (i + 2)
  return UInt16.ofNat (beNat two)

/-- Two bytes as a number. -/
def word (hi lo : UInt8) : UInt16 := UInt16.ofNat (beNat [hi, lo])

theorem toNat_word (hi lo : UInt8) : (word hi lo).toNat = hi.toNat * 256 + lo.toNat := by
  have hhi := hi.toNat_lt
  have hlo := lo.toNat_lt
  have hvalue : beNat [hi, lo] = hi.toNat * 256 + lo.toNat := by
    show (0 * 256 + hi.toNat) * 256 + lo.toNat = _
    omega
  rw [word, UInt16.toNat_ofNat', hvalue]
  omega

theorem u16At_of_getElem? {bytes : Bytes} {i : Nat} {hi lo : UInt8} (h₀ : bytes[i]? = some hi)
    (h₁ : bytes[i + 1]? = some lo) : (u16At bytes i : Outcome ε _) = .ok (word hi lo) := by
  obtain ⟨hlt₀, rfl⟩ := List.getElem?_eq_some_iff.mp h₀
  obtain ⟨hlt₁, rfl⟩ := List.getElem?_eq_some_iff.mp h₁
  have htwo : (bytes.drop i).take (i + 2 - i) = [bytes[i], bytes[i + 1]] := by
    rw [List.drop_eq_getElem_cons hlt₀, List.drop_eq_getElem_cons hlt₁, Nat.add_sub_cancel_left]
    rfl
  unfold u16At slice
  rw [if_pos ⟨by omega, by omega⟩, htwo]
  rfl

/-- `u32::from_be_bytes` of the four bytes from `i` on. -/
def u32At (bytes : Bytes) (i : Nat) : Outcome ε UInt32 := do
  let four ← slice bytes i (i + 4)
  return UInt32.ofNat (beNat four)

theorem u32At_of_getElem? {bytes : Bytes} {i : Nat} {a b c d : UInt8} (h₀ : bytes[i]? = some a)
    (h₁ : bytes[i + 1]? = some b) (h₂ : bytes[i + 2]? = some c) (h₃ : bytes[i + 3]? = some d) :
    (u32At bytes i : Outcome ε _) = .ok (UInt32.ofNat (beNat [a, b, c, d])) := by
  obtain ⟨hlt₀, rfl⟩ := List.getElem?_eq_some_iff.mp h₀
  obtain ⟨hlt₁, rfl⟩ := List.getElem?_eq_some_iff.mp h₁
  obtain ⟨hlt₂, rfl⟩ := List.getElem?_eq_some_iff.mp h₂
  obtain ⟨hlt₃, rfl⟩ := List.getElem?_eq_some_iff.mp h₃
  have hfour : (bytes.drop i).take (i + 4 - i) = [bytes[i], bytes[i + 1], bytes[i + 2], bytes[i + 3]] := by
    rw [List.drop_eq_getElem_cons hlt₀, List.drop_eq_getElem_cons hlt₁, List.drop_eq_getElem_cons hlt₂,
      List.drop_eq_getElem_cons hlt₃, Nat.add_sub_cancel_left]
    rfl
  unfold u32At slice
  rw [if_pos ⟨by omega, by omega⟩, hfour]
  rfl

theorem u32OfNat_beBytes (x : UInt32) : UInt32.ofNat (beNat (beBytes 4 x.toNat)) = x := by
  rw [beNat_beBytes x.toNat_lt, UInt32.ofNat_toNat]

theorem beBytes_u32OfNat {bytes : Bytes} (h : bytes.length = 4) :
    beBytes 4 (UInt32.ofNat (beNat bytes)).toNat = bytes := by
  have hlt : beNat bytes < 2 ^ 32 := by
    have hlt := beNat_lt bytes
    rw [h] at hlt
    exact hlt
  rw [UInt32.toNat_ofNat', Nat.mod_eq_of_lt hlt, ← h, beBytes_beNat]

/-- The three bytes from `i` on as a number. -/
def u24At (bytes : Bytes) (i : Nat) : Outcome ε UInt32 := do
  let three ← slice bytes i (i + 3)
  return UInt32.ofNat (beNat three)

def ipv4At (bytes : Bytes) (i : Nat) : Outcome ε Ipv4Addr := do
  let four ← slice bytes i (i + 4)
  return BitVec.ofNat 32 (beNat four)

def ipv6At (bytes : Bytes) (i : Nat) : Outcome ε Ipv6Addr := do
  let sixteen ← slice bytes i (i + 16)
  return BitVec.ofNat 128 (beNat sixteen)

theorem returns_u16At {bytes : Bytes} {i : Nat} (h : i + 2 ≤ bytes.length) :
    Returns (fun _ => True) (u16At bytes i : Outcome ε _) :=
  (returns_slice (Nat.le_add_right i 2) h).bind fun _ _ => returns_ok trivial

theorem returns_u24At {bytes : Bytes} {i : Nat} (h : i + 3 ≤ bytes.length) :
    Returns (fun _ => True) (u24At bytes i : Outcome ε _) :=
  (returns_slice (Nat.le_add_right i 3) h).bind fun _ _ => returns_ok trivial

theorem returns_u32At {bytes : Bytes} {i : Nat} (h : i + 4 ≤ bytes.length) :
    Returns (fun _ => True) (u32At bytes i : Outcome ε _) :=
  (returns_slice (Nat.le_add_right i 4) h).bind fun _ _ => returns_ok trivial

theorem returns_ipv4At {bytes : Bytes} {i : Nat} (h : i + 4 ≤ bytes.length) :
    Returns (fun _ => True) (ipv4At bytes i : Outcome ε _) :=
  (returns_slice (Nat.le_add_right i 4) h).bind fun _ _ => returns_ok trivial

section Held

variable {bytes piece : Bytes} {k : Nat}

theorem ipv4At_of_holds (h : Holds bytes k piece) (hlen : piece.length = 4) :
    (ipv4At bytes k : Outcome ε _) = .ok (BitVec.ofNat 32 (beNat piece)) := by
  unfold ipv4At
  rw [← hlen, h.slice]
  rfl

theorem ipv6At_of_holds (h : Holds bytes k piece) (hlen : piece.length = 16) :
    (ipv6At bytes k : Outcome ε _) = .ok (BitVec.ofNat 128 (beNat piece)) := by
  unfold ipv6At
  rw [← hlen, h.slice]
  rfl

theorem u32At_of_holds (h : Holds bytes k piece) (hlen : piece.length = 4) :
    (u32At bytes k : Outcome ε _) = .ok (UInt32.ofNat (beNat piece)) := by
  unfold u32At
  rw [← hlen, h.slice]
  rfl

end Held

/-- The two bytes from `offset` on, where there are two. -/
def readU16 (bytes : Bytes) (offset : Nat) : Option UInt16 :=
  (getRange bytes offset (offset + 2)).map fun two => UInt16.ofNat (beNat two)

/-- `as_chunks::<n>().0`: the whole chunks of `n` bytes; what is left behind them is not one. -/
def asChunks (n : Nat) (bytes : Bytes) : List Bytes :=
  (List.range (bytes.length / n)).map fun i => (bytes.drop (i * n)).take n

/-- An IPv4 address of which only the first octets are given; the others are zero. -/
def ipv4OfSignificant (octets : Bytes) : Outcome ε Ipv4Addr := do
  let raw ← copyInto [0, 0, 0, 0] 0 octets.length octets
  return BitVec.ofNat 32 (beNat raw)

/-- An IPv6 address of which only the first octets are given. -/
def ipv6OfSignificant (octets : Bytes) : Outcome ε Ipv6Addr := do
  let raw ← copyInto (List.replicate 16 0) 0 octets.length octets
  return BitVec.ofNat 128 (beNat raw)

/-- An address of which only the first octets are given. -/
def significant4 (octets : Bytes) : Ipv4Addr :=
  BitVec.ofNat 32 (beNat (octets ++ List.replicate (4 - octets.length) 0))

def significant6 (octets : Bytes) : Ipv6Addr :=
  BitVec.ofNat 128 (beNat (octets ++ List.replicate (16 - octets.length) 0))

theorem ipv4OfSignificant_eq {octets : Bytes} (h : octets.length ≤ 4) :
    (ipv4OfSignificant octets : Outcome ε _) = .ok (significant4 octets) := by
  have hdrop : List.drop octets.length [0, 0, 0, 0] = List.replicate (4 - octets.length) (0 : UInt8) := by
    rw [← List.drop_replicate]
    rfl
  unfold ipv4OfSignificant copyInto
  rw [if_pos ⟨Nat.zero_le _, h, rfl⟩, hdrop]
  rfl

theorem ipv6OfSignificant_eq {octets : Bytes} (h : octets.length ≤ 16) :
    (ipv6OfSignificant octets : Outcome ε _) = .ok (significant6 octets) := by
  unfold ipv6OfSignificant copyInto
  rw [if_pos ⟨Nat.zero_le _, by rw [List.length_replicate]; exact h, rfl⟩, List.drop_replicate]
  rfl

/-- The octets a prefix length of `n` bits needs. -/
def significantOctets (n : Nat) : Nat := (n + 7) / 8

/-- The network of an address and a mask, if the mask is one. -/
def maskedNet (address mask : Ipv4Addr) : Option IpNet := do
  let bits ← contiguousPrefixLen mask
  let net ← Ipv4Net.new address bits
  return net.trunc.toNet

def formatMac (bytes : Bytes) : Text := List.intercalate [':'] (bytes.map hexByte)

/-- The pieces of a hardware address are the digits of its octets. -/
theorem split_formatMac {bytes : Bytes} (h : bytes ≠ []) : Text.split ':' (formatMac bytes) = bytes.map hexByte := by
  refine List.splitOn_intercalate ':' (fun piece hp => ?_) (by simpa using h)
  obtain ⟨b, -, rfl⟩ := List.mem_map.mp hp
  exact fun hc => forall_mem_hexByte (P := (· ≠ ':')) (by decide) b ':' hc rfl

theorem formatMac_injective : Function.Injective formatMac := by
  have hcons : ∀ b bytes, formatMac (b :: bytes) ≠ [] := fun b bytes hnil => by
    have hpieces := split_formatMac (List.cons_ne_nil b bytes)
    rw [hnil, List.map_cons] at hpieces
    exact absurd (congrArg List.head? hpieces) (by simp [Text.split, hexByte])
  intro a b h
  cases a with
  | nil =>
    cases b with
    | nil => rfl
    | cons b bytes => exact absurd h.symm (hcons b bytes)
  | cons a bytes =>
    cases b with
    | nil => exact absurd h (hcons a bytes)
    | cons b bytes' =>
      have hsplit := congrArg (Text.split ':') h
      rw [split_formatMac (List.cons_ne_nil _ _), split_formatMac (List.cons_ne_nil _ _)] at hsplit
      exact List.map_injective_iff.mpr (fun _ _ => hexByte_inj) hsplit

/-- A hardware address is written with lower-case digits and colons. -/
theorem forall_mem_formatMac {P : Char → Prop} (hdigits : ∀ n < 16, P (Nat.digitChar n)) (hcolon : P ':')
    (bytes : Bytes) :
    ∀ c ∈ formatMac bytes, P c := by
  intro c hc
  unfold formatMac at hc
  induction bytes with
  | nil => cases hc
  | cons b bytes ih =>
    cases bytes with
    | nil =>
      rw [List.map_cons, List.map_nil, List.intercalate_singleton] at hc
      exact forall_mem_hexByte hdigits b c hc
    | cons b' bytes =>
      rw [List.map_cons, List.map_cons, List.intercalate_cons_cons, List.mem_append, List.mem_append] at hc
      rcases hc with (hc | hc) | hc
      · exact forall_mem_hexByte hdigits b c hc
      · rw [List.mem_singleton.mp hc]
        exact hcolon
      · exact ih hc

theorem toAsciiLowercase_formatMac (bytes : Bytes) : (formatMac bytes).toAsciiLowercase = formatMac bytes := by
  have hlower := forall_mem_formatMac (P := fun c => c.toLower = c) (by decide) (by decide) bytes
  exact (List.map_congr_left hlower).trans (List.map_id _)

/-! ## Checksums -/

/-- `+` of two words; a panic on overflow. -/
def addU32 (a b : UInt32) : Outcome ε UInt32 := if a.toNat + b.toNat < UInt32.size then .ok (a + b) else .panic

/-- Adds the big-endian words of a byte string to a sum; a last odd byte is the high byte of a word. -/
def addWords : Bytes → UInt32 → Outcome ε UInt32
  | hi :: lo :: rest, sum => do
    let sum ← addU32 sum (UInt32.ofNat (beNat [hi, lo]))
    addWords rest sum
  | [last], sum => addU32 sum (UInt32.ofNat (beNat [last, 0]))
  | [], sum => .ok sum

/-- Adds the carries back in until none is left; two turns are enough for a word, and the third sees it. -/
def foldCarries (sum : UInt32) : Outcome ε UInt32 :=
  loop (fun sum : UInt32 =>
    if sum >>> 16 ≠ 0 then do
      let folded ← addU32 (sum &&& 0xffff) (sum >>> 16)
      return .next folded
    else return .done sum) 3 sum

/-- The one's-complement sum every IP-family protocol uses. -/
def internetChecksum (data : Bytes) : Outcome ε UInt16 := do
  let sum ← addWords data 0
  let folded ← foldCarries sum
  return ~~~ folded.toUInt16

/-- The internet checksum over an ICMPv6 message and its IPv6 pseudo-header. -/
def icmpv6Checksum (source destination : Ipv6Addr) (message : Bytes) : Outcome ε UInt16 := do
  let sum ← addWords (beBytes 16 source.toNat) 0
  let sum ← addWords (beBytes 16 destination.toNat) sum
  let sum ← addWords (beBytes 4 message.length) sum
  -- Three zero bytes, then the next-header value for ICMPv6.
  let sum ← addWords [0, 0, 0, 58] sum
  let sum ← addWords message sum
  let folded ← foldCarries sum
  return ~~~ folded.toUInt16

end Idnx
