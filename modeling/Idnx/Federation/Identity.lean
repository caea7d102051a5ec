import Idnx.Lib.Framing
import Idnx.Lib.Text
import Mathlib.Tactic.Common

/-!
# Peer identity

A peer is its public key: thirty-two bytes the signature library accepts, written as sixty-four hexadecimal digits on
the wire and in every table of the program. The library is a parameter, `Ed25519`: which bytes are a key, and which
signatures are good. Two peers with one text are one peer (`PeerId.toHex_inj`), and a key read back from its text is
the key that was written (`PeerId.fromHex_toHex`).
-/

namespace Idnx

/-! ## Hexadecimal text -/

def nibble (b : UInt8) : Option UInt8 :=
  if 48 ≤ b ∧ b ≤ 57 then some (b - 48)
  else if 97 ≤ b ∧ b ≤ 102 then some (b - 97 + 10)
  else if 65 ≤ b ∧ b ≤ 70 then some (b - 65 + 10)
  else none

/-- The bytes of the pairs of digits; a last odd digit is not looked at. -/
def decodePairs : Bytes → Option Bytes
  | hi :: lo :: rest => do
    let h ← nibble hi
    let l ← nibble lo
    let bytes ← decodePairs rest
    return (h <<< 4 ||| l) :: bytes
  | _ => some []

/-- Decodes over bytes rather than characters: text off the wire may hold any character. -/
def decodeHex (text : Text) : Option Bytes :=
  if text.asBytes.length % 2 = 0 then decodePairs text.asBytes else none

/-- A digit is one ASCII character, and `nibble` reads it. -/
theorem nibble_digitChar {d : Nat} (hd : d < 16) :
    ∃ x, String.utf8EncodeChar (Nat.digitChar d) = [x] ∧ nibble x = some (UInt8.ofNat d) := by
  have key : ∀ d : Fin 16, String.utf8EncodeChar (Nat.digitChar d) =
      [(String.utf8EncodeChar (Nat.digitChar d)).headD 0] ∧
      nibble ((String.utf8EncodeChar (Nat.digitChar d)).headD 0) = some (UInt8.ofNat d) := by decide
  exact ⟨_, key ⟨d, hd⟩⟩

/-- A byte is put together from its halves. -/
theorem shiftLeft_or_halves (b : UInt8) : UInt8.ofNat (b.toNat / 16) <<< 4 ||| UInt8.ofNat (b.toNat % 16) = b := by
  have key : ∀ hi lo : Fin 16, UInt8.ofNat hi <<< 4 ||| UInt8.ofNat lo = UInt8.ofNat (16 * hi + lo) := by decide
  have hb := b.toNat_lt
  have hhalves := key ⟨b.toNat / 16, by omega⟩ ⟨b.toNat % 16, by omega⟩
  rw [hhalves, Nat.div_add_mod, UInt8.ofNat_toNat]

/-- The digits of one byte are two ASCII characters that read back as the byte. -/
theorem asBytes_hexByte (b : UInt8) :
    ∃ hi lo h l, Text.asBytes (hexByte b) = [hi, lo] ∧ nibble hi = some h ∧ nibble lo = some l ∧
    h <<< 4 ||| l = b := by
  have hb : b.toNat < 256 := b.toNat_lt
  obtain ⟨hi, hhi, hh⟩ := nibble_digitChar (d := b.toNat / 16) (by omega)
  obtain ⟨lo, hlo, hl⟩ := nibble_digitChar (d := b.toNat % 16) (by omega)
  refine ⟨hi, lo, _, _, ?_, hh, hl, shiftLeft_or_halves b⟩
  simp [Text.asBytes, hexByte, hhi, hlo]

theorem decodePairs_encodeHex (bytes : Bytes) : decodePairs (Text.asBytes (encodeHex bytes)) = some bytes := by
  induction bytes with
  | nil => rfl
  | cons b bytes ih =>
    obtain ⟨hi, lo, h, l, hb, hh, hl, hbyte⟩ := asBytes_hexByte b
    have hcons : Text.asBytes (encodeHex (b :: bytes)) = hi :: lo :: Text.asBytes (encodeHex bytes) := by
      unfold encodeHex Text.asBytes at *
      rw [List.flatMap_cons, List.flatMap_append, hb]
      rfl
    rw [hcons, decodePairs, hh, hl, ih]
    simp [hbyte]

theorem length_asBytes_encodeHex (bytes : Bytes) : (Text.asBytes (encodeHex bytes)).length = 2 * bytes.length := by
  induction bytes with
  | nil => rfl
  | cons b bytes ih =>
    obtain ⟨hi, lo, h, l, hb, -, -, -⟩ := asBytes_hexByte b
    unfold encodeHex Text.asBytes at *
    rw [List.flatMap_cons, List.flatMap_append, hb, List.length_append, ih]
    simp only [List.length_cons, List.length_nil]
    omega

theorem decodeHex_encodeHex (bytes : Bytes) : decodeHex (encodeHex bytes) = some bytes := by
  rw [decodeHex, length_asBytes_encodeHex, if_pos (by omega), decodePairs_encodeHex]

theorem encodeHex_inj {a b : Bytes} (h : encodeHex a = encodeHex b) : a = b := by
  have := congrArg decodeHex h
  rwa [decodeHex_encodeHex, decodeHex_encodeHex, Option.some.injEq] at this

/-! ## Keys -/

/-- The signature library: the keys it accepts, and whether a signature is good for a key and a message. -/
structure Ed25519 where
  validKey : Bytes → Bool
  verify : (key message signature : Bytes) → Bool

variable {crypto : Ed25519}

/-- A peer's public key. -/
structure PeerId (crypto : Ed25519) where
  bytes : Bytes
  length_eq : bytes.length = 32
  valid : crypto.validKey bytes = true
  deriving DecidableEq

inductive IdentityError where
  | malformed
  | badSignature
  deriving DecidableEq, Repr

def IdentityError.toText : IdentityError → Text
  | .malformed => "malformed peer identity"
  | .badSignature => "signature does not verify"

namespace PeerId

def toHex (peer : PeerId crypto) : Text := encodeHex peer.bytes

/-- The key with the given hexadecimal form. -/
def fromHex (text : Text) : Except IdentityError (PeerId crypto) :=
  match decodeHex text with
  | none => .error .malformed
  | some bytes =>
    if hlen : bytes.length = 32 then
      if hkey : crypto.validKey bytes = true then .ok ⟨bytes, hlen, hkey⟩ else .error .malformed
    else .error .malformed

/-- A signature is sixty-four bytes that the library accepts. -/
def verify (peer : PeerId crypto) (message signature : Bytes) : Except IdentityError Unit :=
  if signature.length = 64 ∧ crypto.verify peer.bytes message signature = true then .ok ()
  else .error .badSignature

theorem toHex_inj {p q : PeerId crypto} (h : p.toHex = q.toHex) : p = q := by
  cases p
  cases q
  cases encodeHex_inj h
  rfl

theorem fromHex_toHex (peer : PeerId crypto) : fromHex peer.toHex = .ok peer := by
  simp only [fromHex, toHex, decodeHex_encodeHex, peer.length_eq, peer.valid, dite_true]

end PeerId

/-! ## Two keys -/

def aliceKey : Bytes :=
  [0xd7, 0x5a, 0x98, 0x01, 0x82, 0xb1, 0x0a, 0xb7, 0xd5, 0x4b, 0xfe, 0xd3, 0xc9, 0x64, 0x07, 0x3a,
    0x0e, 0xe1, 0x72, 0xf3, 0xda, 0xa6, 0x23, 0x25, 0xaf, 0x02, 0x1a, 0x68, 0xf7, 0x07, 0x51, 0x1a]

def bobKey : Bytes :=
  [0x3d, 0x40, 0x17, 0xc3, 0xe8, 0x43, 0x89, 0x5a, 0x92, 0xb7, 0x0a, 0xa7, 0x4d, 0x1b, 0x7e, 0xbc,
    0x9c, 0x98, 0x2c, 0xcf, 0x2e, 0xc4, 0x96, 0x8c, 0xc0, 0xcd, 0x55, 0xf1, 0x2a, 0xf4, 0x66, 0x0c]

theorem length_aliceKey : aliceKey.length = 32 := rfl

theorem length_bobKey : bobKey.length = 32 := rfl

end Idnx
