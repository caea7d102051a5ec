import Idnx.Lib.OnesComplement
import Idnx.Probes.Octets
import Mathlib.Data.Nat.Bitwise

/-!
# Checksums

The checksum of the IP protocols is a sum of sixteen-bit words in thirty-two bits. `addWords` panics exactly when the
sum does not fit (`addWords_eq`), and three turns are enough to fold the carries of any sum into the word that stands
for it (`returns_foldCarries`).
-/

namespace Idnx

open Outcome

variable {ε : Type}

/-! ## Checksums -/

section Checksums

/-- The sum of the big-endian words of a byte string; a last odd byte is the high byte of a word. -/
def sumOfWords : Bytes → Nat
  | hi :: lo :: rest => hi.toNat * 256 + lo.toNat + sumOfWords rest
  | [last] => last.toNat * 256
  | [] => 0

theorem sumOfWords_append (a b : Bytes) (h : a.length % 2 = 0) : sumOfWords (a ++ b) = sumOfWords a + sumOfWords b := by
  fun_induction sumOfWords a with
  | case1 hi lo rest ih =>
    rw [List.length_cons, List.length_cons] at h
    rw [List.cons_append, List.cons_append, sumOfWords, ih (by omega)]
    omega
  | case2 last => cases h
  | case3 => rw [List.nil_append, Nat.zero_add]

/-- A word is two bytes, but for the last one of an odd byte. -/
theorem sumOfWords_le (bytes : Bytes) : 2 * sumOfWords bytes ≤ 65535 * (bytes.length + 1) := by
  fun_induction sumOfWords bytes with
  | case1 hi lo rest ih =>
    have hhi := hi.toNat_lt
    have hlo := lo.toNat_lt
    rw [List.length_cons, List.length_cons]
    omega
  | case2 last =>
    have hlast := last.toNat_lt
    rw [List.length_singleton]
    omega
  | case3 => exact Nat.zero_le _

theorem addU32_eq (a : UInt32) {b : Nat} (h : b < 2 ^ 32) :
    (addU32 a (UInt32.ofNat b) : Outcome ε _) =
      if a.toNat + b < 2 ^ 32 then .ok (UInt32.ofNat (a.toNat + b)) else .panic := by
  unfold addU32
  rw [UInt32.toNat_ofNat_of_lt' h, UInt32.ofNat_add, UInt32.ofNat_toNat]
  rfl

/-- The words are added one by one, and the sum overflows somewhere if it does at the end. -/
theorem addWords_eq (bytes : Bytes) (sum : UInt32) :
    (addWords bytes sum : Outcome ε _) =
      if sum.toNat + sumOfWords bytes < 2 ^ 32 then .ok (UInt32.ofNat (sum.toNat + sumOfWords bytes)) else .panic := by
  have hword : ∀ hi lo : UInt8, beNat [hi, lo] = hi.toNat * 256 + lo.toNat := by
    intro hi lo
    show (0 * 256 + hi.toNat) * 256 + lo.toNat = _
    omega
  have hsmall : ∀ hi lo : UInt8, hi.toNat * 256 + lo.toNat < 2 ^ 32 := by
    intro hi lo
    have hhi := hi.toNat_lt
    have hlo := lo.toNat_lt
    omega
  fun_induction sumOfWords bytes generalizing sum with
  | case1 hi lo rest ih =>
    rw [addWords, hword, addU32_eq sum (hsmall hi lo)]
    split
    case isTrue hfits =>
      rw [ok_bind, ih, UInt32.toNat_ofNat_of_lt' hfits, Nat.add_assoc]
    case isFalse hover =>
      have hle := Nat.add_le_add_left (Nat.le_add_right (hi.toNat * 256 + lo.toNat) (sumOfWords rest)) sum.toNat
      rw [panic_bind, if_neg fun h => hover (Nat.lt_of_le_of_lt hle h)]
  | case2 last =>
    have hlast : beNat [last, 0] = last.toNat * 256 := (hword last 0).trans (Nat.add_zero _)
    have hlt : last.toNat * 256 < 2 ^ 32 := by simpa using hsmall last 0
    rw [addWords, hlast, addU32_eq sum hlt]
  | case3 =>
    have hlt : sum.toNat < 2 ^ 32 := sum.toNat_lt
    rw [addWords, Nat.add_zero, if_pos hlt, UInt32.ofNat_toNat]

theorem addWords_append (a b : Bytes) (h : a.length % 2 = 0) (sum : UInt32) :
    (addWords (a ++ b) sum : Outcome ε _) = addWords a sum >>= addWords b := by
  rw [addWords_eq, addWords_eq, sumOfWords_append a b h]
  split
  case isTrue hfits =>
    rw [if_pos (by omega), ok_bind, addWords_eq, UInt32.toNat_ofNat_of_lt' (show _ < 2 ^ 32 by omega),
      if_pos (by omega), Nat.add_assoc]
  case isFalse hover =>
    split
    · rw [ok_bind, addWords_eq, UInt32.toNat_ofNat_of_lt' ‹_›, if_neg (by omega)]
    · rfl

/-- **Two turns fold any sum** into the word that stands for it. -/
theorem returns_foldCarries (sum : UInt32) :
    Returns (fun folded => Reduces 65535 sum.toNat folded.toNat) (foldCarries sum : Outcome ε _) := by
  -- How many turns a sum still takes.
  let turns (s : UInt32) : Nat := if s.toNat < 65536 then 0 else if s.toNat ≤ 0x1FFFE then 1 else 2
  refine returns_loop (fun s : UInt32 => s.toNat % 65535 = sum.toNat % 65535 ∧ (s.toNat = 0 ↔ sum.toNat = 0)) turns
    (fun s hs => ?_) ⟨rfl, Iff.rfl⟩ ?_
  · obtain ⟨hmod, hzero⟩ := hs
    have hlt := s.toNat_lt
    have hhigh : (s >>> 16).toNat = s.toNat / 65536 := by
      rw [UInt32.toNat_shiftRight, show (16 : UInt32).toNat % 32 = 16 from rfl, Nat.shiftRight_eq_div_pow]
    have hlow : (s &&& 0xffff).toNat = s.toNat % 65536 := by
      rw [UInt32.toNat_and, show (0xffff : UInt32).toNat = 2 ^ 16 - 1 from rfl, Nat.and_two_pow_sub_one_eq_mod]
    split
    case isTrue hcarry =>
      have hbig : s.toNat / 65536 ≠ 0 := by
        intro hzero
        exact hcarry (UInt32.toNat_inj.mp (by rw [hhigh, hzero]; rfl))
      have hfits : (s &&& 0xffff).toNat + (s >>> 16).toNat < UInt32.size := by
        rw [hhigh, hlow, show UInt32.size = 4294967296 from rfl]
        omega
      have hnext : ((s &&& (0xffff : UInt32)) + s >>> 16).toNat = s.toNat % 65536 + s.toNat / 65536 := by
        rw [UInt32.toNat_add, hhigh, hlow]
        omega
      obtain ⟨hsame, hnothing⟩ := onesAdd_spec 65535 s.toNat 0
      have hadd : onesAdd 65535 s.toNat 0 = s.toNat % 65536 + s.toNat / 65536 := rfl
      unfold addU32
      rw [if_pos hfits, ok_bind]
      refine returns_ok ⟨⟨?_, ?_⟩, ?_⟩
      · rw [hnext, ← hadd, hsame, Nat.add_zero, hmod]
      · rw [hnext, ← hadd, hnothing, Nat.add_zero, hzero]
      · dsimp only [turns]
        rw [hnext]
        split_ifs <;> omega
    case isFalse hcarry =>
      have hsmall : s.toNat / 65536 = 0 := by
        rw [← hhigh, not_not.mp hcarry]
        rfl
      exact returns_ok ⟨by omega, hmod, hzero⟩
  · dsimp only [turns]
    split_ifs <;> omega

theorem safe_internetChecksum {data : Bytes} (h : data.length ≤ 65535) :
    Safe (fun _ => True) (internetChecksum data : Outcome ε _) := by
  have hsum := sumOfWords_le data
  unfold internetChecksum
  rw [addWords_eq, if_pos (by rw [show (0 : UInt32).toNat = 0 from rfl]; omega), ok_bind]
  exact (returns_foldCarries _).safe.bind fun folded _ => trivial

/-- What the checksum of an ICMPv6 message is taken over: the pseudo-header, and the message. -/
def pseudoHeader (source destination : Ipv6Addr) (length : Nat) : Bytes :=
  beBytes 16 source.toNat ++ beBytes 16 destination.toNat ++ beBytes 4 length ++ [0, 0, 0, 58]

theorem icmpv6Checksum_eq (source destination : Ipv6Addr) (message : Bytes) :
    (icmpv6Checksum source destination message : Outcome ε _) = do
      let sum ← addWords (pseudoHeader source destination message.length ++ message) 0
      let folded ← foldCarries sum
      return ~~~ folded.toUInt16 := by
  unfold icmpv6Checksum pseudoHeader
  rw [addWords_append _ message (by simp), addWords_append _ [0, 0, 0, 58] (by simp),
    addWords_append _ (beBytes 4 message.length) (by simp), addWords_append _ (beBytes 16 destination.toNat) (by simp)]
  simp only [bind_bind]

end Checksums

end Idnx
