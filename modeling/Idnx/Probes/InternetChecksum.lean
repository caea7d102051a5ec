import Idnx.Probes.Checksum

/-!
# The Internet checksum

The checksum of a byte string is the complement of the one's-complement sum of its words, a last odd byte being the
high byte of a word (`rfc1071`). Both implementations compute it, of messages of up to 65535 bytes without an overflow
on the way (`internetChecksum_eq`, `icmpv6Checksum_eq_rfc`); that of ICMPv6 takes it over the pseudo-header and the
message. A message verifies if its checksum is zero: it does once the checksum is stored in its zeroed field
(`rfc1071_store`), and no longer when one of its words is altered, zero and all ones being one word
(`rfc1071_alter`).
-/

namespace Idnx

open Outcome

variable {ε : Type}

/-! ## Words -/

/-- The big-endian words of a byte string. -/
def wordsOf : Bytes → List Nat
  | hi :: lo :: rest => (hi.toNat * 256 + lo.toNat) :: wordsOf rest
  | [last] => [last.toNat * 256]
  | [] => []

theorem sum_wordsOf (bytes : Bytes) : (wordsOf bytes).sum = sumOfWords bytes := by
  fun_induction wordsOf bytes with
  | case1 hi lo rest ih => rw [List.sum_cons, ih, sumOfWords]
  | case2 last => rw [List.sum_singleton, sumOfWords]
  | case3 => rfl

theorem wordsOf_le (bytes : Bytes) : ∀ w ∈ wordsOf bytes, w ≤ 65535 := by
  fun_induction wordsOf bytes with
  | case1 hi lo rest ih =>
    have hhi := hi.toNat_lt
    have hlo := lo.toNat_lt
    exact List.forall_mem_cons.mpr ⟨by omega, ih⟩
  | case2 last =>
    have hlast := last.toNat_lt
    exact List.forall_mem_singleton.mpr (by omega)
  | case3 => exact nofun

/-- The bytes of a word are that word. -/
theorem sumOfWords_beBytes (x : UInt16) : sumOfWords (beBytes 2 x.toNat) = x.toNat := by
  have hback : beNat (beBytes 2 x.toNat) = x.toNat := beNat_beBytes x.toNat_lt
  have hlen := length_beBytes 2 x.toNat
  match hbytes : beBytes 2 x.toNat, hlen with
  | [hi, lo], _ =>
    rw [hbytes] at hback
    have hword : beNat [hi, lo] = (0 * 256 + hi.toNat) * 256 + lo.toNat := rfl
    rw [sumOfWords, sumOfWords]
    omega

/-! ## The checksum -/

/-- The complement of the one's-complement sum of the words. -/
def rfc1071 (data : Bytes) : UInt16 := UInt16.ofNat (65535 - onesSum 65535 (wordsOf data))

theorem toNat_rfc1071 (data : Bytes) : (rfc1071 data).toNat = 65535 - onesSum 65535 (wordsOf data) :=
  UInt16.toNat_ofNat_of_lt' (show _ < 65536 by omega)

theorem reduces_wordsOf (data : Bytes) : Reduces 65535 (sumOfWords data) (onesSum 65535 (wordsOf data)) :=
  sum_wordsOf data ▸ reduces_onesSum (wordsOf_le data)

/-- A byte string verifies if its words add up to all ones. -/
theorem rfc1071_eq_zero_iff (data : Bytes) : rfc1071 data = 0 ↔ Reduces 65535 (sumOfWords data) 65535 := by
  have hsum := reduces_wordsOf data
  have hle := hsum.le
  rw [← UInt16.toNat_inj, toNat_rfc1071, show (0 : UInt16).toNat = 0 from rfl]
  constructor
  · intro h
    rwa [show onesSum 65535 (wordsOf data) = 65535 by omega] at hsum
  · intro h
    rw [hsum.unique h]

/-- The word a sum was folded to, complemented, is the checksum. -/
theorem complement_eq_rfc {data : Bytes} {folded : UInt32} (h : Reduces 65535 (sumOfWords data) folded.toNat) :
    ~~~ folded.toUInt16 = rfc1071 data := by
  have hle := h.le
  have hword : folded.toUInt16.toNat = folded.toNat := by
    rw [UInt32.toNat_toUInt16]
    exact Nat.mod_eq_of_lt (by omega)
  rw [← UInt16.toNat_inj, toNat_rfc1071, ← h.unique (reduces_wordsOf data), UInt16.toNat_not, hword]
  rfl

/-- **A sum that does not overflow is folded to the checksum.** -/
theorem fold_eq_rfc {data : Bytes} (hfits : sumOfWords data < 2 ^ 32) :
    (do
      let sum ← addWords data 0
      let folded ← foldCarries sum
      return ~~~ folded.toUInt16 : Outcome ε UInt16) = .ok (rfc1071 data) := by
  have hsum : (0 : UInt32).toNat + sumOfWords data = sumOfWords data := Nat.zero_add _
  rw [addWords_eq, hsum, if_pos hfits, ok_bind]
  obtain ⟨folded, hfolded, hreduces⟩ := returns_foldCarries (ε := ε) (UInt32.ofNat (sumOfWords data))
  rw [UInt32.toNat_ofNat_of_lt' hfits] at hreduces
  rw [hfolded, ok_bind, complement_eq_rfc hreduces]
  rfl

theorem internetChecksum_eq {data : Bytes} (h : data.length ≤ 65535) :
    (internetChecksum data : Outcome ε _) = .ok (rfc1071 data) := by
  have hsum := sumOfWords_le data
  exact fold_eq_rfc (by omega)

theorem length_pseudoHeader (source destination : Ipv6Addr) (length : Nat) :
    (pseudoHeader source destination length).length = 40 := by
  simp [pseudoHeader]

theorem icmpv6Checksum_eq_rfc (source destination : Ipv6Addr) {message : Bytes} (h : message.length ≤ 65535) :
    (icmpv6Checksum source destination message : Outcome ε _) =
      .ok (rfc1071 (pseudoHeader source destination message.length ++ message)) := by
  have hsum := sumOfWords_le (pseudoHeader source destination message.length ++ message)
  rw [List.length_append, length_pseudoHeader] at hsum
  rw [icmpv6Checksum_eq]
  exact fold_eq_rfc (by omega)

/-! ## Storing and altering -/

/-- One word of the message is another one, and the two are not zero and all ones. -/
structure Altered (message message' : Bytes) : Prop where
  length_eq : message'.length = message.length
  exchange : ∃ k w w', (wordsOf message)[k]? = some w ∧ wordsOf message' = (wordsOf message).set k w' ∧ w ≠ w' ∧
    ¬ (w = 0 ∧ w' = 0xFFFF) ∧ ¬ (w = 0xFFFF ∧ w' = 0)

variable {front before after message message' : Bytes}

/-- **A message verifies once its checksum is stored** in the field that was zero. -/
theorem rfc1071_store (hfront : front.length % 2 = 0) (hbefore : before.length % 2 = 0) :
    rfc1071 (front ++ (before ++ beBytes 2 (rfc1071 (front ++ (before ++ [0, 0] ++ after))).toNat ++ after)) = 0 := by
  have hsum : ∀ word : Bytes, word.length = 2 → sumOfWords (front ++ (before ++ word ++ after)) =
      sumOfWords front + (sumOfWords before + sumOfWords word + sumOfWords after) := by
    intro word hword
    rw [sumOfWords_append _ _ hfront, sumOfWords_append _ _ (by rw [List.length_append]; omega),
      sumOfWords_append _ _ hbefore]
  have hzero := hsum [0, 0] rfl
  rw [show sumOfWords [0, 0] = 0 from rfl] at hzero
  have hreduces := (reduces_wordsOf (front ++ (before ++ [0, 0] ++ after))).add_complement (by decide)
  rw [← toNat_rfc1071, hzero] at hreduces
  rw [rfc1071_eq_zero_iff, hsum _ (length_beBytes _ _), sumOfWords_beBytes]
  convert hreduces using 1
  omega

/-- **An altered message does not verify.** -/
theorem rfc1071_alter (hfront : front.length % 2 = 0) (h : Altered message message')
    (hverifies : rfc1071 (front ++ message) = 0) : rfc1071 (front ++ message') ≠ 0 := by
  obtain ⟨k, w, w', hk, hset, hne, hup, hdown⟩ := h.exchange
  obtain ⟨a, hsum, hsum'⟩ := exists_sum_set hk w'
  rw [sum_wordsOf] at hsum
  rw [← hset, sum_wordsOf] at hsum'
  have hw : w ≤ 65535 := wordsOf_le _ _ (List.mem_of_getElem? hk)
  have hw' : w' ≤ 65535 := wordsOf_le message' _ (hset ▸ List.mem_set (List.getElem?_eq_some_iff.mp hk).1 w')
  rw [rfc1071_eq_zero_iff, sumOfWords_append _ _ hfront, hsum, ← Nat.add_assoc] at hverifies
  rw [Ne, rfc1071_eq_zero_iff, sumOfWords_append _ _ hfront, hsum', ← Nat.add_assoc]
  exact not_reduces_of_exchange (by decide) hw hw' hne hup hdown hverifies

/-- **Both checksums are that of RFC 1071**, of every message of up to 65535 bytes. Storing it makes a message verify,
and altering one word of a message that verifies is noticed. -/
theorem internet_checksums (source destination : Ipv6Addr) {message : Bytes} (h : message.length ≤ 65535) :
    (internetChecksum message : Outcome ε _) = .ok (rfc1071 message) ∧
      (icmpv6Checksum source destination message : Outcome ε _) =
        .ok (rfc1071 (pseudoHeader source destination message.length ++ message)) ∧
      (∀ before after, message = before ++ [0, 0] ++ after → before.length % 2 = 0 →
        (∃ checksum : UInt16, (internetChecksum message : Outcome ε _) = .ok checksum ∧
          (internetChecksum (before ++ beBytes 2 checksum.toNat ++ after) : Outcome ε _) = .ok 0) ∧
        ∃ checksum : UInt16, (icmpv6Checksum source destination message : Outcome ε _) = .ok checksum ∧
          (icmpv6Checksum source destination (before ++ beBytes 2 checksum.toNat ++ after) : Outcome ε _) = .ok 0) ∧
      ∀ message', Altered message message' →
        ((internetChecksum message : Outcome ε _) = .ok 0 → (internetChecksum message' : Outcome ε _) ≠ .ok 0) ∧
        ((icmpv6Checksum source destination message : Outcome ε _) = .ok 0 →
          (icmpv6Checksum source destination message' : Outcome ε _) ≠ .ok 0) := by
  have heven : ∀ n, (pseudoHeader source destination n).length % 2 = 0 := fun n => by rw [length_pseudoHeader]
  refine ⟨internetChecksum_eq h, icmpv6Checksum_eq_rfc source destination h, fun before after hfield hbefore => ?_,
    fun message' halter => ?_⟩
  · subst hfield
    have hlen : ∀ word : Bytes, word.length = 2 →
        (before ++ word ++ after).length = (before ++ [0, 0] ++ after).length := by
      intro word hword
      simp only [List.length_append, hword, List.length_cons, List.length_nil]
    refine ⟨⟨_, internetChecksum_eq h, ?_⟩, ⟨_, icmpv6Checksum_eq_rfc source destination h, ?_⟩⟩
    · rw [internetChecksum_eq (by rw [hlen _ (length_beBytes _ _)]; exact h)]
      exact congrArg Outcome.ok (@rfc1071_store [] before after rfl hbefore)
    · rw [icmpv6Checksum_eq_rfc _ _ (by rw [hlen _ (length_beBytes _ _)]; exact h), hlen _ (length_beBytes _ _),
        rfc1071_store (heven _) hbefore]
  · have h' : message'.length ≤ 65535 := halter.length_eq ▸ h
    constructor
    · intro hok
      rw [internetChecksum_eq h, Outcome.ok.injEq] at hok
      rw [internetChecksum_eq h', Ne, Outcome.ok.injEq]
      exact @rfc1071_alter [] message message' rfl halter hok
    · intro hok
      rw [icmpv6Checksum_eq_rfc _ _ h, Outcome.ok.injEq] at hok
      rw [icmpv6Checksum_eq_rfc _ _ h', Ne, Outcome.ok.injEq, halter.length_eq]
      exact rfc1071_alter (heven _) halter hok

/-- An odd message, the checksum field behind its first word. -/
theorem internet_checksums_odd : ([8, 0, 0, 0, 0xFF] : Bytes).length ≤ 65535 ∧
    (internetChecksum [8, 0, 0, 0, 0xFF] : Outcome Unit _) = .ok (rfc1071 [8, 0, 0, 0, 0xFF]) ∧
    rfc1071 [8, 0, 0, 0, 0xFF] = 0xF8FE :=
  ⟨by decide, (internet_checksums 0 1 (by decide)).1, by decide⟩

end Idnx
