import Idnx.Probes.SnmpV3

/-!
# Two readers of one grammar

`Reader.tlv` reads an element of a container it was handed; `readTlv` reads one at a place of the whole message, up to
a limit. Given the container that ends at the limit, they read the same elements (`readers_agree`).
-/

namespace Idnx

open Outcome

/-- What a `Reader` of the bytes before `limit` reads at `start`. There is no such reader if the bytes end
before it. -/
def readInContainer (bytes : Bytes) (start limit : Nat) (what : Text) : Outcome Text ((UInt8 × Reader) × Reader) := do
  let container ← okOr (getRange bytes 0 limit) (what ++ ": there is no such container")
  Reader.tlv ⟨container, start⟩ what

/-- An element that was located in `bytes` and one that a reader has found are the same. -/
structure SameElement (bytes : Bytes) (tlv : Tlv) (found : (UInt8 × Reader) × Reader) : Prop where
  tag : tlv.tag = found.1.1
  /-- The contents are a reader's, at its start, and they are what lies in the range. -/
  contents : getRange bytes tlv.content.start tlv.content.stop = some found.1.2.bytes
  start : found.1.2.cursor = 0
  /-- The range ends, and the next element begins, where the reader has got to. -/
  stop : tlv.content.stop = found.2.cursor
  next : tlv.stop = found.2.cursor

section Agree

variable {bytes : Bytes} {start limit : Nat}

/-- A range inside the container is the same range of the whole. -/
theorem getRange_take (hlimit : limit ≤ bytes.length) {lo hi : Nat} (h : lo ≤ hi) :
    getRange (bytes.take limit) lo hi = if hi ≤ limit then getRange bytes lo hi else none := by
  unfold getRange
  rw [List.length_take, Nat.min_eq_left hlimit]
  by_cases hhi : hi ≤ limit
  · rw [if_pos ⟨h, hhi⟩, if_pos hhi, if_pos ⟨h, by omega⟩, List.drop_take, List.take_take,
      Nat.min_eq_left (by omega)]
  · rw [if_neg (fun hboth => hhi hboth.2), if_neg hhi]

/-- The lengths they read, and where these end. -/
theorem alike_length (hstart : start < limit) (hlimit : limit ≤ bytes.length) (what what' : Text) :
    Alike (fun read found => found = (read.1, (⟨bytes.take limit, read.2⟩ : Reader)) ∧ start < read.2 ∧
    read.2 ≤ limit)
      (readLength bytes start limit what) (Reader.length ⟨bytes.take limit, start⟩ what') := by
  obtain ⟨first, hfirst⟩ : ∃ first, bytes[start]? = some first := ⟨_, List.getElem?_eq_getElem (by omega)⟩
  unfold readLength Reader.length
  simp only [index, hfirst, List.getElem?_take_of_lt hstart, okOr_some, ok_bind]
  by_cases hshort : first &&& 0x80 = 0
  · rw [if_pos hshort, if_pos hshort]
    exact ⟨rfl, by omega, by omega⟩
  · rw [if_neg hshort, if_neg hshort]
    by_cases hcount : (first &&& 0x7F).toNat = 0 ∨ (first &&& 0x7F).toNat > 4
    · rw [if_pos hcount, require, if_neg (not_not.mpr hcount), err_bind]
      trivial
    · rw [if_neg hcount, require_of hcount, ok_bind]
      generalize (first &&& 0x7F).toNat = count at hcount
      rw [getRange_take hlimit (Nat.le_add_right _ _)]
      by_cases hfits : start + 1 + count ≤ limit
      · have hrange : getRange bytes (start + 1) (start + 1 + count) = some
          ((bytes.drop (start + 1)).take count) := by
          unfold getRange
          rw [if_pos ⟨by omega, by omega⟩, Nat.add_sub_cancel_left]
        have hslice : (slice bytes (start + 1) (start + 1 + count) : Outcome Text Bytes) =
            .ok ((bytes.drop (start + 1)).take count) := by
          unfold slice
          rw [if_pos ⟨by omega, by omega⟩, Nat.add_sub_cancel_left]
        rw [require_of hfits, ok_bind, if_pos hfits, hrange, okOr_some, ok_bind, hslice, ok_bind]
        cases ((bytes.drop (start + 1)).take count).foldlM lengthStep 0 with
        | none => trivial
        | some len => exact ⟨rfl, by dsimp only; omega, hfits⟩
      · rw [require, if_neg hfits, if_neg hfits, err_bind]
        trivial

end Agree

/-- **The readers agree**: at every place and for every limit they both refuse, or both read the same element. -/
theorem readers_agree (bytes : Bytes) (start limit : Nat) (what what' : Text) :
    Alike (SameElement bytes) (readTlv bytes start limit what) (readInContainer bytes start limit what') := by
  unfold readTlv readInContainer
  by_cases hlimit : limit ≤ bytes.length
  · have hcontainer : getRange bytes 0 limit = some (bytes.take limit) := by
      unfold getRange
      rw [if_pos ⟨Nat.zero_le _, hlimit⟩, List.drop_zero, Nat.sub_zero]
    rw [hcontainer, okOr_some, ok_bind, Reader.tlv]
    by_cases hstart : start < limit
    · obtain ⟨tag, htag⟩ : ∃ tag, bytes[start]? = some tag := ⟨_, List.getElem?_eq_getElem (by omega)⟩
      rw [require_of ⟨hstart, hlimit⟩, ok_bind]
      simp only [index, htag, List.getElem?_take_of_lt hstart, okOr_some, ok_bind]
      by_cases hlength : start + 1 < limit
      · rw [require_of hlength, ok_bind]
        refine alike_bind (alike_length hlength hlimit what what') fun read found hfound => ?_
        obtain ⟨length, cursor⟩ := read
        obtain ⟨rfl, -, hcursor⟩ := hfound
        dsimp only
        by_cases hword : cursor + length < 2 ^ 64
        · rw [if_pos hword, okOr_some, okOr_some, ok_bind, ok_bind, getRange_take hlimit (Nat.le_add_right _ _)]
          by_cases hstop : cursor + length ≤ limit
          · have hrange : getRange bytes cursor (cursor + length) = some ((bytes.drop cursor).take length) := by
              unfold getRange
              rw [if_pos ⟨by omega, by omega⟩, Nat.add_sub_cancel_left]
            rw [require_of hstop, ok_bind, if_pos hstop, hrange]
            exact ⟨rfl, hrange, rfl, rfl, rfl⟩
          · have hremaining : (Reader.remaining ⟨bytes.take limit, cursor⟩ : Outcome Text Nat) = .ok
              (limit - cursor) := by
              unfold Reader.remaining
              rw [List.length_take, Nat.min_eq_left hlimit, if_pos hcursor]
            rw [require, if_neg hstop, err_bind, if_neg hstop]
            dsimp only
            rw [hremaining, ok_bind]
            trivial
        · rw [if_neg hword, okOr_none, okOr_none, err_bind, err_bind]
          trivial
      · -- the container ends before the length
        have hnone : (bytes.take limit)[start + 1]? = none := by
          rw [List.getElem?_eq_none_iff, List.length_take]
          omega
        rw [require, if_neg hlength, err_bind, Reader.length]
        dsimp only
        rw [hnone, okOr_none, err_bind, err_bind]
        trivial
    · have hnone : (bytes.take limit)[start]? = none := by
        rw [List.getElem?_eq_none_iff, List.length_take]
        omega
      dsimp only
      rw [require, if_neg (fun h => hstart h.1), err_bind, hnone, okOr_none, err_bind]
      trivial
  · have hnone : getRange bytes 0 limit = none := by
      unfold getRange
      rw [if_neg fun h => hlimit h.2]
    rw [require, if_neg (fun h => hlimit h.2), err_bind, hnone, okOr_none, err_bind]
    trivial

end Idnx
