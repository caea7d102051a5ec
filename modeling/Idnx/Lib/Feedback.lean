import Mathlib.Data.List.Basic

/-!
# Cipher feedback

A block function makes a stream cipher: every block of text is mixed with the image of the block of ciphertext in front
of it, the first block with the image of a start block, and the last block may be short. The function need not be
invertible: deciphering takes the same images, so each of the two undoes the other (`decipher_encipher`,
`encipher_decipher`), whatever the length of the text.
-/

namespace Idnx

/-- A block function and a mixing of symbols that undoes itself. -/
structure Feedback (α : Type*) where
  mix : α → α → α
  mix_mix : ∀ a b, mix (mix a b) b = a
  size : Nat
  image : List α → List α
  length_image : ∀ block, (image block).length = size

namespace Feedback

variable {α : Type*} (mode : Feedback α)

/-- The ciphertext of at most so many blocks of text behind the block `last`. -/
def encipher : Nat → List α → List α → List α
  | 0, _, _ => []
  | blocks + 1, last, text =>
    let block := List.zipWith mode.mix (text.take mode.size) (mode.image last)
    block ++ encipher blocks block (text.drop mode.size)

/-- The text of at most so many blocks of ciphertext behind the block `last`. -/
def decipher : Nat → List α → List α → List α
  | 0, _, _ => []
  | blocks + 1, last, cipher =>
    let block := cipher.take mode.size
    List.zipWith mode.mix block (mode.image last) ++ decipher blocks block (cipher.drop mode.size)

/-- A mixed block is as long as the block of text. -/
theorem length_mixed (text last : List α) :
    (List.zipWith mode.mix (text.take mode.size) (mode.image last)).length = (text.take mode.size).length := by
  rw [List.length_zipWith, mode.length_image, List.length_take]
  omega

/-- Mixing twice with the same image is no change. -/
theorem mixed_mixed (text last : List α) :
    List.zipWith mode.mix (List.zipWith mode.mix (text.take mode.size) (mode.image last)) (mode.image last) =
      text.take mode.size := by
  have hlen := mode.length_mixed text last
  refine List.ext_getElem ?_ fun k hk hk' => ?_
  · rw [List.length_zipWith, hlen, mode.length_image, List.length_take]
    omega
  · rw [List.getElem_zipWith, List.getElem_zipWith, mode.mix_mix]

variable {mode} {blocks : Nat} {last text : List α}

@[simp] theorem encipher_nil (blocks : Nat) (last : List α) : mode.encipher blocks last [] = [] := by
  induction blocks generalizing last with
  | zero => rfl
  | succ blocks ih =>
    rw [encipher, List.take_nil, List.drop_nil, List.zipWith_nil_left, List.nil_append]
    exact ih _

@[simp] theorem decipher_nil (blocks : Nat) (last : List α) : mode.decipher blocks last [] = [] := by
  induction blocks generalizing last with
  | zero => rfl
  | succ blocks ih =>
    rw [decipher, List.take_nil, List.drop_nil, List.zipWith_nil_left, List.nil_append]
    exact ih _

/-- A block and what comes behind it are cut where the text is: nothing comes behind a short block. -/
theorem cut_block {n : Nat} {block text : List α} (rest : List α) (hblock : block.length = (text.take n).length)
    (hrest : text.drop n = [] → rest = []) : (block ++ rest).take n = block ∧ (block ++ rest).drop n = rest := by
  rw [List.length_take] at hblock
  by_cases hshort : text.length ≤ n
  · have hnil : rest = [] := hrest (List.drop_eq_nil_of_le hshort)
    rw [hnil, List.append_nil]
    exact ⟨List.take_of_length_le (by omega), List.drop_eq_nil_of_le (by omega)⟩
  · have hlen : block.length = n := by omega
    exact ⟨List.take_left' hlen, List.drop_left' hlen⟩

/-- The ciphertext is as long as the text. -/
theorem length_encipher (hsize : 0 < mode.size) (hblocks : text.length ≤ blocks) :
    (mode.encipher blocks last text).length = text.length := by
  induction blocks generalizing last text with
  | zero =>
    rw [List.length_eq_zero_iff.mp (Nat.le_zero.mp hblocks)]
    rfl
  | succ blocks ih =>
    rw [encipher, List.length_append, length_mixed, ih (by rw [List.length_drop]; omega), List.length_take,
      List.length_drop]
    omega

theorem length_decipher (hsize : 0 < mode.size) (hblocks : text.length ≤ blocks) :
    (mode.decipher blocks last text).length = text.length := by
  induction blocks generalizing last text with
  | zero =>
    rw [List.length_eq_zero_iff.mp (Nat.le_zero.mp hblocks)]
    rfl
  | succ blocks ih =>
    rw [decipher, List.length_append, length_mixed, ih (by rw [List.length_drop]; omega), List.length_take,
      List.length_drop]
    omega

/-- **Deciphering undoes enciphering.** -/
theorem decipher_encipher (hsize : 0 < mode.size) (hblocks : text.length ≤ blocks) :
    mode.decipher blocks last (mode.encipher blocks last text) = text := by
  induction blocks generalizing last text with
  | zero => rw [List.length_eq_zero_iff.mp (Nat.le_zero.mp hblocks), encipher_nil, decipher_nil]
  | succ blocks ih =>
    obtain ⟨hblock, hrest⟩ := cut_block (mode.encipher blocks
      (List.zipWith mode.mix (text.take mode.size) (mode.image last)) (text.drop mode.size))
      (mode.length_mixed text last) (fun hnil => by rw [hnil, encipher_nil])
    rw [encipher, decipher, hblock, hrest, mixed_mixed, ih (by rw [List.length_drop]; omega), List.take_append_drop]

/-- **Enciphering undoes deciphering.** -/
theorem encipher_decipher (hsize : 0 < mode.size) (hblocks : text.length ≤ blocks) :
    mode.encipher blocks last (mode.decipher blocks last text) = text := by
  induction blocks generalizing last text with
  | zero => rw [List.length_eq_zero_iff.mp (Nat.le_zero.mp hblocks), decipher_nil, encipher_nil]
  | succ blocks ih =>
    obtain ⟨hblock, hrest⟩ := cut_block (mode.decipher blocks (text.take mode.size)
      (text.drop mode.size)) (mode.length_mixed text last) (fun hnil => by rw [hnil, decipher_nil])
    rw [decipher, encipher, hblock, hrest, mixed_mixed, ih (by rw [List.length_drop]; omega), List.take_append_drop]

end Feedback

end Idnx
