import Idnx.Net.Address
import Mathlib.Data.List.TakeWhile

/-!
# Netmasks

A netmask of length `m` is `m` ones followed by zeros. `contiguousPrefixLen` tells it by its leading ones and its
trailing zeros, which together are the word only if there is nothing between them (`contiguousPrefixLen_iff`), and
`contiguousPrefixLenV6` does the same for masks of version 6. Both are one fact about words of any width
(`onesThenZeros_iff`).
-/

namespace Idnx

/-- The netmask of a prefix length. -/
def netmask (len : Nat) : Ipv4Addr := BitVec.allOnes 32 <<< (32 - len)

/-! ## Runs of bits -/

section Runs

variable {p : Nat → Bool} {w k : Nat}

theorem length_takeWhile_range_le : ((List.range w).takeWhile p).length ≤ w := by
  have h := (List.takeWhile_prefix p (l := List.range w)).length_le
  rwa [List.length_range] at h

/-- Within the run the predicate holds. -/
theorem of_lt_length_takeWhile_range (h : k < ((List.range w).takeWhile p).length) : p k = true := by
  have hget := (List.takeWhile_prefix p (l := List.range w)).getElem h
  rw [List.getElem_range] at hget
  have hmem := List.getElem_mem h
  rw [hget] at hmem
  exact List.mem_takeWhile_imp hmem

/-- The run ends where the predicate fails first. -/
theorem length_takeWhile_range (hk : k ≤ w) (hrun : ∀ i < k, p i = true) (hstop : k < w → p k = false) :
    ((List.range w).takeWhile p).length = k := by
  obtain ⟨d, rfl⟩ := Nat.exists_eq_add_of_le hk
  rw [List.range_add, List.takeWhile_append_of_pos fun i hi => hrun i (List.mem_range.mp hi), List.length_append,
    List.length_range]
  cases d with
  | zero => rfl
  | succ d =>
    have hfalse := hstop (by omega)
    rw [List.range_succ_eq_map, List.map_cons, Nat.add_zero, List.takeWhile_cons_of_neg (by simp [hfalse])]
    rfl

end Runs

/-! ## Words of any width -/

/-- The word is `n` ones followed by zeros. -/
def OnesThenZeros {w : Nat} (bits : BitVec w) (n : Nat) : Prop := n ≤ w ∧ ∀ i < w, bits.getMsbD i = decide (i < n)

section Words

variable {w n : Nat} {bits : BitVec w}

theorem leadingOnes_le : leadingOnes bits ≤ w := length_takeWhile_range_le

theorem OnesThenZeros.leadingOnes (h : OnesThenZeros bits n) : leadingOnes bits = n := by
  refine length_takeWhile_range h.1 (fun i hi => ?_) fun hlt => ?_
  · rw [h.2 i (Nat.lt_of_lt_of_le hi h.1), decide_eq_true hi]
  · rw [h.2 n hlt, decide_eq_false (Nat.lt_irrefl n)]

theorem getLsbD_eq_getMsbD {i : Nat} (hi : i < w) : bits.getLsbD i = bits.getMsbD (w - 1 - i) := by
  rw [BitVec.getMsbD_eq_getLsbD, decide_eq_true (show w - 1 - i < w by omega), Bool.true_and,
    show w - 1 - (w - 1 - i) = i by omega]

theorem OnesThenZeros.trailingZeros (h : OnesThenZeros bits n) : trailingZeros bits = w - n := by
  have hle := h.1
  refine length_takeWhile_range (Nat.sub_le _ _) (fun i hi => ?_) fun hlt => ?_
  · rw [getLsbD_eq_getMsbD (show i < w by omega), h.2 _ (by omega), decide_eq_false (by omega)]
    rfl
  · rw [getLsbD_eq_getMsbD hlt, h.2 _ (by omega), decide_eq_true (by omega)]
    rfl

/-- **The leading ones and the trailing zeros are the whole word** exactly when it is ones followed by zeros. -/
theorem onesThenZeros_iff :
    leadingOnes bits + trailingZeros bits = w ∧ leadingOnes bits = n ↔ OnesThenZeros bits n := by
  constructor
  · rintro ⟨hsum, rfl⟩
    refine ⟨leadingOnes_le, fun i hi => ?_⟩
    by_cases hone : i < leadingOnes bits
    · rw [of_lt_length_takeWhile_range hone, decide_eq_true hone]
    · have hzero := of_lt_length_takeWhile_range (show w - 1 - i < trailingZeros bits by omega)
      rw [Bool.not_eq_true', getLsbD_eq_getMsbD (by omega), show w - 1 - (w - 1 - i) = i by omega] at hzero
      rw [hzero, decide_eq_false hone]
  · intro h
    have hle := h.1
    rw [h.leadingOnes, h.trailingZeros]
    omega

/-- **Shifting the leading ones out leaves nothing** exactly when only zeros follow them. -/
theorem onesThenZeros_iff_shiftLeft : leadingOnes bits = n ∧ bits <<< n = 0#w ↔ OnesThenZeros bits n := by
  constructor
  · rintro ⟨rfl, hshift⟩
    refine ⟨leadingOnes_le, fun i hi => ?_⟩
    by_cases hone : i < leadingOnes bits
    · rw [of_lt_length_takeWhile_range hone, decide_eq_true hone]
    · have hbit : (bits <<< leadingOnes bits).getMsbD (i - leadingOnes bits) = false := by
        rw [hshift, BitVec.getMsbD_zero]
      rw [BitVec.getMsbD_shiftLeft, Nat.sub_add_cancel (Nat.le_of_not_lt hone)] at hbit
      rw [hbit, decide_eq_false hone]
  · intro h
    refine ⟨h.leadingOnes, BitVec.eq_of_getMsbD_eq fun i hi => ?_⟩
    rw [BitVec.getMsbD_shiftLeft, BitVec.getMsbD_zero]
    by_cases hin : i + n < w
    · rw [h.2 _ hin, decide_eq_false (Nat.not_lt.mpr (Nat.le_add_left n i))]
    · exact BitVec.getMsbD_of_ge _ _ (Nat.le_of_not_lt hin)

end Words

/-! ## Netmasks -/

/-- The prefix length a netmask of version 6 represents, if it is a run of ones followed by a run of zeros. -/
def contiguousPrefixLenV6 (netmask : Ipv6Addr) : Option Nat :=
  if leadingOnes netmask + trailingZeros netmask = 128 then some (leadingOnes netmask) else none

theorem contiguousPrefixLenV6_iff {mask : Ipv6Addr} {n : Nat} :
    contiguousPrefixLenV6 mask = some n ↔ OnesThenZeros mask n := by
  rw [contiguousPrefixLenV6, ← onesThenZeros_iff, Option.ite_none_right_eq_some, Option.some.injEq]

theorem getLsbD_netmask (len i : Nat) : (netmask len).getLsbD i = decide (i < 32 ∧ 32 - len ≤ i) := by
  unfold netmask
  rw [BitVec.getLsbD_shiftLeft, BitVec.getLsbD_allOnes]
  by_cases hi : i < 32 <;> by_cases hlen : 32 - len ≤ i
  all_goals simp [hi, hlen]
  all_goals omega

theorem onesThenZeros_netmask {mask : Ipv4Addr} {m : Nat} : OnesThenZeros mask m ↔ m ≤ 32 ∧ mask = netmask m := by
  refine and_congr_right fun hm => ⟨fun h => BitVec.eq_of_getLsbD_eq fun i hi => ?_, ?_⟩
  · rw [getLsbD_eq_getMsbD hi, h _ (by omega), getLsbD_netmask, decide_eq_decide]
    omega
  · rintro rfl i hi
    rw [BitVec.getMsbD_eq_getLsbD, decide_eq_true hi, Bool.true_and, getLsbD_netmask, decide_eq_decide]
    omega

theorem leadingOnes_netmask {m : Nat} (hm : m ≤ 32) : leadingOnes (netmask m) = m := by
  have h : OnesThenZeros (netmask m) m := by
    rw [onesThenZeros_netmask]
    exact ⟨hm, rfl⟩
  exact h.leadingOnes

/-- **The prefix length of a netmask** is the one whose netmask it is. -/
theorem contiguousPrefixLen_iff {mask : Ipv4Addr} {m : Nat} :
    contiguousPrefixLen mask = some m ↔ m ≤ 32 ∧ mask = netmask m := by
  rw [contiguousPrefixLen, ← onesThenZeros_netmask, ← onesThenZeros_iff, Option.ite_none_right_eq_some,
    Option.some.injEq]

end Idnx
