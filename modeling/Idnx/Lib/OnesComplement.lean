import Mathlib.Data.Nat.ModEq
import Mathlib.Algebra.BigOperators.Group.List.Basic

/-!
# One's-complement sums

Words from `0` to `m`, of which `m` is all ones. The sum of two words is taken with the carry out of the top added in at
the bottom (`onesAdd`). A one's-complement sum is the plain sum up to multiples of `m`, and of the two words that are
then `0` it is `0` only if nothing but zeros was added (`Reduces`, `reduces_onesSum`). These two facts determine it
(`Reduces.unique`).
-/

namespace Idnx

/-- The sum of two words, the carry out of the top added in at the bottom. -/
def onesAdd (m a b : Nat) : Nat := (a + b) % (m + 1) + (a + b) / (m + 1)

/-- The one's-complement sum of a list of words. -/
def onesSum (m : Nat) (words : List Nat) : Nat := words.foldl (onesAdd m) 0

/-- The word `x` stands for the sum `s`: it is `s` up to multiples of `m`, and `0` for nothing but `0`. -/
structure Reduces (m s x : Nat) : Prop where
  le : x ≤ m
  mod_eq : x % m = s % m
  eq_zero_iff : x = 0 ↔ s = 0

variable {m s x y : Nat}

/-- A sum reduces to one word. -/
theorem Reduces.unique (hx : Reduces m s x) (hy : Reduces m s y) : x = y := by
  have hmod : x % m = y % m := hx.mod_eq.trans hy.mod_eq.symm
  have hzero : x = 0 ↔ y = 0 := hx.eq_zero_iff.trans hy.eq_zero_iff.symm
  have hlex := hx.le
  have hley := hy.le
  rcases Nat.lt_or_eq_of_le hlex with hltx | rfl <;> rcases Nat.lt_or_eq_of_le hley with hlty | rfl
  · rwa [Nat.mod_eq_of_lt hltx, Nat.mod_eq_of_lt hlty] at hmod
  · rw [Nat.mod_eq_of_lt hltx, Nat.mod_self] at hmod
    rw [hmod, hzero.mp hmod]
  · rw [Nat.mod_self, Nat.mod_eq_of_lt hlty] at hmod
    rw [← hmod, hzero.mpr hmod.symm]
  · rfl

/-- A word stands for itself. -/
theorem reduces_self (h : x ≤ m) : Reduces m x x := ⟨h, rfl, Iff.rfl⟩

/-- Adding the carry in at the bottom changes nothing up to multiples of `m`. -/
theorem onesAdd_spec (m a b : Nat) : onesAdd m a b % m = (a + b) % m ∧ (onesAdd m a b = 0 ↔ a + b = 0) := by
  have hdiv := Nat.div_add_mod (a + b) (m + 1)
  have hsplit : a + b = onesAdd m a b + m * ((a + b) / (m + 1)) := by
    rw [Nat.add_mul, Nat.one_mul] at hdiv
    unfold onesAdd
    omega
  refine ⟨?_, fun h => ?_, fun h => ?_⟩
  · conv_rhs => rw [hsplit]
    exact (Nat.add_mul_mod_self_left _ _ _).symm
  · rw [h, Nat.zero_add] at hsplit
    have hcarry : (a + b) / (m + 1) = 0 := (Nat.add_eq_zero_iff.mp h).2
    rw [hsplit, hcarry, Nat.mul_zero]
  · rw [onesAdd, h, Nat.zero_mod, Nat.zero_div]

theorem onesAdd_le {a b : Nat} (ha : a ≤ m) (hb : b ≤ m) : onesAdd m a b ≤ m := by
  unfold onesAdd
  by_cases hcarry : a + b < m + 1
  · rw [Nat.mod_eq_of_lt hcarry, Nat.div_eq_of_lt hcarry]
    omega
  · rw [Nat.mod_eq_sub_mod (Nat.le_of_not_lt hcarry), Nat.mod_eq_of_lt (by omega),
      Nat.div_eq_of_lt_le (by omega : 1 * (m + 1) ≤ a + b) (by omega)]
    omega

theorem reduces_foldl {words : List Nat} (hwords : ∀ w ∈ words, w ≤ m) (h : Reduces m s x) :
    Reduces m (s + words.sum) (words.foldl (onesAdd m) x) := by
  induction words generalizing s x with
  | nil => exact h
  | cons w words ih =>
    obtain ⟨hw, hwords⟩ := List.forall_mem_cons.mp hwords
    obtain ⟨hmod, hzero⟩ := onesAdd_spec m x w
    rw [List.sum_cons, ← Nat.add_assoc]
    refine ih hwords ⟨onesAdd_le h.le hw, ?_, ?_⟩
    · rw [hmod, Nat.add_mod, h.mod_eq, ← Nat.add_mod]
    · have := h.eq_zero_iff
      omega

/-- **The one's-complement sum stands for the plain sum.** -/
theorem reduces_onesSum {words : List Nat} (hwords : ∀ w ∈ words, w ≤ m) : Reduces m words.sum (onesSum m words) := by
  have h := reduces_foldl hwords (reduces_self (Nat.zero_le m))
  rwa [Nat.zero_add] at h

/-- A sum stands for all ones exactly when it is a multiple of `m` and not zero. -/
theorem reduces_ones_iff (hm : 0 < m) : Reduces m s m ↔ s % m = 0 ∧ s ≠ 0 := by
  constructor
  · intro h
    refine ⟨by rw [← h.mod_eq, Nat.mod_self], fun hs => ?_⟩
    have := h.eq_zero_iff.mpr hs
    omega
  · rintro ⟨hmod, hs⟩
    refine ⟨Nat.le_refl m, by rw [hmod, Nat.mod_self], ?_⟩
    omega

/-- **Adding the complement of a sum gives all ones.** -/
theorem Reduces.add_complement (hm : 0 < m) (h : Reduces m s x) : Reduces m (s + (m - x)) m := by
  have hle := h.le
  refine (reduces_ones_iff hm).mpr ⟨?_, fun hzero => ?_⟩
  · rw [Nat.add_mod, ← h.mod_eq, ← Nat.add_mod, Nat.add_sub_cancel' hle, Nat.mod_self]
  · have hx := h.eq_zero_iff.mpr (by omega)
    omega

/-- **One word exchanged for another is noticed**, but for the two words that stand for nothing. -/
theorem not_reduces_of_exchange {a w w' : Nat} (hm : 0 < m) (hw : w ≤ m) (hw' : w' ≤ m) (hne : w ≠ w')
    (hup : ¬ (w = 0 ∧ w' = m)) (hdown : ¬ (w = m ∧ w' = 0)) (h : Reduces m (a + w) m) : ¬ Reduces m (a + w') m := by
  intro h'
  obtain ⟨hmod, -⟩ := (reduces_ones_iff hm).mp h
  obtain ⟨hmod', -⟩ := (reduces_ones_iff hm).mp h'
  have hsame : w % m = w' % m := Nat.ModEq.add_left_cancel' a (hmod.trans hmod'.symm)
  rcases Nat.lt_or_eq_of_le hw with hlt | rfl <;> rcases Nat.lt_or_eq_of_le hw' with hlt' | rfl
  · rw [Nat.mod_eq_of_lt hlt, Nat.mod_eq_of_lt hlt'] at hsame
    exact hne hsame
  · rw [Nat.mod_eq_of_lt hlt, Nat.mod_self] at hsame
    exact hup ⟨hsame, rfl⟩
  · rw [Nat.mod_self, Nat.mod_eq_of_lt hlt'] at hsame
    exact hdown ⟨rfl, hsame.symm⟩
  · exact hne rfl

/-- A list with one element replaced has the sum without the old one and with the new. -/
theorem exists_sum_set {words : List Nat} {k w : Nat} (h : words[k]? = some w) (w' : Nat) :
    ∃ a, words.sum = a + w ∧ (words.set k w').sum = a + w' := by
  obtain ⟨hk, rfl⟩ := List.getElem?_eq_some_iff.mp h
  refine ⟨(words.take k).sum + (words.drop (k + 1)).sum, ?_, ?_⟩
  · conv_lhs => rw [← List.take_append_drop k words, List.drop_eq_getElem_cons hk]
    rw [List.sum_append, List.sum_cons]
    omega
  · rw [List.set_eq_take_append_cons_drop, if_pos hk, List.sum_append, List.sum_cons]
    omega

end Idnx
