import Mathlib.Data.List.Basic
import Mathlib.Data.List.Infix

/-!
# Replacing the occurrences of a pattern

`replace pat new` puts `new` in the place of every occurrence of `pat`, from left to right and without overlaps. It is
computed by going over the list once; for a pattern that is not empty, `replace_pat` and `replace_cons` say what it
does and `replaceInduction` is the induction that goes with them. An element that is not in the pattern cuts the list
in two that are replaced on their own (`replace_append_cons`).
-/

namespace Idnx

variable {α : Type} [DecidableEq α]

/-- The replacement from here on, `skip` elements into the rest of the last occurrence. -/
def replaceFrom (pat new : List α) : Nat → List α → List α
  | _, [] => []
  | skip + 1, _ :: l => replaceFrom pat new skip l
  | 0, a :: l =>
    if pat.isPrefixOf (a :: l) then new ++ replaceFrom pat new (pat.length - 1) l else a :: replaceFrom pat new 0 l

/-- The list with every occurrence of the pattern replaced (`str::replace`). -/
def replace (pat new l : List α) : List α := replaceFrom pat new 0 l

variable {pat new : List α}

@[simp] theorem replace_nil : replace pat new [] = [] := rfl

theorem replaceFrom_eq (skip : Nat) (l : List α) : replaceFrom pat new skip l = replace pat new (l.drop skip) := by
  induction l generalizing skip with
  | nil => cases skip <;> rfl
  | cons a l ih =>
    cases skip with
    | zero => rfl
    | succ skip => exact ih skip

theorem replace_cons {a : α} {l : List α} (h : ¬pat <+: a :: l) :
    replace pat new (a :: l) = a :: replace pat new l := by
  rw [replace, replaceFrom, if_neg (by simpa using h)]
  rfl

theorem replace_pat (hpat : pat ≠ []) (l : List α) : replace pat new (pat ++ l) = new ++ replace pat new l := by
  cases pat with
  | nil => exact absurd rfl hpat
  | cons p ps =>
    rw [replace, List.cons_append, replaceFrom, if_pos (by simp), replaceFrom_eq]
    simp

/-- Every list is empty, or begins with an occurrence, or with an element that does not begin one. -/
theorem replaceInduction {P : List α → Prop} (hpat : pat ≠ []) (nil : P []) (occurrence : ∀ l, P l → P (pat ++ l))
    (other : ∀ a l, ¬pat <+: a :: l → P l → P (a :: l)) (l : List α) : P l := by
  induction hlen : l.length using Nat.strong_induction_on generalizing l with
  | _ n ih =>
    by_cases h : pat <+: l
    · obtain ⟨rest, rfl⟩ := h
      have hpos := List.length_pos_iff.mpr hpat
      exact occurrence rest (ih rest.length (by rw [← hlen, List.length_append]; omega) rest rfl)
    · cases l with
      | nil => exact nil
      | cons a l => exact other a l h (ih l.length (by rw [← hlen, List.length_cons]; omega) l rfl)

/-! ## Lists without the pattern -/

/-- Where the pattern does not occur, nothing changes. -/
theorem replace_eq_self {l : List α} (h : ¬pat <:+: l) : replace pat new l = l := by
  induction l with
  | nil => rfl
  | cons a l ih =>
    rw [List.infix_cons_iff, not_or] at h
    rw [replace_cons h.1, ih h.2]

omit [DecidableEq α] in
theorem not_isPrefix_cons {a : α} {l : List α} (hpat : pat ≠ []) (ha : a ∉ pat) : ¬pat <+: a :: l := by
  intro h
  cases pat with
  | nil => exact hpat rfl
  | cons p ps => exact ha (List.cons_prefix_cons.mp h |>.1 ▸ List.mem_cons_self)

/-- What shares no element with the pattern stays, and what follows it is replaced on its own. -/
theorem replace_append_of_disjoint (hpat : pat ≠ []) {a : List α} (ha : ∀ x ∈ a, x ∉ pat) (b : List α) :
    replace pat new (a ++ b) = a ++ replace pat new b := by
  induction a with
  | nil => rfl
  | cons x a ih =>
    rw [List.forall_mem_cons] at ha
    rw [List.cons_append, replace_cons (not_isPrefix_cons hpat ha.1), ih ha.2, List.cons_append]

omit [DecidableEq α] in
/-- No occurrence reaches over an element that is not in the pattern. -/
theorem isPrefix_of_append_cons {c : α} (hc : c ∉ pat) {a b : List α} (h : pat <+: a ++ c :: b) : pat <+: a := by
  rcases List.prefix_or_prefix_of_prefix h (List.prefix_append a (c :: b)) with hpa | ⟨e, he⟩
  · exact hpa
  · cases e with
    | nil =>
      rw [List.append_nil] at he
      rw [he]
    | cons x e =>
      rw [← he, List.prefix_append_right_inj, List.cons_prefix_cons] at h
      exact absurd (he ▸ List.mem_append_right a (h.1 ▸ List.mem_cons_self)) hc

/-- **The parts on either side of an element that is not in the pattern are replaced on their own.** -/
theorem replace_append_cons (hpat : pat ≠ []) {c : α} (hc : c ∉ pat) (a b : List α) :
    replace pat new (a ++ c :: b) = replace pat new a ++ c :: replace pat new b := by
  induction a using replaceInduction hpat with
  | nil => exact replace_cons (not_isPrefix_cons hpat hc)
  | occurrence l ih => rw [List.append_assoc, replace_pat hpat, ih, replace_pat hpat, List.append_assoc]
  | other x l hx ih =>
    have hno : ¬pat <+: x :: (l ++ c :: b) := fun h => hx (isPrefix_of_append_cons (a := x :: l) hc h)
    rw [List.cons_append, replace_cons hno, ih, replace_cons hx, List.cons_append]

omit [DecidableEq α] in
/-- So an occurrence is on one side of it. -/
theorem isInfix_append_cons {c : α} (hc : c ∉ pat) {a b : List α} :
    pat <:+: a ++ c :: b ↔ pat <:+: a ∨ pat <:+: b := by
  induction a with
  | nil =>
    rw [List.nil_append, List.infix_cons_iff]
    constructor
    · rintro (h | h)
      · exact .inl (isPrefix_of_append_cons (a := []) hc h).isInfix
      · exact .inr h
    · rintro (h | h)
      · exact .inl ((List.eq_nil_of_infix_nil h) ▸ List.nil_prefix)
      · exact .inr h
  | cons x a ih =>
    rw [List.cons_append, List.infix_cons_iff, ih, List.infix_cons_iff, or_assoc]
    constructor
    · rintro (h | h)
      · exact .inl (isPrefix_of_append_cons (a := x :: a) hc h)
      · exact .inr h
    · rintro (h | h)
      · exact .inl (h.trans ⟨c :: b, rfl⟩)
      · exact .inr h

/-! ## What becomes of the elements -/

/-- An element that is not in the pattern is not lost. -/
theorem mem_replace_of_not_mem (hpat : pat ≠ []) {c : α} (hc : c ∉ pat) {l : List α} (h : c ∈ l) :
    c ∈ replace pat new l := by
  induction l using replaceInduction hpat with
  | nil => exact h
  | occurrence l ih =>
    rw [replace_pat hpat]
    exact List.mem_append_right _ (ih ((List.mem_append.mp h).resolve_left hc))
  | other a l ha ih =>
    rw [replace_cons ha]
    exact (List.mem_cons.mp h).elim (fun he => he ▸ List.mem_cons_self) fun h => List.mem_cons_of_mem _ (ih h)

/-- Where the pattern occurs, the replacement is put in. -/
theorem mem_replace_of_isInfix (hpat : pat ≠ []) {c : α} (hc : c ∈ new) {l : List α} (h : pat <:+: l) :
    c ∈ replace pat new l := by
  induction l using replaceInduction hpat with
  | nil => exact absurd (List.eq_nil_of_infix_nil h) hpat
  | occurrence l ih =>
    rw [replace_pat hpat]
    exact List.mem_append_left _ hc
  | other a l ha ih =>
    rw [replace_cons ha]
    exact List.mem_cons_of_mem _ (ih ((List.infix_cons_iff.mp h).resolve_left ha))

/-- An element that the replacement does not bring gets no more frequent, and rarer if the pattern has it
and occurs. -/
theorem count_replace_le (hpat : pat ≠ []) {c : α} (hc : c ∉ new) (l : List α) :
    (replace pat new l).count c ≤ l.count c := by
  induction l using replaceInduction hpat with
  | nil => exact Nat.le_refl _
  | occurrence l ih =>
    rw [replace_pat hpat, List.count_append, List.count_append, List.count_eq_zero.mpr hc]
    omega
  | other a l ha ih =>
    rw [replace_cons ha, List.count_cons, List.count_cons]
    omega

theorem count_replace_lt (hpat : pat ≠ []) {c : α} (hc : c ∉ new) (hmem : c ∈ pat) {l : List α} (h : pat <:+: l) :
    (replace pat new l).count c < l.count c := by
  induction l using replaceInduction hpat with
  | nil => exact absurd (List.eq_nil_of_infix_nil h) hpat
  | occurrence l ih =>
    have hle := count_replace_le hpat hc l
    have hpos := List.count_pos_iff.mpr hmem
    rw [replace_pat hpat, List.count_append, List.count_append, List.count_eq_zero.mpr hc]
    omega
  | other a l ha ih =>
    have hlt := ih ((List.infix_cons_iff.mp h).resolve_left ha)
    rw [replace_cons ha, List.count_cons, List.count_cons]
    omega

/-- A replacement that lacks an element of the pattern changes exactly the lists in which the pattern occurs. -/
theorem replace_eq_self_iff (hpat : pat ≠ []) {c : α} (hc : c ∉ new) (hmem : c ∈ pat) {l : List α} :
    replace pat new l = l ↔ ¬pat <:+: l := by
  refine ⟨fun h hoccurs => ?_, replace_eq_self⟩
  have hlt := count_replace_lt hpat hc hmem hoccurs
  rw [h] at hlt
  exact Nat.lt_irrefl _ hlt

/-! ## Codes -/

/-- Each element is written as a code: those of the pattern and of the replacement as themselves, and the others so
that nothing of the pattern appears. -/
structure Spells (pat new : List α) (code : α → List α) : Prop where
  pattern : ∀ a ∈ pat, code a = [a]
  replacement : ∀ a ∈ new, code a = [a]
  nonempty : ∀ a ∉ pat, code a ≠ []
  apart : ∀ a ∉ pat, ∀ b ∈ code a, b ∉ pat

omit [DecidableEq α] in
theorem flatMap_eq_self {l : List α} {code : α → List α} (h : ∀ a ∈ l, code a = [a]) : l.flatMap code = l := by
  induction l with
  | nil => rfl
  | cons a l ih =>
    rw [List.forall_mem_cons] at h
    rw [List.flatMap_cons, h.1, ih h.2, List.singleton_append]

theorem Spells.isPrefix_flatMap {code : α → List α} (h : Spells pat new code) {p l : List α} (hp : ∀ a ∈ p, a ∈ pat) :
    p <+: l.flatMap code ↔ p <+: l := by
  induction p generalizing l with
  | nil => simp
  | cons x p ih =>
    rw [List.forall_mem_cons] at hp
    cases l with
    | nil => simp
    | cons a l =>
      rw [List.flatMap_cons]
      by_cases ha : a ∈ pat
      · rw [h.pattern a ha, List.singleton_append, List.cons_prefix_cons, List.cons_prefix_cons, ih hp.2]
      · cases hcode : code a with
        | nil => exact absurd hcode (h.nonempty a ha)
        | cons b bs =>
          have hb : b ∉ pat := h.apart a ha b (hcode ▸ List.mem_cons_self)
          rw [List.cons_append, List.cons_prefix_cons, List.cons_prefix_cons]
          constructor
          · rintro ⟨rfl, -⟩
            exact absurd hp.1 hb
          · rintro ⟨rfl, -⟩
            exact absurd hp.1 ha

/-- **To replace in what is written is to write what is replaced.** -/
theorem Spells.replace_flatMap {code : α → List α} (h : Spells pat new code) (hpat : pat ≠ []) (l : List α) :
    replace pat new (l.flatMap code) = (replace pat new l).flatMap code := by
  induction l using replaceInduction hpat with
  | nil => rfl
  | occurrence l ih =>
    rw [List.flatMap_append, flatMap_eq_self h.pattern, replace_pat hpat, ih, replace_pat hpat, List.flatMap_append,
      flatMap_eq_self h.replacement]
  | other a l ha ih =>
    rw [replace_cons ha, List.flatMap_cons, List.flatMap_cons, ← ih]
    by_cases hmem : a ∈ pat
    · rw [h.pattern a hmem, List.singleton_append, List.singleton_append]
      refine replace_cons fun hbegins => ha ?_
      have hwritten : pat <+: (a :: l).flatMap code := by
        rwa [List.flatMap_cons, h.pattern a hmem, List.singleton_append]
      exact (h.isPrefix_flatMap fun _ => id).mp hwritten
    · exact replace_append_of_disjoint hpat (h.apart a hmem) _

end Idnx
