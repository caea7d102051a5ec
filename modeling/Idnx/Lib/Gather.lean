import Mathlib.Data.List.Nodup

/-!
# Gathering a list

A list is gathered element by element: an element is pushed if it is new (`pushNew`), or while there is room
(`pushWithin`). Of what is pushed if it is new everything is there, once; of what is pushed while there is room the
first elements are.
-/

namespace Idnx

section New

variable {α : Type} [DecidableEq α]

/-- Pushes an element that is not there yet. -/
def pushNew (l : List α) (a : α) : List α := if a ∈ l then l else l ++ [a]

theorem mem_pushNew {l : List α} {a x : α} : x ∈ pushNew l a ↔ x ∈ l ∨ x = a := by
  unfold pushNew
  split_ifs with h
  · constructor
    · exact .inl
    · rintro (hx | rfl)
      · exact hx
      · exact h
  · rw [List.mem_append, List.mem_singleton]

theorem mem_foldl_pushNew {as l : List α} {x : α} : x ∈ as.foldl pushNew l ↔ x ∈ l ∨ x ∈ as := by
  induction as generalizing l with
  | nil => simp
  | cons a as ih => rw [List.foldl_cons, ih, mem_pushNew, List.mem_cons, or_assoc]

theorem nodup_foldl_pushNew {l : List α} (h : l.Nodup) (as : List α) : (as.foldl pushNew l).Nodup := by
  induction as generalizing l with
  | nil => exact h
  | cons a as ih =>
    refine ih ?_
    unfold pushNew
    split_ifs with ha
    · exact h
    · rw [List.nodup_append]
      refine ⟨h, List.nodup_singleton a, fun x hx y hy => ?_⟩
      obtain rfl := List.mem_singleton.mp hy
      rintro rfl
      exact ha hx

/-- What is there already stays in front. -/
theorem isPrefix_foldl_pushNew (l as : List α) : l <+: as.foldl pushNew l := by
  induction as generalizing l with
  | nil => exact List.prefix_rfl
  | cons a as ih =>
    refine List.IsPrefix.trans ?_ (ih (pushNew l a))
    unfold pushNew
    split_ifs
    · exact List.prefix_rfl
    · exact List.prefix_append l [a]

end New

section Within

variable {α : Type}

/-- Pushes an element while there are fewer than `n`. -/
def pushWithin (n : Nat) (l : List α) (a : α) : List α := if l.length < n then l ++ [a] else l

theorem foldl_pushWithin (n : Nat) (l as : List α) : as.foldl (pushWithin n) l = l ++ as.take (n - l.length) := by
  induction as generalizing l with
  | nil => simp
  | cons a as ih =>
    rw [List.foldl_cons, ih]
    unfold pushWithin
    split_ifs with h
    · obtain ⟨k, hk⟩ : ∃ k, n - l.length = k + 1 := ⟨n - l.length - 1, by omega⟩
      have hroom : n - (l ++ [a]).length = k := by
        rw [List.length_append, List.length_singleton]
        omega
      rw [hroom, hk, List.take_succ_cons, List.append_assoc, List.singleton_append]
    · rw [show n - l.length = 0 by omega, List.take_zero, List.take_zero]

end Within

end Idnx
