import Mathlib.Algebra.BigOperators.Group.List.Basic
import Mathlib.Algebra.GroupWithZero.Nat

/-!
# Joining things two by two

Several things are joined in some order and grouping: a `Grouping`. What is asked of the result goes over the things
themselves, whatever the grouping was (`holds_value_iff`, `sum_value`), and joining one after the other is one
grouping of many (`exists_grouping_foldl`).
-/

namespace Idnx

/-- An order and grouping in which things are joined. -/
inductive Grouping (α : Type) where
  | single (a : α)
  | joined (left right : Grouping α)

namespace Grouping

variable {α : Type}

/-- The things that are joined, from left to right. -/
def items : Grouping α → List α
  | .single a => [a]
  | .joined left right => left.items ++ right.items

variable (join : α → α → α)

/-- What comes out. -/
def value : Grouping α → α
  | .single a => a
  | .joined left right => join left.value right.value

variable {join}

/-- What holds of a join when it holds of one side holds of the result when it holds of one of the things. -/
theorem holds_value_iff {P : α → Prop} (hjoin : ∀ a b, P (join a b) ↔ P a ∨ P b) (t : Grouping α) :
    P (t.value join) ↔ ∃ a ∈ t.items, P a := by
  induction t with
  | single a => simp [items, value]
  | joined left right hleft hright =>
    rw [value, hjoin, hleft, hright]
    simp only [items, List.mem_append, or_and_right, exists_or]

/-- What adds up over a join adds up over the things. -/
theorem sum_value {f : α → Nat} (hjoin : ∀ a b, f (join a b) = f a + f b) (t : Grouping α) :
    f (t.value join) = (t.items.map f).sum := by
  induction t with
  | single a => simp [items, value]
  | joined left right hleft hright => rw [value, hjoin, hleft, hright, items, List.map_append, List.sum_append]

/-- What every join has, the result has, unless there was nothing to join. -/
theorem value_of_join {P : α → Prop} (hjoin : ∀ a b, P (join a b)) (t : Grouping α) :
    (∃ a, t = .single a) ∨ P (t.value join) := by
  cases t with
  | single a => exact .inl ⟨a, rfl⟩
  | joined left right => exact .inr (hjoin _ _)

variable (join) in
/-- Joining one thing after the other. -/
theorem exists_grouping_foldl (t : Grouping α) (l : List α) :
    ∃ t' : Grouping α, t'.items = t.items ++ l ∧ t'.value join = l.foldl join (t.value join) := by
  induction l generalizing t with
  | nil => exact ⟨t, (List.append_nil _).symm, rfl⟩
  | cons a l ih =>
    obtain ⟨t', hitems, hvalue⟩ := ih (.joined t (.single a))
    exact ⟨t', by rw [hitems, items, items, List.append_assoc, List.singleton_append], hvalue⟩

end Grouping

end Idnx
