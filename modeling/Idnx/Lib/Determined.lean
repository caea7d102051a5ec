import Mathlib.Data.List.Basic

/-!
# What a prefix determines

A list determines a function if the value there is the value at every continuation (`Determined`). A value that all
continuations share is determined (`determined_of_forall`), two that differ show that it is not (`not_determined`), and
a function is determined with any other that tells its values apart (`determined_iff`). A function that accepts or
rejects is determined by what it never accepts (`determined_iff_never`).
-/

namespace Idnx

variable {α β γ : Type} {f : List α → β} {g : List α → γ} {l l' : List α}

/-- Whatever follows, the value is that of the list. -/
def Determined (f : List α → β) (l : List α) : Prop := ∀ more, f (l ++ more) = f l

theorem determined_of_forall {b : β} (h : ∀ more, f (l ++ more) = b) : Determined f l := by
  intro more
  have hself := h []
  rw [List.append_nil] at hself
  rw [h more, hself]

theorem Determined.append (h : Determined f l) (more : List α) : Determined f (l ++ more) := by
  intro rest
  rw [List.append_assoc, h, h]

theorem not_determined_of_append {more : List α} (h : ¬ Determined f (l ++ more)) : ¬ Determined f l :=
  fun hl => h (hl.append more)

theorem not_determined {a b : List α} (h : f (l ++ a) ≠ f (l ++ b)) : ¬ Determined f l :=
  fun hl => h ((hl a).trans (hl b).symm)

/-- A function that is a function of another, on all continuations, and tells its values apart is determined with it. -/
theorem determined_iff {k : γ → β} (h : ∀ more, f (l ++ more) = k (g (l' ++ more)))
    (hk : ∀ a b, k (g (l' ++ a)) = k (g (l' ++ b)) → g (l' ++ a) = g (l' ++ b)) : Determined f l ↔ Determined g l' := by
  have hf := h []
  have hg := fun more => hk more []
  rw [List.append_nil, List.append_nil] at hf
  rw [List.append_nil] at hg
  constructor
  · intro hl more
    refine hg more ?_
    rw [← h, ← hf, hl]
  · intro hl more
    rw [h, hf, hl]

theorem determined_congr {g : List α → β} (h : ∀ more, f (l ++ more) = g (l' ++ more)) :
    Determined f l ↔ Determined g l' :=
  determined_iff (k := id) h fun _ _ => id

/-- A function that gives one value wherever it does not accept, and that value only there, is determined by what no
continuation makes it accept; for this, what it may accept it must not have to. -/
theorem determined_iff_never {accepts : List α → Prop} {b : β} (hreject : ∀ x, ¬ accepts x → f x = b)
    (haccept : ∀ x, accepts x → f x ≠ b) (hopen : ∀ more, accepts (l ++ more) → ∃ rest, ¬ accepts (l ++ rest)) :
    Determined f l ↔ ∀ more, ¬ accepts (l ++ more) := by
  constructor
  · intro hl more hmore
    obtain ⟨rest, hrest⟩ := hopen more hmore
    refine not_determined (a := more) (b := rest) ?_ hl
    rw [hreject _ hrest]
    exact haccept _ hmore
  · intro hnever
    exact determined_of_forall fun more => hreject _ (hnever more)

end Idnx
