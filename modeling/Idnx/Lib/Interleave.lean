import Idnx.Lib.Run

/-!
# Interleavings and two-run simulations

`Interleaving L R M` says that `M` is made of the elements of `L` and of `R`, each list in its own order.
`interleaving_simulation` is the unwinding rule for two runs, one of `M` and one of `L` alone: if every step from `L`
keeps a relation between the two states when both take it, and every step from `R` keeps it when only the first run
takes it, the relation holds at the end.
-/

namespace Idnx

variable {σ α : Type}

/-- `M` is an interleaving of `L` and `R`. -/
inductive Interleaving : List α → List α → List α → Prop
  | nil : Interleaving [] [] []
  | left (a : α) {L R M : List α} : Interleaving L R M → Interleaving (a :: L) R (a :: M)
  | right (a : α) {L R M : List α} : Interleaving L R M → Interleaving L (a :: R) (a :: M)

/-- **The unwinding rule.** `C` is a condition that every step of the run of `M` is known to meet. -/
theorem interleaving_simulation {step : σ → α → σ} {Rel : σ → σ → Prop} {C : σ → α → Prop} {L R M : List α}
    (h : Interleaving L R M)
    (hL : ∀ a ∈ L, ∀ s t, Rel s t → C s a → Rel (step s a) (step t a))
    (hR : ∀ a ∈ R, ∀ s t, Rel s t → C s a → Rel (step s a) t) :
    ∀ {s t : σ}, Rel s t → Along step (fun _ => C) s M → Rel (run step s M) (run step t L) := by
  induction h with
  | nil => intro s t hst _; exact hst
  | left a _ ih =>
    intro s t hst hC
    refine ih (fun b hb => hL b (by simp [hb])) hR (hL a (by simp) s t hst (hC [] a _ rfl)) ?_
    rintro before b after rfl
    exact hC (a :: before) b after rfl
  | right a _ ih =>
    intro s t hst hC
    refine ih hL (fun b hb => hR b (by simp [hb])) (hR a (by simp) s t hst (hC [] a _ rfl)) ?_
    rintro before b after rfl
    exact hC (a :: before) b after rfl

end Idnx
