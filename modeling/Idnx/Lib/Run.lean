import Mathlib.Data.List.Induction

/-!
# Runs of a state machine

A machine is a function `step : σ → α → σ`; `run step s as` is the state after the steps `as`.

* `run_induction`: a property of the history and the state that holds at the start and that every step keeps holds
  after every run;
* `Always` says that a property holds in every state a run passes, `Along` that every step of the run meets a
  condition when it is taken; `always_of_along` and `along_of_always` connect the two.
-/

namespace Idnx

variable {σ α : Type} (step : σ → α → σ)

/-- The state after the steps `as`. -/
def run (s : σ) (as : List α) : σ := as.foldl step s

@[simp] theorem run_nil (s : σ) : run step s [] = s := rfl

@[simp] theorem run_cons (s : σ) (a : α) (as : List α) : run step s (a :: as) = run step (step s a) as := rfl

theorem run_append (s : σ) (as bs : List α) : run step s (as ++ bs) = run step (run step s as) bs :=
  List.foldl_append

theorem run_concat (s : σ) (as : List α) (a : α) : run step s (as ++ [a]) = step (run step s as) a := by
  rw [run_append]; rfl

/-- **Induction over runs.** The invariant may speak of the history. -/
theorem run_induction {P : List α → σ → Prop} {s : σ} (h0 : P [] s)
    (hs : ∀ h a, P h (run step s h) → P (h ++ [a]) (step (run step s h) a)) (as : List α) : P as (run step s as) := by
  induction as using List.reverseRecOn with
  | nil => exact h0
  | append_singleton as a ih => rw [run_concat]; exact hs as a ih

/-- `P` holds in every state the run `as` passes, the first and the last included. -/
def Always (P : List α → σ → Prop) (s : σ) (as : List α) : Prop :=
  ∀ before after, as = before ++ after → P before (run step s before)

/-- Every step of the run `as` meets `C` when it is taken. -/
def Along (C : List α → σ → α → Prop) (s : σ) (as : List α) : Prop :=
  ∀ before a after, as = before ++ a :: after → C before (run step s before) a

variable {step} {P : List α → σ → Prop} {C : List α → σ → α → Prop} {s : σ} {as bs : List α}

theorem Always.last (h : Always step P s as) : P as (run step s as) := h as [] (by simp)

theorem Always.init (h : Always step P s (as ++ bs)) : Always step P s as := by
  rintro before after rfl
  exact h before (after ++ bs) (by simp)

theorem Along.init (h : Along step C s (as ++ bs)) : Along step C s as := by
  rintro before a after rfl
  exact h before a (after ++ bs) (by simp)

theorem Along.concat {a : α} (h : Along step C s (as ++ [a])) : C as (run step s as) a := h as a [] rfl

theorem along_concat {a : α} : Along step C s (as ++ [a]) ↔ Along step C s as ∧ C as (run step s as) a := by
  refine ⟨fun h => ⟨h.init, h.concat⟩, ?_⟩
  rintro ⟨h, ha⟩ before b after e
  rcases List.eq_nil_or_concat after with rfl | ⟨after, c, rfl⟩
  · obtain ⟨rfl, hb⟩ := List.append_inj' e rfl
    cases hb
    exact ha
  · refine h before b after ?_
    have hcut : as ++ [a] = (before ++ b :: after) ++ [c] := by simpa using e
    exact (List.append_inj' hcut rfl).1

@[simp] theorem along_nil : Along step C s [] := by
  intro before a after h
  simp at h

@[simp] theorem along_cons {a : α} :
    Along step C s (a :: as) ↔ C [] s a ∧ Along step (fun h => C (a :: h)) (step s a) as := by
  constructor
  · intro h
    refine ⟨h [] a as rfl, ?_⟩
    rintro before b after rfl
    exact h (a :: before) b after rfl
  · rintro ⟨h₀, h⟩ before b after e
    cases before with
    | nil => cases e; exact h₀
    | cons c before => cases e; exact h before b after rfl

/-- If the steps that meet `C` keep `P`, then `P` holds all along a run whose steps all meet `C`. -/
theorem always_of_along (h0 : P [] s)
    (hs : ∀ h a, P h (run step s h) → C h (run step s h) a → P (h ++ [a]) (step (run step s h) a))
    (hC : Along step C s as) : Always step P s as := by
  intro before after e
  subst e
  replace hC := hC.init
  induction before using List.reverseRecOn with
  | nil => exact h0
  | append_singleton before a ih => rw [run_concat]; exact hs before a (ih hC.init) hC.concat

/-- If a step that breaks `C` breaks `P`, then every step of a run that keeps `P` all along meets `C`. -/
theorem along_of_always
    (hs : ∀ h a, P h (run step s h) → P (h ++ [a]) (step (run step s h) a) → C h (run step s h) a)
    (hP : Always step P s as) : Along step C s as := by
  rintro before a after rfl
  have h₁ : P before (run step s before) := hP before (a :: after) rfl
  have h₂ := hP (before ++ [a]) after (by simp)
  rw [run_concat] at h₂
  exact hs before a h₁ h₂

end Idnx
