import Idnx.Lib.Outcome

/-!
# Walks over records

A list may be records, one behind the other: `rs.flatMap bytes`. Any list is such records and a rest that starts with
none (`exists_records`). A loop that steps behind the record in front of it steps behind all of them
(`loop_records`), and ends as it does at the rest (`loop_records_rest`). What it has then is what the records add up to:
a field that records overwrite is of the last one that does (`foldl_getLast`).
-/

namespace Idnx

open Outcome

variable {ε α β ρ σ : Type} {l : List α} {body : Nat × σ → Outcome ε (Turn (Nat × σ) β)} {bytes : ρ → List α}
  {f : σ → ρ → σ}

/-- **A walk over records**: if a turn at a record steps behind it, the turns at a sequence of records step behind
them all. -/
theorem loop_records (hstep : ∀ k r s, Holds l k (bytes r) → body (k, s) = .ok (.next (k + (bytes r).length, f s r)))
    (rs : List ρ) {k : Nat} (h : Holds l k (rs.flatMap bytes)) (s : σ) (fuel : Nat) :
    loop body (fuel + rs.length) (k, s) = loop body fuel (k + (rs.flatMap bytes).length, rs.foldl f s) := by
  induction rs generalizing k s with
  | nil => rfl
  | cons r rs ih =>
    rw [List.flatMap_cons] at h
    rw [List.length_cons, ← Nat.add_assoc, loop_next (hstep k r s h.left), ih h.right, List.flatMap_cons,
      List.length_append, Nat.add_assoc, List.foldl_cons]

theorem foldl_append_singleton (g : α → β) (l : List α) (out : List β) :
    l.foldl (fun out a => out ++ [g a]) out = out ++ l.map g := by
  induction l generalizing out with
  | nil => rw [List.foldl_nil, List.map_nil, List.append_nil]
  | cons a l ih => rw [List.foldl_cons, ih, List.map_cons, List.append_assoc, List.singleton_append]

/-- Records that are not empty are not more than the places of the list. -/
theorem length_le_of_holds (hpos : ∀ r, 0 < (bytes r).length) (rs : List ρ) :
    rs.length ≤ (rs.flatMap bytes).length := by
  induction rs with
  | nil => exact Nat.le_refl _
  | cons r rs ih =>
    have := hpos r
    rw [List.flatMap_cons, List.length_append, List.length_cons]
    omega

/-- **Every list is records and a rest** at the front of which there is none. -/
theorem exists_records (hpos : ∀ r, 0 < (bytes r).length) (l : List α) :
    ∃ (rs : List ρ) (rest : List α), l = rs.flatMap bytes ++ rest ∧ ∀ r more, rest ≠ bytes r ++ more := by
  induction hlen : l.length using Nat.strongRecOn generalizing l with
  | _ n ih =>
    by_cases hfront : ∃ r more, l = bytes r ++ more
    · obtain ⟨r, more, rfl⟩ := hfront
      have hr := hpos r
      rw [List.length_append] at hlen
      obtain ⟨rs, rest, rfl, hrest⟩ := ih more.length (by omega) more rfl
      exact ⟨r :: rs, rest, by rw [List.flatMap_cons, List.append_assoc], hrest⟩
    · refine ⟨[], l, rfl, fun r more h => hfront ⟨r, more, h⟩⟩

/-- **A record is one of them** iff it stands behind some of them: if a list tells which record it starts with, it is
records and a rest in one way only. -/
theorem mem_records_iff (hfree : ∀ {r r' : ρ} {x y}, bytes r ++ x = bytes r' ++ y → r = r') {rs : List ρ}
    {rest : List α} (hrest : ∀ r more, rest ≠ bytes r ++ more) (r : ρ) :
    r ∈ rs ↔
      ∃ (before : List ρ) (after : List α), rs.flatMap bytes ++ rest = before.flatMap bytes ++ bytes r ++ after := by
  constructor
  · intro hr
    obtain ⟨before, after, rfl⟩ := List.append_of_mem hr
    refine ⟨before, after.flatMap bytes ++ rest, ?_⟩
    rw [List.flatMap_append, List.flatMap_cons, List.append_assoc, List.append_assoc, List.append_assoc]
  · rintro ⟨before, after, h⟩
    induction rs generalizing before with
    | nil =>
      cases before with
      | nil => exact absurd h (hrest r after)
      | cons b before =>
        rw [List.flatMap_cons, List.append_assoc, List.append_assoc] at h
        exact absurd h (hrest b _)
    | cons a rs ih =>
      cases before with
      | nil =>
        rw [List.flatMap_cons, List.append_assoc] at h
        exact List.mem_cons.mpr (.inl (hfree h).symm)
      | cons b before =>
        simp only [List.flatMap_cons, List.append_assoc] at h
        obtain rfl := hfree h
        rw [List.append_cancel_left_eq, ← List.append_assoc] at h
        exact List.mem_cons_of_mem _ (ih before h)

/-- A list is records and a rest in one way only. -/
theorem records_unique (hfree : ∀ {r r' : ρ} {x y}, bytes r ++ x = bytes r' ++ y → r = r') {rs rs' : List ρ}
    {rest rest' : List α} (hrest : ∀ r more, rest ≠ bytes r ++ more) (hrest' : ∀ r more, rest' ≠ bytes r ++ more)
    (h : rs.flatMap bytes ++ rest = rs'.flatMap bytes ++ rest') : rs = rs' := by
  induction rs generalizing rs' with
  | nil =>
    cases rs' with
    | nil => rfl
    | cons r rs' =>
      rw [List.flatMap_cons, List.append_assoc] at h
      exact absurd h (hrest r _)
  | cons r rs ih =>
    cases rs' with
    | nil =>
      rw [List.flatMap_cons, List.append_assoc] at h
      exact absurd h.symm (hrest' r _)
    | cons r' rs' =>
      simp only [List.flatMap_cons, List.append_assoc] at h
      obtain rfl := hfree h
      rw [ih (List.append_cancel_left h)]

/-- A loop over records goes on as it does at the rest. -/
theorem loop_records_rest (hpos : ∀ r, 0 < (bytes r).length)
    (hstep : ∀ k r s, Holds l k (bytes r) → body (k, s) = .ok (.next (k + (bytes r).length, f s r))) {start : Nat}
    (hstart : start ≤ l.length) {rs : List ρ} {rest : List α} (h : l.drop start = rs.flatMap bytes ++ rest) (s : σ) :
    ∃ fuel k, loop body (l.length + 1) (start, s) = loop body (fuel + 1) (k, rs.foldl f s) ∧
      k ≤ l.length ∧ l.drop k = rest := by
  have hholds := holds_of_drop hstart h
  have hfew := length_le_of_holds hpos rs
  have hlen := congrArg List.length h
  rw [List.length_drop, List.length_append] at hlen
  obtain ⟨fuel, hfuel⟩ := Nat.exists_eq_add_of_le (show rs.length ≤ l.length by omega)
  refine ⟨fuel, start + (rs.flatMap bytes).length, ?_, by omega, ?_⟩
  · rw [hfuel, show rs.length + fuel + 1 = fuel + 1 + rs.length by omega, loop_records hstep rs hholds]
  · rw [← List.drop_drop, h, List.drop_left]

/-! ## What a walk adds up -/

/-- A field that each element may overwrite has the value of the last one that does. -/
theorem foldl_getLast {σ α β γ : Type} {g : σ → α → σ} {p : σ → Option γ} {v : α → Option β} {f : β → γ}
    (hstep : ∀ s a, p (g s a) = ((v a).map f <|> p s)) (l : List α) (s : σ) :
    p (l.foldl g s) = ((l.filterMap v).getLast?.map f <|> p s) := by
  induction l generalizing s with
  | nil => rfl
  | cons a l ih =>
    rw [List.foldl_cons, ih, hstep]
    cases hv : v a with
    | none => simp [hv]
    | some b =>
      rw [List.filterMap_cons_some hv, List.getLast?_cons]
      cases (l.filterMap v).getLast? <;> simp

/-- A field that each element extends has what they all add. -/
theorem foldl_flatMap {σ α γ : Type} {g : σ → α → σ} {p : σ → List γ} {v : α → List γ}
    (hstep : ∀ s a, p (g s a) = p s ++ v a) (l : List α) (s : σ) : p (l.foldl g s) = p s ++ l.flatMap v := by
  induction l generalizing s with
  | nil => rw [List.foldl_nil, List.flatMap_nil, List.append_nil]
  | cons a l ih => rw [List.foldl_cons, ih, hstep, List.flatMap_cons, List.append_assoc]

/-- A field that no element changes is as it was. -/
theorem foldl_unchanged {σ α γ : Type} {g : σ → α → σ} {p : σ → γ} (hstep : ∀ s a, p (g s a) = p s) (l : List α)
    (s : σ) : p (l.foldl g s) = p s := by
  induction l generalizing s with
  | nil => rfl
  | cons a l ih => rw [List.foldl_cons, ih, hstep]

end Idnx
