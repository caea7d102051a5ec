import Mathlib.Data.List.Sort

/-!
# The order a stable sort leaves behind

A stable sort decides between two elements by the order it sorts with, and where that does not decide, by their places
in the list it was given (`GoesBefore`). What stands in order in the sorted list is therefore read off the list itself
(`sublist_insertionSort_iff`).
-/

namespace Idnx

variable {α : Type} {r : α → α → Prop}

/-- An element, with its place in the list, is put before another. -/
def GoesBefore (r : α → α → Prop) (x y : α × Nat) : Prop := r x.1 y.1 ∧ (r y.1 x.1 → x.2 < y.2)

theorem GoesBefore.irrefl (x : α × Nat) : ¬ GoesBefore r x x := fun h => Nat.lt_irrefl _ (h.2 h.1)

instance : Std.Irrefl (GoesBefore r) := ⟨GoesBefore.irrefl⟩

theorem GoesBefore.asymm {x y : α × Nat} (h : GoesBefore r x y) : ¬ GoesBefore r y x := by
  intro h'
  have hxy := h.2 h'.1
  have hyx := h'.2 h.1
  omega

instance : Std.Antisymm (GoesBefore r) := ⟨fun _ _ h h' => absurd h' h.asymm⟩

variable [DecidableRel r]

section Total

variable [IsTrans α r] [Std.Total r]

/-- An element whose place is before all others is put before those it does not exceed. -/
theorem pairwise_goesBefore_orderedInsert {x : α × Nat} {l : List (α × Nat)} (hl : l.Pairwise (GoesBefore r))
    (hx : ∀ y ∈ l, x.2 < y.2) :
    (l.orderedInsert (fun x y => r x.1 y.1) x).Pairwise (GoesBefore r) := by
  induction l with
  | nil => exact List.pairwise_singleton _ _
  | cons y l ih =>
    rw [List.pairwise_cons] at hl
    by_cases hxy : r x.1 y.1
    · rw [List.orderedInsert_cons, if_pos hxy, List.pairwise_cons, List.pairwise_cons]
      refine ⟨fun z hz => ?_, hl⟩
      refine ⟨?_, fun _ => hx z hz⟩
      rcases List.mem_cons.mp hz with rfl | hz
      · exact hxy
      · exact IsTrans.trans _ _ _ hxy (hl.1 z hz).1
    · rw [List.orderedInsert_cons, if_neg hxy, List.pairwise_cons]
      refine ⟨fun z hz => ?_, ih hl.2 fun z hz => hx z (List.mem_cons_of_mem _ hz)⟩
      rcases (List.mem_orderedInsert _).mp hz with rfl | hz
      · exact ⟨(Std.Total.total z.1 y.1).resolve_left hxy, fun h => absurd h hxy⟩
      · exact hl.1 z hz

theorem pairwise_goesBefore_zipIdx (l : List α) (n : Nat) :
    ((l.zipIdx n).insertionSort fun x y => r x.1 y.1).Pairwise (GoesBefore r) := by
  induction l generalizing n with
  | nil => exact List.Pairwise.nil
  | cons a l ih =>
    rw [List.zipIdx_cons, List.insertionSort_cons]
    refine pairwise_goesBefore_orderedInsert (ih (n + 1)) fun y hy => ?_
    rw [List.mem_insertionSort] at hy
    have hle := List.le_snd_of_mem_zipIdx hy
    exact hle

/-- **What stands in order after a stable sort**: elements of the list, each of which goes before the next ones. -/
theorem sublist_insertionSort_iff {l xs : List α} :
    xs.Sublist (l.insertionSort r) ↔
      ∃ ps : List (α × Nat), ps.map Prod.fst = xs ∧ (∀ p ∈ ps, l[p.2]? = some p.1) ∧ ps.Pairwise (GoesBefore r) := by
  have hsort : l.insertionSort r = ((l.zipIdx).insertionSort fun x y => r x.1 y.1).map Prod.fst := by
    rw [List.map_insertionSort (fun x y : α × Nat => r x.1 y.1) r Prod.fst _ fun _ _ _ _ => Iff.rfl,
      List.zipIdx_map_fst]
  have hpairwise := pairwise_goesBefore_zipIdx (r := r) l 0
  rw [hsort, List.sublist_map_iff]
  constructor
  · rintro ⟨ps, hps, rfl⟩
    refine ⟨ps, rfl, fun p hp => ?_, hpairwise.sublist hps⟩
    exact List.mem_zipIdx_iff_getElem?.mp ((List.mem_insertionSort _).mp (hps.subset hp))
  · rintro ⟨ps, rfl, hmem, hordered⟩
    refine ⟨ps, ?_, rfl⟩
    refine List.sublist_of_subperm_of_pairwise (List.subperm_of_subset hordered.nodup fun p hp =>
      ?_) hordered hpairwise
    exact (List.mem_insertionSort _).mpr (List.mem_zipIdx_iff_getElem?.mpr (hmem p hp))

end Total

end Idnx
