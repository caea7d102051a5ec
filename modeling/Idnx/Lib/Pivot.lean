import Idnx.Lib.Keyed
import Mathlib.Data.List.Induction
import Mathlib.Data.List.Nodup
import Mathlib.Logic.Function.Basic

/-!
# Rows from cells

A table may arrive cell by cell, each with the key of its row and its column, in any order. Joined in a map, every cell
adds to the row of its key what its column says. Where a row depends on its cells alone (`Joining`) and no place comes
twice, the row of a key is what its cells say, and there is one for every key that has a cell (`lookup_join`).
-/

namespace Idnx

/-- How the cells of a row make the row: one after the other, and what they say together. -/
structure Joining (C V E : Type) [DecidableEq C] where
  start : E
  read : E → C → V → E
  whole : (C → Option V) → E
  whole_none : whole (fun _ => none) = start
  whole_read : ∀ cells c v, cells c = none → read (whole cells) c v = whole (Function.update cells c (some v))

namespace Joining

variable {K C V E : Type} [DecidableEq K] [DecidableEq C] (joining : Joining C V E) {cells : List (K × C × V)} {k : K}

/-- Joins the cells row by row. -/
def join (cells : List (K × C × V)) : Map K E :=
  cells.foldl (fun rows cell => rows.upd cell.1 fun row => joining.read (row.getD joining.start) cell.2.1 cell.2.2) ∅

/-- The value at a place. -/
def cellAt (cells : List (K × C × V)) (k : K) (c : C) : Option V :=
  (cells.find? fun cell => cell.1 = k ∧ cell.2.1 = c).map fun cell => cell.2.2

/-- The place of a cell. -/
def place (cell : K × C × V) : K × C := (cell.1, cell.2.1)

theorem cellAt_eq_none {c : C} : cellAt cells k c = none ↔ (k, c) ∉ cells.map place := by
  unfold cellAt place
  rw [Option.map_eq_none_iff, List.find?_eq_none]
  constructor
  · intro hnone hmem
    obtain ⟨cell, hcell, hplace⟩ := List.mem_map.mp hmem
    obtain ⟨hk, hc⟩ := Prod.mk.inj hplace
    exact hnone cell hcell (decide_eq_true ⟨hk, hc⟩)
  · intro hmem cell hcell hat
    obtain ⟨hk, hc⟩ := of_decide_eq_true hat
    exact hmem (List.mem_map.mpr ⟨cell, hcell, by rw [hk, hc]⟩)

/-- The value at a place of a table without repetitions. -/
theorem cellAt_eq_some (h : (cells.map place).Nodup) {c : C} {v : V} :
    cellAt cells k c = some v ↔ (k, c, v) ∈ cells := by
  unfold cellAt
  rw [Option.map_eq_some_iff]
  constructor
  · rintro ⟨⟨k', c', v'⟩, hfind, rfl⟩
    obtain ⟨rfl, rfl⟩ : k' = k ∧ c' = c := by simpa using List.find?_some hfind
    exact List.mem_of_find?_eq_some hfind
  · intro hmem
    have hsome : (cells.find? fun cell => cell.1 = k ∧ cell.2.1 = c).isSome = true :=
      List.find?_isSome.mpr ⟨(k, c, v), hmem, by simp⟩
    obtain ⟨cell, hfind⟩ := Option.isSome_iff_exists.mp hsome
    obtain ⟨hk, hc⟩ : cell.1 = k ∧ cell.2.1 = c := by simpa using List.find?_some hfind
    have hsame : cell = (k, c, v) := by
      refine List.inj_on_of_nodup_map h (List.mem_of_find?_eq_some hfind) hmem ?_
      exact Prod.ext hk hc
    exact ⟨cell, hfind, by rw [hsame]⟩

theorem cellAt_concat_ne {cell : K × C × V} (hk : cell.1 ≠ k) : cellAt (cells ++ [cell]) k = cellAt cells k := by
  funext c
  unfold cellAt
  rw [List.find?_append, List.find?_singleton, if_neg (by simp [hk]), Option.or_none]

theorem cellAt_concat {cell : K × C × V} (hnew : place cell ∉ cells.map place) :
    cellAt (cells ++ [cell]) cell.1 = Function.update (cellAt cells cell.1) cell.2.1 (some cell.2.2) := by
  funext c
  by_cases hc : c = cell.2.1
  · have hnone := cellAt_eq_none.mpr hnew
    unfold cellAt at hnone ⊢
    rw [Option.map_eq_none_iff] at hnone
    rw [hc, Function.update_self, List.find?_append, hnone, List.find?_singleton, if_pos (by simp)]
    rfl
  · rw [Function.update_of_ne hc]
    unfold cellAt
    rw [List.find?_append, List.find?_singleton, if_neg (by simp [Ne.symm hc]), Option.or_none]

/-- **The row of a key is what its cells say**, and there is one for every key of a cell. -/
theorem lookup_join (h : (cells.map place).Nodup) (k : K) :
    AList.lookup k (joining.join cells) =
      if k ∈ cells.map Prod.fst then some (joining.whole (cellAt cells k)) else none := by
  induction cells using List.reverseRecOn generalizing k with
  | nil => rfl
  | append_singleton cells cell ih =>
    rw [List.map_append, List.map_singleton, List.nodup_append_comm, List.singleton_append, List.nodup_cons] at h
    obtain ⟨hnew, h⟩ := h
    have hjoin : joining.join (cells ++ [cell]) = (joining.join cells).upd cell.1 fun row =>
        joining.read (row.getD joining.start) cell.2.1 cell.2.2 := by
      unfold join
      rw [List.foldl_append]
      rfl
    rw [hjoin, Map.lookup_upd]
    by_cases hk : k = cell.1
    · subst hk
      have hbefore : (AList.lookup cell.1 (joining.join cells)).getD joining.start =
          joining.whole (cellAt cells cell.1) := by
        rw [ih h]
        split_ifs with hmem
        · rfl
        · have hnone : cellAt cells cell.1 = fun _ => none := by
            funext c
            refine cellAt_eq_none.mpr fun hplace => hmem ?_
            obtain ⟨other, hother, heq⟩ := List.mem_map.mp hplace
            exact List.mem_map.mpr ⟨other, hother, (Prod.mk.inj heq).1⟩
          rw [hnone, joining.whole_none]
          rfl
      have hmem : cell.1 ∈ (cells ++ [cell]).map Prod.fst := by simp
      rw [if_pos rfl, hbefore, joining.whole_read _ _ _ (cellAt_eq_none.mpr hnew), cellAt_concat hnew, if_pos hmem]
    · have hmem : k ∈ (cells ++ [cell]).map Prod.fst ↔ k ∈ cells.map Prod.fst := by
        rw [List.map_append, List.mem_append, List.map_singleton, List.mem_singleton, or_iff_left hk]
      rw [if_neg hk, cellAt_concat_ne (Ne.symm hk), ih h]
      exact (if_congr hmem rfl rfl).symm

end Joining

/-- The values of a map, key by key. -/
theorem Map.values_eq {K V : Type} [DecidableEq K] (m : Map K V) :
    m.values = m.keys.filterMap fun k => AList.lookup k m := by
  have hentries : ∀ e ∈ m.entries, AList.lookup e.1 m = some e.2 := fun e he => AList.mem_lookup_iff.mpr he
  unfold Map.values AList.keys List.keys
  rw [List.filterMap_map, ← List.filterMap_eq_map]
  exact List.filterMap_congr fun e he => (hentries e he).symm

end Idnx
