import Mathlib.Data.Finset.Card
import Mathlib.Data.Finset.Union

/-!
# Searching in waves

Everything that is asked may name more to ask (`next`), which is queued unless it was queued before (`enqueue`). The
search asks everything that is queued, then everything that was queued meanwhile, and so on: after `k` waves it has
asked `reached k` (`AtWave.step`), and it ends where a wave adds nothing (`AtWave.stable`).

Under a budget, the search is cut short with work left either within a wave or between two (`SpentBetweenWaves`).
-/

namespace Idnx

variable {α : Type} [DecidableEq α]

/-! ## The queue -/

/-- Queues what was not queued before. -/
def enqueue (s : Finset α × List α) (a : α) : Finset α × List α :=
  if a ∈ s.1 then s else (insert a s.1, s.2 ++ [a])

/-- The queue holds what was asked and what waits, each once. -/
structure Queue (asked : List α) (s : Finset α × List α) : Prop where
  queued : s.1 = (asked ++ s.2).toFinset
  nodup : (asked ++ s.2).Nodup

theorem Queue.enqueue {asked : List α} {s : Finset α × List α} (h : Queue asked s) (a : α) :
    Queue asked (enqueue s a) := by
  unfold Idnx.enqueue
  split
  case isTrue => exact h
  case isFalse hnew =>
    rw [h.queued, List.mem_toFinset] at hnew
    refine ⟨?_, ?_⟩
    · ext b
      simp only [h.queued, Finset.mem_insert, List.mem_toFinset, List.mem_append, List.mem_singleton]
      tauto
    · rw [← List.append_assoc]
      exact List.nodup_append'.mpr ⟨h.nodup, List.nodup_singleton a, by simpa using hnew⟩

theorem Queue.foldl {asked : List α} {s : Finset α × List α} (h : Queue asked s) (l : List α) :
    Queue asked (l.foldl Idnx.enqueue s) := by
  induction l generalizing s with
  | nil => exact h
  | cons a l ih => exact ih (h.enqueue a)

theorem queued_enqueue (s : Finset α × List α) (a : α) : (enqueue s a).1 = insert a s.1 := by
  unfold enqueue
  split
  case isTrue hold => rw [Finset.insert_eq_of_mem hold]
  case isFalse => rfl

theorem queued_foldl (s : Finset α × List α) (l : List α) : (l.foldl enqueue s).1 = s.1 ∪ l.toFinset := by
  induction l generalizing s with
  | nil => rw [List.foldl_nil, List.toFinset_nil, Finset.union_empty]
  | cons a l ih =>
    rw [List.foldl_cons, ih, queued_enqueue, List.toFinset_cons, Finset.union_insert, Finset.insert_union]

/-! ## Waves -/

section Waves

variable (next : α → List α) (start : Finset α)

/-- What is asked in the first `k` waves. -/
def reached : Nat → Finset α
  | 0 => ∅
  | k + 1 => start ∪ (reached k).biUnion fun a => (next a).toFinset

theorem reached_one : reached next start 1 = start := by
  rw [reached, reached, Finset.biUnion_empty, Finset.union_empty]

theorem reached_subset_succ (k : Nat) : reached next start k ⊆ reached next start (k + 1) := by
  induction k with
  | zero => exact Finset.empty_subset _
  | succ k ih => exact Finset.union_subset_union_right (Finset.biUnion_subset_biUnion_of_subset_left _ ih)

theorem reached_mono : Monotone (reached next start) := monotone_nat_of_le_succ (reached_subset_succ next start)

variable {next start} {k : Nat}

/-- Where a wave adds nothing, no later one does. -/
theorem reached_stable (h : reached next start (k + 1) = reached next start k) :
    ∀ n, k ≤ n → reached next start n = reached next start k := by
  intro n hn
  induction n, hn using Nat.le_induction with
  | base => rfl
  | succ n _ ih =>
    calc reached next start (n + 1) = start ∪ (reached next start n).biUnion fun a => (next a).toFinset := rfl
      _ = start ∪ (reached next start k).biUnion fun a => (next a).toFinset := by rw [ih]
      _ = reached next start k := h

/-- Waves with as many members have the same. -/
theorem reached_eq_of_card {m n : Nat} (h : m ≤ n)
    (hcard : (reached next start n).card ≤ (reached next start m).card) :
    reached next start n = reached next start m :=
  (Finset.eq_of_subset_of_card_le (reached_mono next start h) hcard).symm

/-! ## The search, between two waves -/

/-- After `k` waves: what was asked, and what waits to be asked next. -/
structure AtWave (next : α → List α) (start : Finset α) (k : Nat) (asked wave : List α) : Prop where
  earlier : asked.toFinset = reached next start k
  queued : (asked ++ wave).toFinset = reached next start (k + 1)
  nodup : (asked ++ wave).Nodup

variable {asked wave : List α}

theorem atWave_zero {l : List α} (hl : l.Nodup) : AtWave next l.toFinset 0 [] l := by
  refine ⟨rfl, ?_, hl⟩
  rw [List.nil_append, reached_one]

theorem AtWave.card_asked (h : AtWave next start k asked wave) : (reached next start k).card = asked.length := by
  rw [← h.earlier, List.toFinset_card_of_nodup (List.nodup_append.mp h.nodup).1]

theorem AtWave.card_queued (h : AtWave next start k asked wave) :
    (reached next start (k + 1)).card = asked.length + wave.length := by
  rw [← h.queued, List.toFinset_card_of_nodup h.nodup, List.length_append]

/-- With nothing to ask, everything was reached. -/
theorem AtWave.stable (h : AtWave next start k asked []) : reached next start (k + 1) = reached next start k := by
  rw [← h.queued, ← h.earlier, List.append_nil]

/-- **One wave.** Those that named anything are heard, in any order, and what they named is queued. -/
theorem AtWave.step (h : AtWave next start k asked wave) {heard : List α} (hheard : ∀ a ∈ heard, a ∈ wave)
    (hsilent : ∀ a ∈ wave, a ∉ heard → next a = []) :
    AtWave next start (k + 1) (asked ++ wave)
      ((heard.flatMap next).foldl enqueue ((asked ++ wave).toFinset, [])).2 := by
  have hqueue : Queue (asked ++ wave) ((heard.flatMap next).foldl enqueue ((asked ++ wave).toFinset, [])) :=
    Queue.foldl ⟨by rw [List.append_nil], by rw [List.append_nil]; exact h.nodup⟩ _
  refine ⟨h.queued, ?_, hqueue.nodup⟩
  rw [← hqueue.queued, queued_foldl]
  show (asked ++ wave).toFinset ∪ (heard.flatMap next).toFinset =
    start ∪ (reached next start (k + 1)).biUnion fun a => (next a).toFinset
  have hearlier : (reached next start k).biUnion (fun a => (next a).toFinset) ⊆ reached next start (k + 1) :=
    Finset.subset_union_right
  ext b
  simp only [Finset.mem_union, List.mem_toFinset, List.mem_flatMap, Finset.mem_biUnion]
  constructor
  · rintro (hb | ⟨a, ha, hb⟩)
    · rw [← List.mem_toFinset, h.queued, reached, Finset.mem_union, Finset.mem_biUnion] at hb
      rcases hb with hb | ⟨a, ha, hb⟩
      · exact .inl hb
      · exact .inr ⟨a, reached_subset_succ next start k ha, List.mem_toFinset.mp hb⟩
    · refine .inr ⟨a, ?_, hb⟩
      rw [← h.queued, List.mem_toFinset, List.mem_append]
      exact .inr (hheard a ha)
  · rintro (hb | ⟨a, ha, hb⟩)
    · refine .inl ?_
      rw [← List.mem_toFinset, h.queued]
      exact Finset.mem_union_left _ hb
    · rw [← h.queued, List.mem_toFinset, List.mem_append] at ha
      rcases ha with ha | ha
      · refine .inl ?_
        rw [← List.mem_toFinset, h.queued]
        refine hearlier (Finset.mem_biUnion.mpr ⟨a, ?_, List.mem_toFinset.mpr hb⟩)
        rw [← h.earlier]
        exact List.mem_toFinset.mpr ha
      · by_cases hh : a ∈ heard
        · exact .inr ⟨a, hh, hb⟩
        · rw [hsilent a ha hh] at hb
          cases hb

/-! ## A budget -/

/-- The budget is used up exactly when a wave is through, and that wave names more. -/
def SpentBetweenWaves (next : α → List α) (start : Finset α) (budget : Nat) : Prop :=
  ∃ k, (reached next start k).card = budget ∧ reached next start (k + 1) ≠ reached next start k

/-- A search that ends for want of work does not use up its budget between waves. -/
theorem AtWave.not_spent (h : AtWave next start k asked []) {budget : Nat} (hle : asked.length ≤ budget) :
    ¬ SpentBetweenWaves next start budget := by
  rintro ⟨j, hcard, hmore⟩
  have hbefore : j < k := by
    by_contra hafter
    have hj := reached_stable h.stable j (Nat.le_of_not_lt hafter)
    have hj' := reached_stable h.stable (j + 1) (Nat.le_succ_of_le (Nat.le_of_not_lt hafter))
    exact hmore (hj'.trans hj.symm)
  refine hmore (reached_eq_of_card (Nat.le_succ j) ?_)
  calc (reached next start (j + 1)).card ≤ (reached next start k).card :=
        Finset.card_le_card (reached_mono next start hbefore)
    _ = asked.length := h.card_asked
    _ ≤ budget := hle
    _ = (reached next start j).card := hcard.symm

/-- A search with work left and no budget has used it up between waves. -/
theorem AtWave.spent (h : AtWave next start k asked wave) (hwave : wave ≠ []) :
    SpentBetweenWaves next start asked.length := by
  refine ⟨k, h.card_asked, fun hsame => ?_⟩
  have hcard := h.card_queued
  rw [hsame, h.card_asked] at hcard
  exact hwave (List.length_eq_zero_iff.mp (by omega))

/-- A budget that is used up within a wave is not used up between waves. -/
theorem AtWave.not_spent_within (h : AtWave next start k asked wave) {budget : Nat} (hlow : asked.length < budget)
    (hhigh : budget < asked.length + wave.length) : ¬ SpentBetweenWaves next start budget := by
  rintro ⟨j, hcard, -⟩
  rcases Nat.lt_or_ge k j with hj | hj
  · have hle := Finset.card_le_card (reached_mono next start hj)
    rw [h.card_queued] at hle
    omega
  · have hle := Finset.card_le_card (reached_mono next start hj)
    rw [h.card_asked] at hle
    omega

end Waves

end Idnx
