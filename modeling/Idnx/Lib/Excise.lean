import Idnx.Lib.Replace
import Mathlib.Data.List.Infix

/-!
# Cutting blocks out of a list

A block begins with an opening mark and ends with the closing mark that belongs to it; a block that is never closed
takes the rest. `excise` puts one separator in the place of every block. Marks are looked for in the list as `fold`
writes it, such as in one case. A list that is laid out in plain parts and blocks comes out as the plain parts with
separators between them (`excise_laid`), whatever is inside the blocks.
-/

namespace Idnx

section Find

variable {α : Type} [DecidableEq α]

/-- How many elements stand before the first `mark`, if there is one. -/
def findMark (mark : List α) : List α → Option Nat
  | [] => if mark = [] then some 0 else none
  | a :: l => if mark.isPrefixOf (a :: l) then some 0 else (findMark mark l).map (· + 1)

variable {mark l : List α}

theorem findMark_isPrefix (h : mark <+: l) : findMark mark l = some 0 := by
  cases l with
  | nil =>
    obtain rfl := List.prefix_nil.mp h
    rfl
  | cons a l => exact if_pos (List.isPrefixOf_iff_prefix.mpr h)

theorem findMark_length_le {n : Nat} (h : findMark mark l = some n) : mark.length ≤ l.length := by
  induction l generalizing n with
  | nil =>
    unfold findMark at h
    split_ifs at h with hmark
    rw [hmark]
  | cons a l ih =>
    rw [findMark] at h
    split_ifs at h with hstart
    · exact (List.isPrefixOf_iff_prefix.mp hstart).length_le
    · obtain ⟨m, hm, -⟩ := Option.map_eq_some_iff.mp h
      exact Nat.le_succ_of_le (ih hm)

/-- What is found first stays first when something is appended. -/
theorem findMark_append {n : Nat} (h : findMark mark l = some n) (rest : List α) :
    findMark mark (l ++ rest) = some n := by
  induction l generalizing n with
  | nil =>
    unfold findMark at h
    split_ifs at h with hmark
    obtain rfl := Option.some.inj h
    exact findMark_isPrefix (hmark ▸ List.nil_prefix)
  | cons a l ih =>
    rw [findMark] at h
    rw [List.cons_append, findMark]
    by_cases hstart : mark.isPrefixOf (a :: l) = true
    · rw [if_pos hstart] at h
      have hlong : mark.isPrefixOf (a :: (l ++ rest)) = true := by
        rw [List.isPrefixOf_iff_prefix] at hstart ⊢
        exact hstart.trans (List.prefix_append (a :: l) rest)
      rw [if_pos hlong, h]
    · rw [if_neg hstart] at h
      obtain ⟨m, hm, rfl⟩ := Option.map_eq_some_iff.mp h
      have hlen : mark.length ≤ l.length := findMark_length_le hm
      have hlong : ¬mark.isPrefixOf (a :: (l ++ rest)) = true := by
        rw [List.isPrefixOf_iff_prefix] at hstart ⊢
        intro hprefix
        exact hstart (List.prefix_of_prefix_length_le hprefix (List.prefix_append (a :: l) rest)
          (by rw [List.length_cons]; omega))
      rw [if_neg hlong, ih hm]
      rfl

end Find

/-! ## Blocks -/

/-- The marks at the two ends of a block. -/
structure BlockMarks (α : Type) where
  opening : List α
  closing : List α

section Excise

variable {α : Type} [DecidableEq α] (fold : α → α) (marks : List (BlockMarks α)) (sep : α)

/-- How long the block is that stands at the front of a list, if one does. -/
def blockLength (l : List α) : Option Nat :=
  marks.findSome? fun mark =>
    if mark.opening.isPrefixOf (l.map fold) then
      some (((findMark mark.closing (l.map fold)).map (· + mark.closing.length)).getD l.length)
    else none

/-- A separator in the place of every block; the first `skip` elements belong to one that has begun. -/
def exciseFrom : Nat → List α → List α
  | _, [] => []
  | skip + 1, _ :: l => exciseFrom skip l
  | 0, a :: l =>
    match blockLength fold marks (a :: l) with
    | some n => sep :: exciseFrom (n - 1) l
    | none => a :: exciseFrom 0 l

def excise (l : List α) : List α := exciseFrom fold marks sep 0 l

end Excise

section Laid

variable {α : Type} [DecidableEq α] {fold : α → α} {marks : List (BlockMarks α)} {sep : α} {l block rest : List α}

theorem exciseFrom_eq (skip : Nat) (l : List α) :
    exciseFrom fold marks sep skip l = excise fold marks sep (l.drop skip) := by
  induction l generalizing skip with
  | nil => cases skip <;> rfl
  | cons a l ih =>
    cases skip with
    | zero => rfl
    | succ skip => exact ih skip

/-- Whether an opening mark stands at the front. -/
theorem blockLength_eq_none :
    blockLength fold marks l = none ↔ ∀ mark ∈ marks, ¬mark.opening <+: l.map fold := by
  unfold blockLength
  rw [List.findSome?_eq_none_iff]
  refine forall₂_congr fun mark _ => ?_
  rw [← List.isPrefixOf_iff_prefix]
  split_ifs with h <;> simp [h]

theorem excise_cons {a : α} (h : blockLength fold marks (a :: l) = none) :
    excise fold marks sep (a :: l) = a :: excise fold marks sep l := by
  unfold excise
  rw [exciseFrom, h]

theorem excise_block (hne : block ≠ []) (h : blockLength fold marks (block ++ rest) = some block.length) :
    excise fold marks sep (block ++ rest) = sep :: excise fold marks sep rest := by
  obtain ⟨a, block, rfl⟩ := List.exists_cons_of_ne_nil hne
  unfold excise
  rw [List.cons_append, exciseFrom, ← List.cons_append, h]
  dsimp only
  rw [exciseFrom_eq, List.length_cons, Nat.add_sub_cancel, List.drop_left]
  rfl

/-- Every mark opens with an element that stands nowhere else in it, and none begins with another. -/
structure Lexical (m : α) (marks : List (BlockMarks α)) : Prop where
  led : ∀ mark ∈ marks, ∃ rest, mark.opening = m :: rest ∧ m ∉ rest
  apart : ∀ a ∈ marks, ∀ b ∈ marks, a.opening <+: b.opening → a = b

/-- No block begins in the list. -/
def Plain (fold : α → α) (marks : List (BlockMarks α)) (l : List α) : Prop :=
  ∀ mark ∈ marks, ¬mark.opening <:+: l.map fold

instance : Decidable (Plain fold marks l) :=
  inferInstanceAs (Decidable (∀ mark ∈ marks, ¬mark.opening <:+: l.map fold))

/-- One block: it ends with the first closing mark in it. -/
def IsBlock (fold : α → α) (marks : List (BlockMarks α)) (block : List α) : Prop :=
  ∃ mark ∈ marks, mark.opening <+: block.map fold ∧
    ∃ n, findMark mark.closing (block.map fold) = some n ∧ n + mark.closing.length = block.length

theorem IsBlock.ne_nil {m : α} (hmarks : Lexical m marks) (h : IsBlock fold marks block) : block ≠ [] := by
  obtain ⟨mark, hmark, hopen, -⟩ := h
  obtain ⟨rest, hled, -⟩ := hmarks.led mark hmark
  rintro rfl
  rw [hled, List.map_nil, List.prefix_nil] at hopen
  cases hopen

/-- The block goes as far as its own closing mark, whatever follows. -/
theorem IsBlock.blockLength {m : α} (hmarks : Lexical m marks) (h : IsBlock fold marks block) (rest : List α) :
    blockLength fold marks (block ++ rest) = some block.length := by
  obtain ⟨mark, hmark, hopen, n, hn, hlen⟩ := h
  have hlong : mark.opening <+: (block ++ rest).map fold := by
    rw [List.map_append]
    exact hopen.trans (List.prefix_append _ _)
  have hval : some block.length = if mark.opening.isPrefixOf ((block ++ rest).map fold) then
      some (((findMark mark.closing ((block ++ rest).map fold)).map (· + mark.closing.length)).getD
        (block ++ rest).length) else none := by
    rw [if_pos (List.isPrefixOf_iff_prefix.mpr hlong), List.map_append, findMark_append hn, Option.map_some,
      Option.getD_some, hlen]
  cases hfound : Idnx.blockLength fold marks (block ++ rest) with
  | none => exact absurd hlong (blockLength_eq_none.mp hfound mark hmark)
  | some k =>
    -- the opening mark that is found is the block's own
    obtain ⟨other, hother, hk⟩ := List.exists_of_findSome?_eq_some hfound
    split_ifs at hk with hstart
    have hstart := List.isPrefixOf_iff_prefix.mp hstart
    have hsame : other = mark := by
      rcases Nat.le_total other.opening.length mark.opening.length with hle | hle
      · exact hmarks.apart other hother mark hmark (List.prefix_of_prefix_length_le hstart hlong hle)
      · exact (hmarks.apart mark hmark other hother (List.prefix_of_prefix_length_le hlong hstart hle)).symm
    subst hsame
    rw [List.map_append, findMark_append hn, Option.map_some, Option.getD_some, hlen] at hk
    exact hk.symm

/-- Plain elements stay as they are, up to the end or to what the next block opens with. -/
theorem excise_plain {m : α} (hmarks : Lexical m marks) {plain : List α} (h : Plain fold marks plain)
    (hrest : ∀ x ∈ rest.head?, fold x = m) :
    excise fold marks sep (plain ++ rest) = plain ++ excise fold marks sep rest := by
  induction plain with
  | nil => rfl
  | cons a plain ih =>
    have htail : Plain fold marks plain := fun mark hmark hwithin =>
      h mark hmark (hwithin.trans (by rw [List.map_cons]; exact (List.suffix_cons _ _).isInfix))
    have hfront : blockLength fold marks (a :: (plain ++ rest)) = none := by
      rw [blockLength_eq_none]
      intro mark hmark hopen
      obtain ⟨later, hled, hm⟩ := hmarks.led mark hmark
      refine h mark hmark (List.IsPrefix.isInfix ?_)
      rw [hled, List.map_cons, List.map_append, List.cons_prefix_cons] at hopen
      rw [hled, List.map_cons, List.cons_prefix_cons]
      refine ⟨hopen.1, ?_⟩
      cases rest with
      | nil => simpa using hopen.2
      | cons x rest =>
        have hx : fold x = m := hrest x rfl
        rw [List.map_cons, hx] at hopen
        exact isPrefix_of_append_cons hm hopen.2
    rw [List.cons_append, excise_cons hfront, ih htail, List.cons_append]

/-- A list laid out in plain parts, a block behind each, and a plain rest. -/
structure Laid (α : Type) where
  parts : List (List α × List α)
  rest : List α

def Laid.toList (laid : Laid α) : List α := laid.parts.flatMap (fun part => part.1 ++ part.2) ++ laid.rest

/-- The plain parts with separators between them. -/
def Laid.plain (sep : α) (laid : Laid α) : List α := laid.parts.flatMap (fun part => part.1 ++ [sep]) ++ laid.rest

structure Laid.Fits (fold : α → α) (marks : List (BlockMarks α)) (laid : Laid α) : Prop where
  parts : ∀ part ∈ laid.parts, Plain fold marks part.1 ∧ IsBlock fold marks part.2
  rest : Plain fold marks laid.rest

/-- **Only the plain parts are left**, whatever is inside the blocks. -/
theorem excise_laid {m : α} (hmarks : Lexical m marks) {laid : Laid α} (h : laid.Fits fold marks) :
    excise fold marks sep laid.toList = laid.plain sep := by
  obtain ⟨parts, rest⟩ := laid
  obtain ⟨hparts, hrest⟩ := h
  unfold Laid.toList Laid.plain
  dsimp only at hparts hrest ⊢
  induction parts with
  | nil =>
    rw [List.flatMap_nil, List.flatMap_nil, List.nil_append]
    calc excise fold marks sep rest = excise fold marks sep (rest ++ []) := by rw [List.append_nil]
      _ = rest ++ excise fold marks sep [] := excise_plain hmarks hrest nofun
      _ = rest := List.append_nil rest
  | cons part parts ih =>
    obtain ⟨⟨hplain, hblock⟩, hparts⟩ := List.forall_mem_cons.mp hparts
    have hhead : ∀ more, ∀ x ∈ (part.2 ++ more).head?, fold x = m := by
      intro more x hx
      obtain ⟨b, block, hb⟩ := List.exists_cons_of_ne_nil (hblock.ne_nil hmarks)
      obtain ⟨mark, hmark, hopen, -⟩ := hblock
      obtain ⟨later, hled, -⟩ := hmarks.led mark hmark
      rw [hb] at hx hopen
      obtain rfl : b = x := Option.some.inj hx
      rw [hled, List.map_cons, List.cons_prefix_cons] at hopen
      exact hopen.1.symm
    rw [List.flatMap_cons, List.flatMap_cons, List.append_assoc, List.append_assoc, excise_plain hmarks hplain
      (hhead _), excise_block (hblock.ne_nil hmarks) (hblock.blockLength hmarks _), ih hparts]
    simp

end Laid

end Idnx
