import Idnx.Lib.Text
import Mathlib.Data.List.TakeWhile

/-!
# Lines and words

A text is taken apart into its lines (`lines`), each line at the first mark in it (`splitOnceText`) or into the words
between white space (`words`). Lines that are written one after the other are read back (`lines_flatMap`), and so are
words with white space behind them (`words_cons`, `words_intercalate`).
-/

namespace Idnx.Text

/-! ## Marks -/

/-- The text before and after the first `mark`, if there is one. -/
def splitOnceText (mark : Text) : Text → Option (Text × Text)
  | [] => if mark = [] then some ([], []) else none
  | c :: cs =>
    if mark.isPrefixOf (c :: cs) then some ([], (c :: cs).drop mark.length)
    else (splitOnceText mark cs).map fun ab => (c :: ab.1, ab.2)

section Marks

variable {m : Char} {mark before t : Text}

/-- A mark is not found where its first character does not stand. -/
theorem splitOnceText_skip (h : m ∉ before) :
    splitOnceText (m :: mark) (before ++ t) = (splitOnceText (m :: mark) t).map fun ab => (before ++ ab.1, ab.2) := by
  induction before with
  | nil => simp
  | cons c before ih =>
    obtain ⟨hc, hbefore⟩ := not_or.mp fun hmem => h (List.mem_cons.mpr hmem)
    have hno : (m :: mark).isPrefixOf (c :: (before ++ t)) = false := by
      rw [List.isPrefixOf_cons_cons, beq_eq_false_iff_ne.mpr hc, Bool.false_and]
    rw [List.cons_append, splitOnceText, if_neg (by rw [hno]; decide), ih hbefore, Option.map_map]
    rfl

theorem splitOnceText_mark (mark t : Text) : splitOnceText mark (mark ++ t) = some ([], t) := by
  cases mark with
  | nil => cases t <;> rfl
  | cons m mark =>
    have hstart : (m :: mark).isPrefixOf (m :: (mark ++ t)) = true :=
      List.isPrefixOf_iff_prefix.mpr (List.prefix_append (m :: mark) t)
    rw [List.cons_append, splitOnceText, if_pos hstart, List.length_cons, List.drop_succ_cons, List.drop_left]

/-- A text is cut at the first mark. -/
theorem splitOnceText_append (h : m ∉ before) :
    splitOnceText (m :: mark) (before ++ (m :: mark ++ t)) = some (before, t) := by
  rw [splitOnceText_skip h, splitOnceText_mark, Option.map_some, List.append_nil]

/-- Where the mark does not start it is looked for further on. -/
theorem splitOnceText_cons_eq_none {c : Char} :
    splitOnceText mark (c :: t) = none ↔ mark.isPrefixOf (c :: t) = false ∧ splitOnceText mark t = none := by
  rw [splitOnceText]
  cases mark.isPrefixOf (c :: t) with
  | false => simp
  | true => simp

end Marks

/-! ## Lines -/

/-- The text without a carriage return at its end. -/
def stripCr (t : Text) : Text := if t.getLast? = some '\r' then t.dropLast else t

/-- The lines of a text (`str::lines`); the last one need not be ended. -/
def lines (t : Text) : List Text :=
  (split '\n' t).dropLast.map stripCr ++ ((split '\n' t).getLast?.filter (· ≠ [])).toList

theorem lines_nil : lines [] = [] := by simp [lines, split]

theorem lines_cons {line : Text} (h : '\n' ∉ line) (t : Text) :
    lines (line ++ '\n' :: t) = stripCr line :: lines t := by
  have hsplit : split '\n' (line ++ '\n' :: t) = line :: split '\n' t :=
    List.splitOn_append_cons_self_of_not_mem h t
  have hne : split '\n' t ≠ [] := List.splitOn_ne_nil '\n' t
  rw [lines, hsplit, List.dropLast_cons_of_ne_nil hne, List.getLast?_cons_of_ne_nil hne]
  rfl

/-- How a line is ended. -/
inductive LineEnd where
  | lf
  | crlf
  deriving DecidableEq

def LineEnd.toText : LineEnd → Text
  | .lf => ['\n']
  | .crlf => ['\r', '\n']

theorem stripCr_of_not_mem {line : Text} (h : '\r' ∉ line) : stripCr line = line :=
  if_neg fun hlast => h (List.mem_of_getLast? hlast)

/-- **Lines that are written one after the other are read back.** -/
theorem lines_flatMap (eol : LineEnd) {ls : List Text} (h : ∀ line ∈ ls, '\n' ∉ line ∧ '\r' ∉ line) :
    lines (ls.flatMap (· ++ eol.toText)) = ls := by
  induction ls with
  | nil => exact lines_nil
  | cons line ls ih =>
    obtain ⟨⟨hn, hr⟩, hls⟩ := List.forall_mem_cons.mp h
    rw [List.flatMap_cons]
    cases eol with
    | lf =>
      rw [LineEnd.toText, List.append_assoc, List.singleton_append, lines_cons hn, stripCr_of_not_mem hr]
      exact congrArg (line :: ·) (ih hls)
    | crlf =>
      have hreturn : stripCr (line ++ ['\r']) = line := by simp [stripCr]
      have hcut := lines_cons (show '\n' ∉ line ++ ['\r'] by simpa using hn) (ls.flatMap (· ++ LineEnd.crlf.toText))
      rw [hreturn, ih hls, List.append_assoc, List.singleton_append] at hcut
      rw [show line ++ LineEnd.crlf.toText ++ ls.flatMap (· ++ LineEnd.crlf.toText) =
        line ++ '\r' :: '\n' :: ls.flatMap (· ++ LineEnd.crlf.toText) by rw [List.append_assoc]; rfl]
      exact hcut

/-! ## Words -/

/-- The words between white space (`str::split_whitespace`). -/
def words (t : Text) : List Text := (t.splitOnP isWhitespace).filter (· ≠ [])

/-- A word: not empty, and without white space. -/
def IsWord (w : Text) : Prop := w ≠ [] ∧ ∀ c ∈ w, isWhitespace c = false

theorem words_cons {w : Text} (h : IsWord w) {blank : Char} (hblank : isWhitespace blank = true) (t : Text) :
    words (w ++ blank :: t) = w :: words t := by
  rw [words, List.splitOnP_append_cons_of_forall_mem h.2 blank hblank, List.filter_cons_of_pos (by simpa using h.1)]
  rfl

theorem words_single {w : Text} (h : IsWord w) : words w = [w] := by
  rw [words, List.splitOnP_eq_singleton h.2, List.filter_cons_of_pos (by simpa using h.1), List.filter_nil]

/-- **Words with a blank between them are read back.** -/
theorem words_intercalate {ws : List Text} (h : ∀ w ∈ ws, IsWord w) : words (List.intercalate [' '] ws) = ws := by
  induction ws with
  | nil => rfl
  | cons w ws ih =>
    obtain ⟨hw, hws⟩ := List.forall_mem_cons.mp h
    cases ws with
    | nil => simpa using words_single hw
    | cons w' ws =>
      rw [List.intercalate_cons_cons, List.append_assoc, List.singleton_append, words_cons hw (by decide), ih hws]

/-- Blanks at the end of a text do not change its words. -/
theorem words_append_replicate {blank : Char} (hblank : isWhitespace blank = true) (n : Nat) (t : Text) :
    words (t ++ List.replicate n blank) = words t := by
  induction n with
  | zero => rw [List.replicate_zero, List.append_nil]
  | succ n ih =>
    rw [List.replicate_succ', ← List.append_assoc, words, List.splitOnP_append_cons _ _ hblank, List.filter_append,
      ← words, ih]
    exact List.append_nil _

/-- What holds of the characters of the words and of a blank holds of every character of their line. -/
theorem forall_mem_intercalate {P : Char → Prop} (hblank : P ' ') {ws : List Text} (h : ∀ w ∈ ws, ∀ c ∈ w, P c) :
    ∀ c ∈ List.intercalate [' '] ws, P c := by
  induction ws with
  | nil => exact nofun
  | cons w ws ih =>
    obtain ⟨hw, hws⟩ := List.forall_mem_cons.mp h
    cases ws with
    | nil => simpa using hw
    | cons w' ws =>
      rw [List.intercalate_cons_cons, List.append_assoc]
      exact List.forall_mem_append.mpr ⟨hw, List.forall_mem_cons.mpr ⟨hblank, ih hws⟩⟩

end Idnx.Text
