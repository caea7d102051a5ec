import Idnx.Fingerprint.Registries

/-!
# The vendor of an address

Reading either form of a registry enters its assignments one after the other (`parseIeeeCsv_rows`,
`parseIeeeText_registryText`), so that both make one map: it has under each key the last assignment with that key
(`vendor_lookup`). The keys that are tried for an address are those of the assignments that contain it
(`key_eq_iff`), and the longest is tried first.
-/

namespace Idnx

open Outcome

variable {ε : Type}

/-! ## Entering -/

/-- Enters assignments under their keys. -/
def enterAll (map : OuiIndex) (as : List IeeeAssignment) : OuiIndex :=
  as.foldl (fun map a => AList.insert a.key a.entry map) map

/-- The last assignment with a key. -/
def lastWith (as : List IeeeAssignment) (key : Nat × UInt64) : Option IeeeAssignment :=
  (as.filter fun a => a.key = key).getLast?

/-- Of assignments that are entered one after the other the last one with a key is found. -/
theorem lookup_foldl {g : OuiIndex → IeeeAssignment → OuiIndex} {key : Nat × UInt64}
    (hg : ∀ map a, AList.lookup key (g map a) = if key = a.key then some a.entry else AList.lookup key map)
    (as : List IeeeAssignment) (map : OuiIndex) :
    AList.lookup key (as.foldl g map) = ((lastWith as key).map IeeeAssignment.entry <|> AList.lookup key map) := by
  have hstep : ∀ (map : OuiIndex) (a : IeeeAssignment), AList.lookup key (g map a) =
      ((if a.key = key then some a else none : Option IeeeAssignment).map IeeeAssignment.entry <|>
        AList.lookup key map) := by
    intro map a
    rw [hg]
    by_cases h : a.key = key
    · rw [if_pos h, if_pos h.symm]
      rfl
    · rw [if_neg h, if_neg (Ne.symm h)]
      cases AList.lookup key map <;> rfl
  have hfilter : as.filterMap (fun a => if a.key = key then some a else none) = as.filter fun a => a.key = key := by
    rw [← List.filterMap_eq_filter]
    refine List.filterMap_congr fun a _ => ?_
    simp only [Option.guard, decide_eq_true_eq]
  rw [foldl_getLast hstep, hfilter]
  rfl

/-- A fold over a list goes on behind a beginning that returns. -/
theorem foldlM_append_of_ok {α σ : Type} {f : σ → α → Outcome ε σ} {l l' : List α} {s s' : σ}
    (h : l.foldlM f s = .ok s') : (l ++ l').foldlM f s = l'.foldlM f s' := by
  induction l generalizing s with
  | nil =>
    obtain rfl := Outcome.ok.inj h
    rfl
  | cons a l ih =>
    rw [List.foldlM_cons] at h
    obtain ⟨s₁, h₁, h⟩ := bind_eq_ok.mp h
    rw [List.cons_append, List.foldlM_cons, h₁, ok_bind, ih h]

/-! ## CSV -/

theorem readCsvRecord_csvRow (map : OuiIndex) (a : IeeeAssignment) :
    (readCsvRecord map a.csvRow : Outcome ε _) = .ok (AList.insert a.key a.entry map) := by
  have hname : a.registry.name.trim = a.registry.name := by cases a.registry <;> decide
  have hbits : prefixBitsFor (hexOf a.digits).byteLen = some a.registry.bits := by
    rw [hexOf_of_digits a.isDigit_of_mem_digits, byteLen_of_digits a.isDigit_of_mem_digits, a.length_digits,
      a.prefixBitsFor_digits]
  unfold readCsvRecord IeeeAssignment.csvRow
  dsimp only
  rw [hbits]
  dsimp only
  rw [if_neg a.organization_ne, hexOf_of_digits a.isDigit_of_mem_digits, a.prefixKey_digits, ok_bind, hname]
  rfl

/-- **The CSV form is entered record by record.** -/
theorem parseIeeeCsv_rows {records : Text → List (List Text)} {content : Text} {as : List IeeeAssignment}
    (h : records content = as.map IeeeAssignment.csvRow) (map : OuiIndex) :
    (parseIeeeCsv records content map : Outcome ε _) = .ok (enterAll map as) := by
  rw [parseIeeeCsv, h]
  clear h
  induction as generalizing map with
  | nil => rfl
  | cons a as ih =>
    rw [List.map_cons, List.foldlM_cons, readCsvRecord_csvRow, ok_bind]
    exact ih _

/-! ## Text -/

theorem trim_blank {c : Char} (h : Text.isWhitespace c = true) (t : Text) : Text.trim (c :: t) = Text.trim t := by
  rw [Text.trim, List.dropWhile_cons_of_pos h]
  rfl

/-- A word is trimmed out of the blanks behind it. -/
theorem trim_append_blanks {w blanks : Text} (hw : ∀ c ∈ w, Text.isWhitespace c = false)
    (hblanks : ∀ c ∈ blanks, Text.isWhitespace c = true) : Text.trim (w ++ blanks) = w := by
  have hkept : ∀ t : Text, (∀ c ∈ t, Text.isWhitespace c = false) → t.dropWhile Text.isWhitespace = t := by
    intro t ht
    cases t with
    | nil => rfl
    | cons c t => exact List.dropWhile_cons_of_neg (by simp [ht c List.mem_cons_self])
  have hdropped : blanks.dropWhile Text.isWhitespace = [] := List.dropWhile_eq_nil_iff.mpr hblanks
  have hfront : (w ++ blanks).dropWhile Text.isWhitespace = if w = [] then [] else w ++ blanks := by
    cases w with
    | nil => simpa using hdropped
    | cons c w =>
      rw [if_neg (List.cons_ne_nil c w), List.cons_append]
      exact List.dropWhile_cons_of_neg (by simp [hw c List.mem_cons_self])
  rw [Text.trim, hfront]
  split
  case isTrue hnil => rw [hnil]; rfl
  case isFalse =>
    rw [List.reverse_append, List.dropWhile_append_of_pos fun c hc => hblanks c (List.mem_reverse.mp hc),
      hkept w.reverse fun c hc => hw c (List.mem_reverse.mp hc), List.reverse_reverse]

/-- A line without marks changes nothing. -/
theorem readLine_plain {line : Text} (h : PlainLine line) (registry : Text) (state : Option Text × OuiIndex) :
    (readLine registry state line : Outcome ε _) = .ok state := by
  rw [readLine, h.no_hex]
  dsimp only
  rw [h.no_range]

theorem foldlM_readLine_plain {ls : List Text} (h : ∀ line ∈ ls, PlainLine line) (registry : Text)
    (state : Option Text × OuiIndex) : (ls.foldlM (readLine registry) state : Outcome ε _) = .ok state := by
  induction ls with
  | nil => rfl
  | cons line ls ih =>
    obtain ⟨hline, hls⟩ := List.forall_mem_cons.mp h
    rw [List.foldlM_cons, readLine_plain hline, ok_bind, ih hls]

theorem plainLine_nil : PlainLine [] := ⟨nofun, nofun, rfl, rfl⟩

namespace IeeeAssignment

variable (a : IeeeAssignment)

theorem hexOf_dashedOui : hexOf (a.dashedOui ++ ("   " : Text)) = hexDigits 6 a.oui := by
  have hkept : ∀ v, (hexDigits 2 v).filter Text.isHexDigit = hexDigits 2 v := fun v =>
    List.filter_eq_self.mpr fun c hc => (isDigit_of_mem hc).hex
  have hsix : hexDigits 6 a.oui = hexDigits 2 (a.oui / 65536) ++ hexDigits 2 (a.oui / 256) ++ hexDigits 2 a.oui := by
    rw [show 6 = 2 + 2 + 2 from rfl, hexDigits_add (2 + 2), hexDigits_add 2, Nat.div_div_eq_div_mul]
    rfl
  have hfilter : (a.dashedOui ++ ("   " : Text)).filter Text.isHexDigit = hexDigits 6 a.oui := by
    rw [dashedOui, List.filter_append, List.filter_append, List.filter_cons_of_neg (by decide), List.filter_append,
      List.filter_cons_of_neg (by decide), hkept, hkept, hkept, hsix]
    simp
    decide
  rw [hexOf, hfilter]
  exact (List.map_congr_left fun c hc => (isDigit_of_mem hc).upper).trans (List.map_id _)

/-- The first six digits and the ones behind them are the prefix. -/
theorem digits_eq : a.digits = hexDigits 6 a.oui ++ hexDigits a.registry.digits a.block := hexDigits_add _ _ _

/-- A line of the assignment: what stands before the mark, the mark, and the organization. -/
theorem trim_organization : Text.trim (("\t\t" : Text) ++ a.organization) = a.organization.trim := by
  rw [show ("\t\t" : Text) ++ a.organization = '\t' :: '\t' :: a.organization from rfl, trim_blank (by decide),
    trim_blank (by decide)]

/-- What the first line enters: of MA-L the whole assignment. -/
def enterHexLine (map : OuiIndex) : OuiIndex :=
  if a.registry = .maL then AList.insert a.key a.entry map else map

theorem mark_not_mem_dashedOui : '(' ∉ a.dashedOui ++ ("   " : Text) := by
  have hno : ∀ v, '(' ∉ hexDigits 2 v := fun v h => (isDigit_of_mem h).ne_mark.1 rfl
  simp [dashedOui, hno]

theorem readLine_hexLine (map : OuiIndex) (current : Option Text) :
    (readLine a.registry.name (current, map) (a.dashedOui ++ ("   (hex)\t\t" : Text) ++ a.organization) :
      Outcome ε _) = .ok (some (hexDigits 6 a.oui), a.enterHexLine map) := by
  have hline : a.dashedOui ++ ("   (hex)\t\t" : Text) ++ a.organization =
      (a.dashedOui ++ ("   " : Text)) ++ ('(' :: "hex)".toList ++ (("\t\t" : Text) ++ a.organization)) := by
    rw [List.append_assoc, List.append_assoc]
    rfl
  have hlen : (hexDigits 6 a.oui).byteLen = 6 := by
    rw [byteLen_of_digits fun _ hc => isDigit_of_mem hc, length_hexDigits]
  rw [hline, readLine, show ("(hex)" : Text) = '(' :: "hex)".toList from rfl,
    Text.splitOnceText_append a.mark_not_mem_dashedOui]
  dsimp only
  unfold readHexLine enterHexLine
  dsimp only
  rw [a.hexOf_dashedOui, a.trim_organization, if_neg (not_not.mpr hlen)]
  cases hregistry : a.registry with
  | maL =>
    have hdigits : hexDigits 6 a.oui = a.digits := by
      rw [a.digits_eq, hregistry, Registry.digits, hexDigits, List.append_nil]
    have hkey := a.prefixKey_digits (ε := ε)
    rw [hregistry, show Registry.bits .maL = 24 from rfl] at hkey
    have hpair : a.key = (24, a.key.2) := Prod.ext (by rw [key, hregistry]; rfl) rfl
    rw [if_pos ⟨by decide, a.organization_ne⟩, hdigits, hkey, ok_bind, if_pos rfl, hpair, entry, hregistry]
    rfl
  | maM =>
    rw [if_neg fun h => absurd h.1 (by decide), if_neg (by decide)]
  | maS =>
    rw [if_neg fun h => absurd h.1 (by decide), if_neg (by decide)]

/-! ## The range -/

/-- What stands before a dash that is the only one. -/
theorem takeWhile_dash {before after : Text} (h : '-' ∉ before) :
    (before ++ '-' :: after).takeWhile (· != '-') = before := by
  rw [List.takeWhile_append_of_pos fun c hc => by simpa using fun he : c = '-' => h (he ▸ hc),
    List.takeWhile_cons_of_neg (by decide), List.append_nil]

theorem commonPrefixLen_append {shared x y : Text} {c d : Char} (h : c ≠ d) :
    commonPrefixLen (shared ++ c :: x) (shared ++ d :: y) = shared.length := by
  unfold commonPrefixLen
  induction shared with
  | nil =>
    rw [List.nil_append, List.nil_append, List.zip_cons_cons, List.takeWhile_cons_of_neg (by simpa using h)]
    rfl
  | cons e shared ih =>
    rw [List.cons_append, List.cons_append, List.zip_cons_cons, List.takeWhile_cons_of_pos (by simp), List.length_cons,
      ih, List.length_cons]

/-- The two ends of a range. -/
def rangeStart : Text := hexDigits a.registry.digits a.block ++ List.replicate (6 - a.registry.digits) '0'

def rangeStop : Text := hexDigits a.registry.digits a.block ++ List.replicate (6 - a.registry.digits) 'F'

theorem range_eq (h : a.registry ≠ .maL) : a.range = a.rangeStart ++ '-' :: a.rangeStop := by
  unfold range rangeStart rangeStop
  cases hregistry : a.registry with
  | maL => exact absurd hregistry h
  | maM => simp
  | maS => simp

theorem isDigit_of_mem_rangeStart : ∀ c ∈ a.rangeStart, IsDigit c :=
  List.forall_mem_append.mpr ⟨fun _ hc => isDigit_of_mem hc,
    fun _ hc => (List.eq_of_mem_replicate hc) ▸ isDigit_upperDigit 0 (by decide)⟩

theorem isDigit_of_mem_rangeStop : ∀ c ∈ a.rangeStop, IsDigit c :=
  List.forall_mem_append.mpr ⟨fun _ hc => isDigit_of_mem hc,
    fun _ hc => (List.eq_of_mem_replicate hc) ▸ isDigit_upperDigit 15 (by decide)⟩

/-- A range is written in digits, but for its dash. -/
theorem mem_range {c : Char} (h : c ∈ a.range) : IsDigit c ∨ c = '-' := by
  by_cases hregistry : a.registry = .maL
  · unfold range at h
    rw [hregistry] at h
    exact .inl (isDigit_of_mem h)
  · rw [a.range_eq hregistry] at h
    rcases List.mem_append.mp h with h | h
    · exact .inl (a.isDigit_of_mem_rangeStart c h)
    · rcases List.mem_cons.mp h with rfl | h
      · exact .inr rfl
      · exact .inl (a.isDigit_of_mem_rangeStop c h)

theorem not_mem_range {c : Char} (hdigit : ¬ IsDigit c) (hdash : c ≠ '-') : c ∉ a.range := fun h =>
  (a.mem_range h).elim hdigit hdash

theorem upper_range : Text.toAsciiUppercase a.range = a.range := by
  refine (List.map_congr_left fun c hc => ?_).trans (List.map_id _)
  rcases a.mem_range hc with h | rfl
  · exact h.upper
  · decide

theorem trim_range : Text.trim (a.range ++ ("     " : Text)) = a.range := by
  refine trim_append_blanks (fun c hc => ?_) (by decide)
  rcases a.mem_range hc with h | rfl
  · exact h.not_blank
  · decide

theorem trim_digits {t : Text} (h : ∀ c ∈ t, IsDigit c) : t.trim = t := by
  have htrim := @trim_append_blanks t [] (fun c hc => (h c hc).not_blank) nofun
  rwa [List.append_nil] at htrim

/-- **The range says how many digits it fixes**, and its first end begins with them. -/
theorem range_spec : significantDigits a.range = a.registry.digits ∧
    ∃ start, (Text.split '-' a.range).head? = some start ∧ (∀ c ∈ start, IsDigit c) ∧
      a.registry.digits ≤ start.length ∧ start.take a.registry.digits = hexDigits a.registry.digits a.block := by
  by_cases hregistry : a.registry = .maL
  · have hrange : a.range = hexDigits 6 a.oui := by
      unfold range
      rw [hregistry]
    have hdash : '-' ∉ hexDigits 6 a.oui := fun h => (isDigit_of_mem h).ne_mark.2.1 rfl
    have hdigits : a.registry.digits = 0 := by rw [hregistry]; rfl
    rw [hrange, hdigits]
    refine ⟨?_, _, Text.head?_split _ _, ?_, Nat.zero_le _, rfl⟩
    · rw [significantDigits, Text.splitOnce_eq_none.mpr hdash]
    · exact fun c hc => isDigit_of_mem ((List.takeWhile_prefix _).subset hc)
  · have hdash : '-' ∉ a.rangeStart := fun h => (a.isDigit_of_mem_rangeStart _ h).ne_mark.2.1 rfl
    obtain ⟨zeros, hzeros⟩ : ∃ zeros, 6 - a.registry.digits = zeros + 1 := by
      cases hr : a.registry with
      | maL => exact absurd hr hregistry
      | maM => exact ⟨4, rfl⟩
      | maS => exact ⟨2, rfl⟩
    rw [a.range_eq hregistry]
    refine ⟨?_, a.rangeStart, ?_, a.isDigit_of_mem_rangeStart, ?_, ?_⟩
    · rw [significantDigits, Text.splitOnce_append hdash]
      dsimp only
      rw [trim_digits a.isDigit_of_mem_rangeStart, trim_digits a.isDigit_of_mem_rangeStop, rangeStart, rangeStop,
        hzeros, List.replicate_succ, List.replicate_succ, commonPrefixLen_append (by decide), length_hexDigits]
    · rw [Text.head?_split, takeWhile_dash hdash]
    · rw [rangeStart, List.length_append, length_hexDigits]
      omega
    · rw [rangeStart, List.take_left' (length_hexDigits _ _)]

theorem readRangeLine_range (map : OuiIndex) :
    (readRangeLine a.registry.name map (hexDigits 6 a.oui) (a.range ++ ("     " : Text))
      (("\t\t" : Text) ++ a.organization) : Outcome ε _) = .ok (AList.insert a.key a.entry map) := by
  obtain ⟨hsignificant, start, hstart, hdigits, hle, htake⟩ := a.range_spec
  have hbits : prefixBitsFor ((24 + a.registry.digits * 4) / 4) = some a.registry.bits := by
    cases a.registry <;> rfl
  unfold readRangeLine
  dsimp only
  rw [a.trim_organization, if_neg a.organization_ne, a.trim_range, a.upper_range, hsignificant, hbits]
  dsimp only
  rw [hstart, Option.getD_some, byteLen_of_digits hdigits, Nat.min_eq_left hle, sliceBytes_of_digits hdigits hle,
    ok_bind, htake, ← a.digits_eq, a.prefixKey_digits, ok_bind]
  rfl

/-- The second line enters the assignment. -/
theorem readLine_rangeLine (map : OuiIndex) :
    (readLine a.registry.name (some (hexDigits 6 a.oui), map)
      (a.range ++ ("     (base 16)\t\t" : Text) ++ a.organization) : Outcome ε _) =
        .ok (some (hexDigits 6 a.oui), AList.insert a.key a.entry map) := by
  have hline : a.range ++ ("     (base 16)\t\t" : Text) ++ a.organization =
      (a.range ++ ("     " : Text)) ++ ('(' :: "base 16)".toList ++ (("\t\t" : Text) ++ a.organization)) := by
    rw [List.append_assoc, List.append_assoc]
    rfl
  have hmark : '(' ∉ a.range ++ ("     " : Text) := by
    intro h
    rcases List.mem_append.mp h with h | h
    · exact a.not_mem_range (fun hd => hd.ne_mark.1 rfl) (by decide) h
    · exact absurd h (by decide)
  -- the mark of the first line does not stand here: not in front, not in the mark, not in the name
  have hno : Text.splitOnceText "(hex)" (a.range ++ ("     (base 16)\t\t" : Text) ++ a.organization) = none := by
    have hbehind : '(' ∉ ("base 16)\t\t" : Text) := by decide
    have hrest := @Text.splitOnceText_skip '(' "hex)".toList _ a.organization hbehind
    rw [show '(' :: "hex)".toList = ("(hex)" : Text) from rfl, a.organization_plain.no_hex, Option.map_none] at hrest
    rw [hline, show ("(hex)" : Text) = '(' :: "hex)".toList from rfl, Text.splitOnceText_skip hmark]
    have hfront : Text.splitOnceText ('(' :: "hex)".toList)
        ('(' :: "base 16)".toList ++ (("\t\t" : Text) ++ a.organization)) = none := by
      rw [show '(' :: "base 16)".toList ++ (("\t\t" : Text) ++ a.organization) =
        '(' :: (("base 16)\t\t" : Text) ++ a.organization) from rfl, Text.splitOnceText_cons_eq_none]
      exact ⟨rfl, hrest⟩
    rw [hfront]
    rfl
  rw [readLine, hno]
  dsimp only
  rw [hline, show ("(base 16)" : Text) = '(' :: "base 16)".toList from rfl, Text.splitOnceText_append hmark]
  dsimp only
  rw [a.readRangeLine_range, ok_bind]
  rfl

/-- **The lines of an assignment enter it.** -/
theorem foldlM_textLines (map : OuiIndex) (current : Option Text) :
    (a.textLines.foldlM (readLine a.registry.name) (current, map) : Outcome ε _) =
      .ok (some (hexDigits 6 a.oui), AList.insert a.key a.entry (a.enterHexLine map)) := by
  rw [show a.textLines = _ :: _ :: (a.address ++ [[]]) from rfl, List.foldlM_cons, a.readLine_hexLine, ok_bind,
    List.foldlM_cons, a.readLine_rangeLine, ok_bind]
  refine foldlM_readLine_plain (fun line hline => ?_) _ _
  rcases List.mem_append.mp hline with h | h
  · exact a.address_plain line h
  · rw [List.mem_singleton.mp h]
    exact plainLine_nil

/-- Both lines together enter it once. -/
theorem lookup_enterLines (map : OuiIndex) (key : Nat × UInt64) :
    AList.lookup key (AList.insert a.key a.entry (a.enterHexLine map)) =
      if key = a.key then some a.entry else AList.lookup key map := by
  rw [Map.lookup_insert_ite]
  by_cases h : key = a.key
  · rw [if_pos h, if_pos h]
  · rw [if_neg h, if_neg h, enterHexLine]
    split
    · rw [Map.lookup_insert_ite, if_neg h]
    · rfl

theorem oneLine_textLines : ∀ line ∈ a.textLines, '\n' ∉ line ∧ '\r' ∉ line := by
  have hdigits : ∀ {c : Char}, c = '\n' ∨ c = '\r' → ∀ n v, c ∉ hexDigits n v := by
    rintro c (rfl | rfl) n v h
    · exact (isDigit_of_mem h).ne_mark.2.2.2.1 rfl
    · exact (isDigit_of_mem h).ne_mark.2.2.2.2 rfl
  have hlines : ∀ {c : Char}, c = '\n' ∨ c = '\r' → c ∉ a.dashedOui ++ ("   (hex)\t\t" : Text) ∧
      c ∉ a.range ++ ("     (base 16)\t\t" : Text) := by
    intro c hc
    have hrange : c ∉ a.range := by
      refine a.not_mem_range (fun hd => ?_) ?_
      · rcases hc with rfl | rfl
        · exact hd.ne_mark.2.2.2.1 rfl
        · exact hd.ne_mark.2.2.2.2 rfl
      · rcases hc with rfl | rfl <;> decide
    have hmarks : c ∉ ("   (hex)\t\t" : Text) ∧ c ∉ ("     (base 16)\t\t" : Text) ∧ c ≠ '-' := by
      rcases hc with rfl | rfl <;> decide
    refine ⟨?_, fun h => (List.mem_append.mp h).elim hrange hmarks.2.1⟩
    simp only [dashedOui, List.mem_append, List.mem_cons, hdigits hc, hmarks.2.2, hmarks.1, or_self, not_false_eq_true]
  have hlf := hlines (.inl rfl)
  have hcr := hlines (.inr rfl)
  have hplain := a.organization_plain
  intro line hline
  rw [show a.textLines = _ :: _ :: (a.address ++ [[]]) from rfl] at hline
  rcases List.mem_cons.mp hline with rfl | hline
  · exact ⟨fun h => (List.mem_append.mp h).elim hlf.1 hplain.no_lf,
      fun h => (List.mem_append.mp h).elim hcr.1 hplain.no_cr⟩
  rcases List.mem_cons.mp hline with rfl | hline
  · exact ⟨fun h => (List.mem_append.mp h).elim hlf.2 hplain.no_lf,
      fun h => (List.mem_append.mp h).elim hcr.2 hplain.no_cr⟩
  rcases List.mem_append.mp hline with h | h
  · exact ⟨(a.address_plain line h).no_lf, (a.address_plain line h).no_cr⟩
  · rw [List.mem_singleton.mp h]
    exact ⟨nofun, nofun⟩

end IeeeAssignment

/-- **The text form of a registry is entered line by line.** -/
theorem parseIeeeText_registryText (eol : Text.LineEnd) {header : List Text} (hheader : ∀ line ∈ header, PlainLine line)
    (registry : Registry) (as : List IeeeAssignment) (map : OuiIndex) :
    ∃ map', (parseIeeeText (registryText eol header registry as) map registry.name : Outcome ε _) = .ok map' ∧
      ∀ key, AList.lookup key map' = ((lastWith (as.filter (·.registry = registry)) key).map IeeeAssignment.entry <|>
        AList.lookup key map) := by
  have hlines : (registryText eol header registry as).lines =
      header ++ (as.filter (·.registry = registry)).flatMap IeeeAssignment.textLines := by
    refine Text.lines_flatMap eol (List.forall_mem_append.mpr ⟨fun line hline => ?_, fun line hline => ?_⟩)
    · exact ⟨(hheader line hline).no_lf, (hheader line hline).no_cr⟩
    · obtain ⟨a, -, hmem⟩ := List.mem_flatMap.mp hline
      exact a.oneLine_textLines line hmem
  have hregistry : ∀ a ∈ as.filter (·.registry = registry), a.registry = registry := fun a ha => by
    simpa using (List.mem_filter.mp ha).2
  rw [parseIeeeText, hlines, foldlM_append_of_ok (foldlM_readLine_plain hheader _ _)]
  generalize as.filter (·.registry = registry) = listed at hregistry
  have hfold : ∀ (current : Option Text) (map : OuiIndex), ∃ last,
      ((listed.flatMap IeeeAssignment.textLines).foldlM (readLine registry.name) (current, map) : Outcome ε _) =
        .ok (last, listed.foldl (fun map a => AList.insert a.key a.entry (a.enterHexLine map)) map) := by
    clear hlines
    induction listed with
    | nil => exact fun current map => ⟨current, rfl⟩
    | cons a listed ih =>
      intro current map
      obtain ⟨ha, hlisted⟩ := List.forall_mem_cons.mp hregistry
      have hblock := a.foldlM_textLines (ε := ε) map current
      rw [ha] at hblock
      obtain ⟨last, hlast⟩ := ih hlisted (some (hexDigits 6 a.oui)) (AList.insert a.key a.entry (a.enterHexLine map))
      exact ⟨last, by rw [List.flatMap_cons, foldlM_append_of_ok hblock, hlast, List.foldl_cons]⟩
  obtain ⟨last, hlast⟩ := hfold none map
  exact ⟨_, by rw [hlast]; rfl, fun key => lookup_foldl (fun map a => a.lookup_enterLines map key) _ _⟩

/-! ## Both forms -/

theorem Registry.bits_inj {r r' : Registry} (h : r.bits = r'.bits) : r = r' := by
  cases r <;> cases r' <;> first | rfl | exact absurd h (by decide)

/-- A key belongs to one registry. -/
theorem lastWith_filter (as : List IeeeAssignment) (r : Registry) (key : Nat × UInt64) :
    lastWith (as.filter (·.registry = r)) key = if key.1 = r.bits then lastWith as key else none := by
  unfold lastWith
  rw [List.filter_filter]
  split
  case isTrue hbits =>
    refine congrArg List.getLast? (List.filter_congr fun a _ => ?_)
    by_cases hkey : a.key = key
    · have hregistry : a.registry = r := Registry.bits_inj ((congrArg Prod.fst hkey).trans hbits)
      simp [hkey, hregistry]
    · simp [hkey]
  case isFalse hbits =>
    have hnone : as.filter (fun a => decide (a.key = key) && decide (a.registry = r)) = [] := by
      refine List.filter_eq_nil_iff.mpr fun a _ h => ?_
      obtain ⟨hkey, hregistry⟩ := by simpa using h
      exact hbits (by rw [← hkey, ← hregistry]; rfl)
    rw [hnone]
    rfl

theorem mem_of_lastWith {as : List IeeeAssignment} {key : Nat × UInt64} {a : IeeeAssignment}
    (h : lastWith as key = some a) : a ∈ as ∧ a.key = key := by
  obtain ⟨ha, hkey⟩ := List.mem_filter.mp (List.mem_of_getLast? h)
  exact ⟨ha, by simpa using hkey⟩

theorem lastWith_eq_none {as : List IeeeAssignment} {key : Nat × UInt64} (h : lastWith as key = none) :
    ∀ a ∈ as, a.key ≠ key := by
  intro a ha hkey
  have hnil := List.getLast?_eq_none_iff.mp h
  have hmem : a ∈ as.filter fun a => a.key = key := List.mem_filter.mpr ⟨ha, by simpa using hkey⟩
  rw [hnil] at hmem
  cases hmem

/-- The map has under each key the last assignment with that key. -/
def Registers (index : OuiIndex) (as : List IeeeAssignment) : Prop :=
  ∀ key, AList.lookup key index = (lastWith as key).map IeeeAssignment.entry

theorem registers_csv {records : Text → List (List Text)} {content : Text} {as : List IeeeAssignment}
    (h : records content = as.map IeeeAssignment.csvRow) :
    ∃ index, (parseIeeeCsv records content ∅ : Outcome ε _) = .ok index ∧ Registers index as := by
  refine ⟨_, parseIeeeCsv_rows h ∅, fun key => ?_⟩
  rw [enterAll, lookup_foldl fun map a => Map.lookup_insert_ite map a.key key a.entry, AList.lookup_empty]
  cases lastWith as key <;> rfl

theorem registers_texts (eol : Text.LineEnd) {header : Registry → List Text}
    (hheader : ∀ r, ∀ line ∈ header r, PlainLine line) (as : List IeeeAssignment) :
    ∃ index, (parseRegistryTexts eol header as : Outcome ε _) = .ok index ∧ Registers index as := by
  obtain ⟨m₁, h₁, hm₁⟩ := parseIeeeText_registryText (ε := ε) eol (hheader .maL) .maL as ∅
  obtain ⟨m₂, h₂, hm₂⟩ := parseIeeeText_registryText (ε := ε) eol (hheader .maM) .maM as m₁
  obtain ⟨m₃, h₃, hm₃⟩ := parseIeeeText_registryText (ε := ε) eol (hheader .maS) .maS as m₂
  refine ⟨m₃, by rw [parseRegistryTexts, h₁, ok_bind, h₂, ok_bind, h₃], fun key => ?_⟩
  rw [hm₃, hm₂, hm₁, AList.lookup_empty, lastWith_filter, lastWith_filter, lastWith_filter]
  cases hlast : lastWith as key with
  | none => simp
  | some a =>
    -- the key is that of a registry, and the others have none under it
    have hbits : key.1 = a.registry.bits := congrArg Prod.fst (mem_of_lastWith hlast).2.symm
    rw [hbits]
    cases a.registry <;> rfl

/-! ## The longest prefix -/

/-- **An assignment contains an address** iff its key is the one tried for the address. -/
theorem key_eq_iff (a : IeeeAssignment) (r : Registry) {v : UInt64} (hv : v.toNat < 2 ^ 48) :
    a.key = (r.bits, maskedKey r.bits v) ↔ a.registry = r ∧ a.Contains v.toNat := by
  have hmask := toNat_maskedKey r hv
  have hkey := a.toNat_key
  have hpos := Nat.two_pow_pos (48 - r.bits)
  constructor
  · intro h
    obtain rfl : a.registry = r := Registry.bits_inj (congrArg Prod.fst h)
    have hsame := congrArg (fun k : Nat × UInt64 => k.2.toNat) h
    dsimp only at hsame
    rw [hkey, hmask] at hsame
    exact ⟨rfl, (Nat.mul_right_cancel hpos hsame).symm⟩
  · rintro ⟨rfl, hcontains⟩
    refine Prod.ext rfl (UInt64.toNat_inj.mp ?_)
    rw [hkey, hmask, hcontains]

/-- The assignment of the longest prefix that contains an address; of several with one prefix, the last. -/
structure LongestMatch (as : List IeeeAssignment) (address : Nat) (a : IeeeAssignment) : Prop where
  contains : a.Contains address
  longest : ∀ b ∈ as, b.Contains address → b.registry.bits ≤ a.registry.bits
  last : lastWith as a.key = some a

theorem LongestMatch.mem {as : List IeeeAssignment} {address : Nat} {a : IeeeAssignment}
    (h : LongestMatch as address a) : a ∈ as := (mem_of_lastWith h.last).1

/-- There is one at most. -/
theorem LongestMatch.unique {as : List IeeeAssignment} {address : Nat} {a b : IeeeAssignment}
    (ha : LongestMatch as address a) (hb : LongestMatch as address b) : a = b := by
  have hregistry : a.registry = b.registry := Registry.bits_inj
    (Nat.le_antisymm (hb.longest a ha.mem ha.contains) (ha.longest b hb.mem hb.contains))
  have hblock : a.block = b.block := by
    rw [← ha.contains, ← hb.contains, hregistry]
  have hkey : a.key = b.key := by rw [IeeeAssignment.key, IeeeAssignment.key, hregistry, hblock]
  have hlast := ha.last
  rw [hkey, hb.last] at hlast
  exact (Option.some.inj hlast).symm

section Lookup

variable {index : OuiIndex} {as : List IeeeAssignment} {bytes : Bytes}

theorem asU64_lt (h : bytes.length = 6) : (asU64 bytes).toNat = beNat bytes ∧ (asU64 bytes).toNat < 2 ^ 48 := by
  have hlt : beNat bytes < 2 ^ 48 := by
    have := beNat_lt bytes
    rwa [h] at this
  have heq : (asU64 bytes).toNat = beNat bytes := UInt64.toNat_ofNat_of_lt' (Nat.lt_trans hlt (by decide))
  exact ⟨heq, heq ▸ hlt⟩

/-- The registries are tried from the longest prefix on. -/
theorem lookupInCache_eq (h : Registers index as) (bytes : Bytes) :
    lookupInCache index bytes = ([.maS, .maM, .maL] : List Registry).findSome? fun r =>
      (lastWith as (r.bits, maskedKey r.bits (asU64 bytes))).map IeeeAssignment.entry := by
  have hlookup : ∀ bits, (AList.lookup (bits, maskedKey bits (asU64 bytes)) index) =
      (lastWith as (bits, maskedKey bits (asU64 bytes))).map IeeeAssignment.entry := fun bits => h _
  rw [lookupInCache]
  split
  case isTrue hempty =>
    have hnone : ∀ key, (lastWith as key).map IeeeAssignment.entry = none := by
      intro key
      rw [← h key]
      exact AList.lookup_eq_none.mpr fun hmem => by
        have hkeys := AList.mem_keys.mp hmem
        rw [hempty] at hkeys
        cases hkeys
    simp [hnone]
  case isFalse =>
    simp only [hlookup]
    rfl

/-- What is found is the longest match. -/
theorem longestMatch_of_lookup (h : Registers index as) (hlen : bytes.length = 6) {found : Assignment}
    (hfound : lookupInCache index bytes = some found) :
    ∃ a, LongestMatch as (beNat bytes) a ∧ a.entry = found := by
  obtain ⟨hvalue, hlt⟩ := asU64_lt hlen
  have hnot : ∀ r, lastWith as (r.bits, maskedKey r.bits (asU64 bytes)) = none →
      ∀ b ∈ as, b.Contains (beNat bytes) → b.registry ≠ r := by
    intro r hnone b hb hcontains hregistry
    exact lastWith_eq_none hnone b hb ((key_eq_iff b r hlt).mpr ⟨hregistry, hvalue ▸ hcontains⟩)
  have hmatch : ∀ (r : Registry) (a : IeeeAssignment),
      lastWith as (r.bits, maskedKey r.bits (asU64 bytes)) = some a → a.entry = found →
      (∀ b ∈ as, b.Contains (beNat bytes) → b.registry.bits ≤ r.bits) →
      ∃ a, LongestMatch as (beNat bytes) a ∧ a.entry = found := by
    intro r a hlast hentry hlongest
    obtain ⟨ha, hkey⟩ := mem_of_lastWith hlast
    obtain ⟨rfl, hcontains⟩ := (key_eq_iff a r hlt).mp hkey
    exact ⟨a, ⟨hvalue ▸ hcontains, hlongest, hkey ▸ hlast⟩, hentry⟩
  rw [lookupInCache_eq h] at hfound
  simp only [List.findSome?_cons, List.findSome?_nil] at hfound
  cases h₃₆ : lastWith as (Registry.maS.bits, maskedKey Registry.maS.bits (asU64 bytes)) with
  | some a =>
    rw [h₃₆] at hfound
    refine hmatch .maS a h₃₆ (Option.some.inj hfound) fun b _ _ => ?_
    cases b.registry <;> decide
  | none =>
    have hnotS := hnot .maS h₃₆
    rw [h₃₆] at hfound
    dsimp only [Option.map_none] at hfound
    cases h₂₈ : lastWith as (Registry.maM.bits, maskedKey Registry.maM.bits (asU64 bytes)) with
    | some a =>
      rw [h₂₈] at hfound
      refine hmatch .maM a h₂₈ (Option.some.inj hfound) fun b hb hcontains => ?_
      have hregistry := hnotS b hb hcontains
      cases hb' : b.registry with
      | maL => decide
      | maM => decide
      | maS => exact absurd hb' hregistry
    | none =>
      have hnotM := hnot .maM h₂₈
      rw [h₂₈] at hfound
      dsimp only [Option.map_none] at hfound
      cases h₂₄ : lastWith as (Registry.maL.bits, maskedKey Registry.maL.bits (asU64 bytes)) with
      | some a =>
        rw [h₂₄] at hfound
        refine hmatch .maL a h₂₄ (Option.some.inj hfound) fun b hb hcontains => ?_
        cases hb' : b.registry with
        | maL => decide
        | maM => exact absurd hb' (hnotM b hb hcontains)
        | maS => exact absurd hb' (hnotS b hb hcontains)
      | none =>
        rw [h₂₄] at hfound
        cases hfound

/-- Nothing is found only if no assignment contains the address. -/
theorem not_contains_of_lookup (h : Registers index as) (hlen : bytes.length = 6)
    (hnone : lookupInCache index bytes = none) : ∀ a ∈ as, ¬ a.Contains (beNat bytes) := by
  obtain ⟨hvalue, hlt⟩ := asU64_lt hlen
  intro a ha hcontains
  rw [lookupInCache_eq h, List.findSome?_eq_none_iff] at hnone
  have hregistry : a.registry ∈ ([.maS, .maM, .maL] : List Registry) := by
    cases a.registry <;> decide
  have hno := Option.map_eq_none_iff.mp (hnone a.registry hregistry)
  exact lastWith_eq_none hno a ha ((key_eq_iff a a.registry hlt).mpr ⟨rfl, hvalue ▸ hcontains⟩)

/-- **Longest prefix match.** -/
theorem lookupInCache_spec (h : Registers index as) (hlen : bytes.length = 6) :
    (∀ found, lookupInCache index bytes = some found ↔ ∃ a, LongestMatch as (beNat bytes) a ∧ a.entry = found) ∧
      (lookupInCache index bytes = none ↔ ∀ a ∈ as, ¬ a.Contains (beNat bytes)) := by
  have hmatch : ∀ {a}, LongestMatch as (beNat bytes) a → ∃ found, lookupInCache index bytes = some found := by
    intro a ha
    cases hlookup : lookupInCache index bytes with
    | none => exact absurd ha.contains (not_contains_of_lookup h hlen hlookup a ha.mem)
    | some found => exact ⟨found, rfl⟩
  refine ⟨fun found => ⟨longestMatch_of_lookup h hlen, ?_⟩, not_contains_of_lookup h hlen, fun hno => ?_⟩
  · rintro ⟨a, ha, rfl⟩
    obtain ⟨found, hfound⟩ := hmatch ha
    obtain ⟨b, hb, rfl⟩ := longestMatch_of_lookup h hlen hfound
    rw [hfound, hb.unique ha]
  · cases hlookup : lookupInCache index bytes with
    | none => rfl
    | some found =>
      obtain ⟨a, ha, -⟩ := longestMatch_of_lookup h hlen hlookup
      exact absurd ha.contains (hno a ha.mem)

end Lookup

/-- **Both forms of the registry make one map, and in it an address belongs to the longest prefix that contains it.**
The CSV library is taken to give the rows of the CSV form. -/
theorem vendor_lookup {records : Text → List (List Text)} {as : List IeeeAssignment} (eol : Text.LineEnd)
    {header : Registry → List Text} (hrecords : records (csvText as) = as.map IeeeAssignment.csvRow)
    (hheader : ∀ r, ∀ line ∈ header r, PlainLine line) :
    ∃ csv texts : OuiIndex, (parseIeeeCsv records (csvText as) ∅ : Outcome ε _) = .ok csv ∧
      (parseRegistryTexts eol header as : Outcome ε _) = .ok texts ∧
      (∀ key, AList.lookup key csv = AList.lookup key texts) ∧
      ∀ bytes : Bytes, bytes.length = 6 →
        (∀ found, lookupInCache csv bytes = some found ↔ ∃ a, LongestMatch as (beNat bytes) a ∧ a.entry = found) ∧
        (lookupInCache csv bytes = none ↔ ∀ a ∈ as, ¬ a.Contains (beNat bytes)) := by
  obtain ⟨csv, hcsv, hregcsv⟩ := registers_csv (ε := ε) hrecords
  obtain ⟨texts, htexts, hregtexts⟩ := registers_texts (ε := ε) eol hheader as
  exact ⟨csv, texts, hcsv, htexts, fun key => (hregcsv key).trans (hregtexts key).symm,
    fun bytes hlen => lookupInCache_spec hregcsv hlen⟩

/-- A block of twenty-eight bits and the block of thirty-six inside it. -/
def sharedBlock : List IeeeAssignment :=
  [⟨.maS, 0x70B3D5001, "Soliton", ["JP"], by decide, ⟨by decide, by decide, rfl, rfl⟩, by decide,
      List.forall_mem_singleton.mpr ⟨by decide, by decide, rfl, rfl⟩⟩,
    ⟨.maM, 0x70B3D50, "Acme", [], by decide, ⟨by decide, by decide, rfl, rfl⟩, by decide, nofun⟩]

theorem vendor_lookup_sharedBlock : ∃ csv texts : OuiIndex,
    (parseIeeeCsv (fun _ => sharedBlock.map IeeeAssignment.csvRow) (csvText sharedBlock) ∅ : Outcome Unit _) = .ok csv ∧
      (parseRegistryTexts .lf (fun _ => ["OUI/MA-L  Organization"]) sharedBlock : Outcome Unit _) = .ok texts ∧
      (∀ key, AList.lookup key csv = AList.lookup key texts) ∧
      ∀ bytes : Bytes, bytes.length = 6 →
        (∀ found, lookupInCache csv bytes = some found ↔
          ∃ a, LongestMatch sharedBlock (beNat bytes) a ∧ a.entry = found) ∧
        (lookupInCache csv bytes = none ↔ ∀ a ∈ sharedBlock, ¬ a.Contains (beNat bytes)) :=
  vendor_lookup .lf rfl fun _ => List.forall_mem_singleton.mpr ⟨by decide, by decide, rfl, rfl⟩

end Idnx
