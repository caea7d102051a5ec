import Idnx.Output.Page

/-!
# The data in the page

The JSON of a drawing, made inert, is the same value written by other codes (`embeddable_render`), so that a parser
reads it back. What the page ends up with is that text after the placeholders for the summary and the version have
been replaced in it too (`topologyHtml_eq`). It still holds no markup and is still read as the value exactly if no
string of the value has one of the two placeholders in it (`literal_iff`).
-/

namespace Idnx

/-! ## How characters are written -/

/-- The characters of placeholders: braces and capital letters. -/
def isMark (c : Char) : Bool := c == '{' || c == '}' || (65 ≤ c.toNat && c.toNat ≤ 90)

/-- The characters that neither the serialiser nor `embeddableJson` escapes. -/
def WrittenPlainly (c : Char) : Prop := (c ≠ '"' ∧ c ≠ '\\' ∧ 32 ≤ c.toNat) ∧ c ∉ markupChars

instance (c : Char) : Decidable (WrittenPlainly c) := inferInstanceAs (Decidable (_ ∧ _))

theorem writtenPlainly_of_isMark {c : Char} (h : isMark c = true) : WrittenPlainly c := by
  have hother : ∀ d ∈ '"' :: '\\' :: markupChars, isMark d = false := by decide
  have hne : ∀ d ∈ '"' :: '\\' :: markupChars, c ≠ d := by
    rintro d hd rfl
    rw [hother c hd] at h
    cases h
  refine ⟨⟨hne '"' (by simp), hne '\\' (by simp), ?_⟩, fun hmem => hne c (by simp [hmem]) rfl⟩
  simp only [isMark, Bool.or_eq_true, beq_iff_eq, Bool.and_eq_true, decide_eq_true_eq] at h
  rcases h with (rfl | rfl) | h
  · decide
  · decide
  · omega

theorem embedChar_of_not_mem {c : Char} (h : c ∉ markupChars) : embedChar c = [c] := by
  simp only [markupChars, List.mem_cons, not_or] at h
  unfold embedChar
  split <;> simp_all

/-- An escape has neither markup nor marks in it. -/
theorem not_isMark_of_mem_escapeChars : ∀ d ∈ escapeChars, isMark d = false ∧ d ∉ markupChars := by decide

theorem mem_escapeChars_of_markup : ∀ c ∈ markupChars, ∀ d ∈ embedChar c, d ∈ escapeChars := by decide

theorem not_mem_embeddableJson (t : Text) : ∀ d ∈ embeddableJson t, d ∉ markupChars := by
  intro d hd
  obtain ⟨c, -, hc⟩ := List.mem_flatMap.mp hd
  by_cases h : c ∈ markupChars
  · exact (not_isMark_of_mem_escapeChars d (mem_escapeChars_of_markup c h d hc)).2
  · rw [embedChar_of_not_mem h, List.mem_singleton] at hc
    rwa [hc]

namespace StringWriter

variable (W : StringWriter)

/-- How a character ends up in the page. -/
def embedded (c : Char) : Text := embeddableJson (W.code c)

theorem embedded_of_plainly {c : Char} (h : WrittenPlainly c) : W.embedded c = [c] := by
  rw [embedded, W.plain c h.1.1 h.1.2.1 h.1.2.2, embeddableJson, List.flatMap_singleton, embedChar_of_not_mem h.2]

/-- What is not written plainly is written by an escape, once. -/
theorem embedded_of_not_plainly {c : Char} (h : ¬WrittenPlainly c) :
    (∀ d ∈ W.embedded c, d ∈ escapeChars) ∧ ∀ rest, Json.unescape (W.embedded c ++ rest) = some (c, rest) := by
  by_cases hplain : c ≠ '"' ∧ c ≠ '\\' ∧ 32 ≤ c.toNat
  · have hmem : c ∈ markupChars := by
      by_contra hmem
      exact h ⟨hplain, hmem⟩
    have hcode : W.embedded c = embedChar c := by
      rw [embedded, W.plain c hplain.1 hplain.2.1 hplain.2.2, embeddableJson, List.flatMap_singleton]
    rw [hcode]
    refine ⟨mem_escapeChars_of_markup c hmem, fun rest => ?_⟩
    simp only [markupChars, List.mem_cons, List.not_mem_nil, or_false] at hmem
    rcases hmem with rfl | rfl | rfl | rfl | rfl <;> rfl
  · have hescape := W.escaped c hplain
    have hcode : W.embedded c = W.code c :=
      flatMap_eq_self fun d hd => embedChar_of_not_mem (not_isMark_of_mem_escapeChars d (hescape d hd)).2
    rw [hcode]
    exact ⟨hescape, W.codes c⟩

theorem codes_embedded : Json.Codes W.embedded := by
  intro c rest
  by_cases h : WrittenPlainly c
  · have hcode := W.codes c rest
    rw [W.plain c h.1.1 h.1.2.1 h.1.2.2] at hcode
    rwa [W.embedded_of_plainly h]
  · exact (W.embedded_of_not_plainly h).2 rest

end StringWriter

/-- Making the text inert changes how its strings are written, and nothing else. -/
theorem embeddable_render (W : StringWriter) (v : Json) : embeddableJson (v.render W.code) = v.render W.embedded := by
  have hstands : ∀ c ∈ markupChars, Json.isSyntax c = false := by decide
  refine Json.flatMap_render (fun c hc => embedChar_of_not_mem fun hmem => ?_) v
  rw [hstands c hmem] at hc
  cases hc

/-! ## Placeholders -/

section Placeholder

variable {name : Text} (hname : ∀ c ∈ name, isMark c = true)

include hname

theorem isMark_of_mem_placeholder : ∀ c ∈ placeholder name, isMark c = true := by
  intro c hc
  simp only [placeholder, List.mem_cons, List.mem_append, List.not_mem_nil, or_false] at hc
  rcases hc with rfl | rfl | hc | rfl | rfl
  · rfl
  · rfl
  · exact hname c hc
  · rfl
  · rfl

theorem not_mem_placeholder {c : Char} (h : isMark c = false) : c ∉ placeholder name := by
  intro hmem
  rw [isMark_of_mem_placeholder hname c hmem] at h
  cases h

theorem spells_embedded (W : StringWriter) {new : Text} (hnew : ∀ c ∈ new, WrittenPlainly c) :
    Spells (placeholder name) new W.embedded where
  pattern c hc := W.embedded_of_plainly (writtenPlainly_of_isMark (isMark_of_mem_placeholder hname c hc))
  replacement c hc := W.embedded_of_plainly (hnew c hc)
  nonempty c _ := W.codes_embedded.ne_nil c
  apart c hc d hd := by
    by_cases h : WrittenPlainly c
    · rw [W.embedded_of_plainly h, List.mem_singleton] at hd
      rwa [hd]
    · have hescape := (W.embedded_of_not_plainly h).1 d hd
      exact not_mem_placeholder hname (not_isMark_of_mem_escapeChars d hescape).1

/-- A placeholder is replaced in the strings of the value. -/
theorem replace_embedded (W : StringWriter) {new : Text} (hnew : ∀ c ∈ new, WrittenPlainly c) (v : Json) :
    replace (placeholder name) new (v.render W.embedded) =
      (v.mapStrings (replace (placeholder name) new)).render W.embedded := by
  refine Json.replace_render (spells_embedded hname W hnew) (fun hmem => ?_) v
  exact not_mem_placeholder hname (c := '"') rfl (List.mem_cons_of_mem _ (List.mem_cons_of_mem _ hmem))

/-- A placeholder is in the text exactly if it is in one of the strings. -/
theorem isInfix_render (W : StringWriter) (v : Json) :
    placeholder name <:+: v.render W.embedded ↔ ∃ s ∈ v.strings, placeholder name <:+: s := by
  have hpat : placeholder name ≠ [] := List.cons_ne_nil _ _
  have hempty : ∀ l : Text, replace (placeholder name) [] l = l ↔ ¬placeholder name <:+: l := fun l =>
    replace_eq_self_iff hpat (c := '{') List.not_mem_nil List.mem_cons_self
  have hwhole := hempty (v.render W.embedded)
  rw [replace_embedded hname W (by simp), (Json.render_injective W.codes_embedded).eq_iff,
    Json.mapStrings_eq_self_iff] at hwhole
  simp only [hempty] at hwhole
  rw [← not_iff_not, ← hwhole]
  simp only [not_exists, not_and]

end Placeholder

/-! ## The literal -/

/-- The data as it stands in the page, after the other two placeholders have been filled in. -/
def dataLiteral (W : StringWriter) (report : RunReport) : Text :=
  replace (placeholder "VERSION") packageVersion
    (replace (placeholder "SUMMARY") (summaryLine report.graph)
      (embeddableJson ((buildData report).toJson.render W.code)))

theorem isMark_version : ∀ c ∈ "VERSION".toList, isMark c = true := by decide

theorem isMark_summary : ∀ c ∈ "SUMMARY".toList, isMark c = true := by decide

theorem isMark_data : ∀ c ∈ "DATA".toList, isMark c = true := by decide

namespace PageTemplate

variable (T : PageTemplate)

/-- A placeholder is replaced in each of the three parts on its own. -/
theorem replace_page {name new : Text} (hname : ∀ c ∈ name, isMark c = true) (version summary data : Text) :
    replace (placeholder name) new (T.page version summary data) =
      T.page (replace (placeholder name) new version) (replace (placeholder name) new summary)
        (replace (placeholder name) new data) := by
  have hpat : placeholder name ≠ [] := List.cons_ne_nil _ _
  have hpart : ∀ part ∈ [T.head, T.middle, T.script, T.tail], replace (placeholder name) new part = part := by
    intro part hmem
    refine replace_eq_self fun hoccurs => T.plain part hmem (List.IsInfix.trans ?_ hoccurs)
    exact ⟨[], name ++ ['}', '}'], rfl⟩
  have hflat : ∀ version summary data, T.page version summary data = T.head ++ 'v' :: (version ++ '<' :: (T.middle ++
      '>' :: (summary ++ '<' :: (T.script ++ ' ' :: (data ++ ';' :: T.tail))))) := by
    intro version summary data
    simp [page, opening]
  have hcut : ∀ {c}, isMark c = false → ∀ a b, replace (placeholder name) new (a ++ c :: b) =
      replace (placeholder name) new a ++ c :: replace (placeholder name) new b := fun hc =>
    replace_append_cons hpat (not_mem_placeholder hname hc)
  rw [hflat, hflat, hcut rfl, hcut rfl, hcut rfl, hcut rfl, hcut rfl, hcut rfl, hpart T.head (by simp),
    hpart T.middle (by simp), hpart T.script (by simp), hpart T.tail (by simp)]

end PageTemplate

theorem brace_not_mem_summaryLine (g : TopologyGraph) : '{' ∉ summaryLine g := by
  have hnumber : ∀ n, '{' ∉ Text.ofNat n := fun n hmem => absurd (forall_mem_ofNat n _ hmem).1 (by decide)
  simp [summaryLine, hnumber]

theorem not_placeholder_of_brace {name t : Text} (h : '{' ∉ t) : ¬placeholder name <:+: t := fun hoccurs =>
  h (hoccurs.subset List.mem_cons_self)

/-- **Of the placeholders in the page, those in the data are filled in as well.** -/
theorem topologyHtml_eq (W : StringWriter) (T : PageTemplate) (report : RunReport) :
    topologyHtml W T report =
      T.opening packageVersion (summaryLine report.graph) ++ (dataLiteral W report ++ ';' :: T.tail) := by
  have hself : ∀ name new, replace (placeholder name) new (placeholder name) = new := by
    intro name new
    have h := @replace_pat Char _ (placeholder name) new (List.cons_ne_nil _ _) []
    rwa [List.append_nil, replace_nil, List.append_nil] at h
  have hline : replace (placeholder "VERSION") packageVersion (summaryLine report.graph) = summaryLine report.graph :=
    replace_eq_self (not_placeholder_of_brace (brace_not_mem_summaryLine _))
  have hdata : ∀ name ∈ ["VERSION".toList, "SUMMARY".toList], ¬placeholder "DATA" <:+: placeholder name := by decide
  have hsummary : ¬placeholder "SUMMARY" <:+: placeholder "VERSION" := by decide
  rw [topologyHtml, PageTemplate.text, T.replace_page isMark_data, T.replace_page isMark_summary,
    T.replace_page isMark_version, replace_eq_self (hdata _ (by simp)), replace_eq_self (hdata _ (by simp)),
    replace_eq_self hsummary, hself, hself, hself, hline]
  rfl

/-- **The data in the page holds no markup and is read as what was drawn exactly if no string of it has a placeholder
for the summary or the version in it.** -/
theorem literal_iff (W : StringWriter) (report : RunReport) :
    ((∀ c ∈ dataLiteral W report, c ∉ markupChars) ∧
      Json.parse (dataLiteral W report) = some (buildData report).toJson) ↔
    ∀ s ∈ (buildData report).toJson.strings, ¬placeholder "SUMMARY" <:+: s ∧ ¬placeholder "VERSION" <:+: s := by
  have hpat : ∀ name, placeholder name ≠ [] := fun name => List.cons_ne_nil _ _
  generalize hv : (buildData report).toJson = v
  have hliteral : dataLiteral W report = replace (placeholder "VERSION") packageVersion
      (replace (placeholder "SUMMARY") (summaryLine report.graph) (v.render W.embedded)) := by
    rw [dataLiteral, hv, embeddable_render]
  constructor
  · rintro ⟨hmarkup, hparse⟩
    -- where the summary was put in, its ampersands are
    have hsummary : ¬placeholder "SUMMARY" <:+: v.render W.embedded := by
      intro hoccurs
      have hamp : '&' ∈ summaryLine report.graph := by simp [summaryLine]
      refine hmarkup '&' ?_ (by decide)
      rw [hliteral]
      exact mem_replace_of_not_mem (hpat _) (not_mem_placeholder isMark_version rfl)
        (mem_replace_of_isInfix (hpat _) hamp hoccurs)
    -- where the version was put in, the value is another one
    rw [hliteral, replace_eq_self hsummary, replace_embedded isMark_version W (by decide),
      Json.parse_render W.codes_embedded, Option.some.injEq, Json.mapStrings_eq_self_iff] at hparse
    rw [isInfix_render isMark_summary W v, not_exists] at hsummary
    refine fun s hs => ⟨fun hoccurs => hsummary s ⟨hs, hoccurs⟩, ?_⟩
    exact (replace_eq_self_iff (hpat _) (c := '{') (by decide) List.mem_cons_self).mp (hparse s hs)
  · intro h
    have hsummary : ¬placeholder "SUMMARY" <:+: v.render W.embedded := by
      rw [isInfix_render isMark_summary W v]
      exact fun ⟨s, hs, hoccurs⟩ => (h s hs).1 hoccurs
    have hversion : ¬placeholder "VERSION" <:+: v.render W.embedded := by
      rw [isInfix_render isMark_version W v]
      exact fun ⟨s, hs, hoccurs⟩ => (h s hs).2 hoccurs
    rw [hliteral, replace_eq_self hsummary, replace_eq_self hversion]
    refine ⟨?_, Json.parse_render W.codes_embedded v⟩
    rw [← embeddable_render]
    exact not_mem_embeddableJson _

end Idnx
