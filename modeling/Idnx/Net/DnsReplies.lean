import Idnx.Net.Dns

/-!
# What a datagram says

The place where a name is read has a name, or the name runs off the datagram (`name_cases`). A datagram that meets
`ReadAsMeant` is thus read as the message it is, or not at all (`answerName_states`): what the resolver takes for its
name is the first label in the data of a PTR record.
-/

namespace Idnx

open Outcome

variable {ε : Type} {data : Bytes} {k : Nat}

/-! ## Names that run off -/

/-- No length of sixty-four and more is met where a name is read, but for those that begin a pointer. -/
def LengthsValid (data : Bytes) (k : Nat) : Prop :=
  ∀ labels : List Bytes, (∀ l ∈ labels, IsLabel l) → Holds data k (labels.flatMap labelBytes) →
    ∀ b, data[k + (labels.flatMap labelBytes).length]? = some b → b.toNat < 64 ∨ isPointer b = true

/-- Behind its labels a name has nothing, half a pointer, or a length of more bytes than there are. -/
def RunsOff (data : Bytes) (k : Nat) : Prop :=
  ∃ labels : List Bytes, (∀ l ∈ labels, IsLabel l) ∧ Holds data k (labels.flatMap labelBytes) ∧
    ∀ b, data[k + (labels.flatMap labelBytes).length]? = some b → b ≠ 0 ∧
      (isPointer b = true → data.length ≤ k + (labels.flatMap labelBytes).length + 2) ∧
      data.length ≤ k + (labels.flatMap labelBytes).length + 1 + b.toNat

/-- **Where a name is read there is one, or it runs off.** -/
theorem name_cases (hk : k ≤ data.length) (h : LengthsValid data k) :
    (∃ name : WireName, Holds data k name.toBytes) ∨ RunsOff data k := by
  obtain ⟨rs, rest, hsplit, hrest⟩ :=
    @exists_records UInt8 { l // IsLabel l } (fun l => labelBytes l.1) (fun l => labelBytes_length_pos l.1)
      (data.drop k)
  have hflat : (rs.map Subtype.val).flatMap labelBytes = rs.flatMap fun l => labelBytes l.1 := List.flatMap_map ..
  have hlabels : ∀ l ∈ rs.map Subtype.val, IsLabel l := by
    rintro _ hl
    obtain ⟨l, -, rfl⟩ := List.mem_map.mp hl
    exact l.2
  rw [← hflat] at hsplit
  generalize rs.map Subtype.val = labels at hsplit hlabels
  have hholds := holds_of_drop hk hsplit
  have hlen := congrArg List.length hsplit
  rw [List.length_drop, List.length_append] at hlen
  have hfirst : data[k + (labels.flatMap labelBytes).length]? = rest[0]? := by
    rw [← List.getElem?_drop, hsplit, List.getElem?_append_right (Nat.le_refl _), Nat.sub_self]
  have hvalid := h labels hlabels hholds
  have hwhole : ∀ tail more, rest = tail ++ more → Holds data k (labels.flatMap labelBytes ++ tail) := by
    rintro tail more rfl
    exact holds_of_drop hk (by rw [hsplit, List.append_assoc])
  cases rest with
  | nil =>
    refine .inr ⟨labels, hlabels, hholds, fun b hb => ?_⟩
    rw [hfirst] at hb
    cases hb
  | cons b rest =>
    rw [List.length_cons] at hlen
    rw [List.getElem?_cons_zero] at hfirst
    by_cases hzero : b = 0
    · refine .inl ⟨⟨labels, none, hlabels, nofun⟩, hwhole [0] rest ?_⟩
      rw [hzero]
      rfl
    by_cases hpointer : isPointer b = true
    · have hbig := (isPointer_iff b).mp hpointer
      cases rest with
      | nil =>
        refine .inr ⟨labels, hlabels, hholds, fun c hc => ?_⟩
        rw [hfirst] at hc
        cases hc
        rw [List.length_nil] at hlen
        exact ⟨hzero, fun _ => by omega, by omega⟩
      | cons lo rest =>
        exact .inl ⟨⟨labels, some (b, lo), hlabels, fun p hp => by cases hp; exact hpointer⟩, hwhole [b, lo] rest rfl⟩
    · have hsmall : b.toNat < 64 := (hvalid b hfirst).resolve_right hpointer
      have hpos : 0 < b.toNat := Nat.pos_of_ne_zero fun h0 => hzero (UInt8.toNat_inj.mp h0)
      refine .inr ⟨labels, hlabels, hholds, fun c hc => ?_⟩
      rw [hfirst] at hc
      cases hc
      refine ⟨hzero, fun h => absurd h hpointer, ?_⟩
      -- the bytes that are left are not a label
      by_contra hfits
      have hlabel : (rest.take b.toNat).length = b.toNat := by
        rw [List.length_take]
        omega
      refine hrest ⟨rest.take b.toNat, by rw [IsLabel, hlabel]; exact ⟨hpos, hsmall⟩⟩ (rest.drop b.toNat) ?_
      show b :: rest = UInt8.ofNat (rest.take b.toNat).length :: rest.take b.toNat ++ rest.drop b.toNat
      rw [hlabel, UInt8.ofNat_toNat, List.cons_append, List.take_append_drop]

/-- A skipping loop leaves the datagram where the name does. -/
theorem RunsOff.loop {body : Nat → Outcome ε (Turn Nat Nat)}
    (hstep : ∀ k l, IsLabel l → Holds data k (labelBytes l) → body k = .ok (.next (k + (labelBytes l).length)))
    (hover : ∀ k, data.length ≤ k → body k = .ok (.done k))
    (hlast : ∀ k b, data[k]? = some b → b ≠ 0 → (isPointer b = true → data.length ≤ k + 2) →
      data.length ≤ k + 1 + b.toNat → ∃ o, data.length ≤ o ∧ (body k = .ok (.done o) ∨ body k = .ok (.next o)))
    (h : RunsOff data k) : ∃ o, loop body (data.length + 1) k = .ok o ∧ data.length ≤ o := by
  obtain ⟨labels, hlabels, hholds, hend⟩ := h
  rw [loop_labels_to hstep hlabels hholds]
  have hfew : labels.length ≤ k + (labels.flatMap labelBytes).length :=
    Nat.le_trans (length_labels_le labels) (Nat.le_add_left _ _)
  generalize k + (labels.flatMap labelBytes).length = stop at hend hfew
  cases hb : data[stop]? with
  | none =>
    have hle := List.getElem?_eq_none_iff.mp hb
    refine ⟨stop, ?_, hle⟩
    rw [Outcome.loop, hover stop hle]
    rfl
  | some b =>
    have hlt := (List.getElem?_eq_some_iff.mp hb).1
    obtain ⟨hne, hpointer, hlong⟩ := hend b hb
    obtain ⟨o, ho, hturn⟩ := hlast stop b hb hne hpointer hlong
    obtain ⟨fuel, hfuel⟩ := Nat.exists_eq_add_of_le (show 1 ≤ data.length - labels.length by omega)
    refine ⟨o, ?_, ho⟩
    rcases hturn with hturn | hturn
    · rw [Outcome.loop, hturn]
      rfl
    · rw [loop_next hturn, hfuel, Nat.add_comm 1 fuel, Outcome.loop, hover o ho]
      rfl

theorem RunsOff.skipLabels (h : RunsOff data k) :
    ∃ o, (Idnx.skipLabels data k : Outcome ε _) = .ok o ∧ data.length ≤ o := by
  refine h.loop (fun k l hl hholds => labelsTurn_label hl hholds) (fun k hk => if_neg (Nat.not_lt.mpr hk)) ?_
  intro k b hb hne _ hlong
  refine ⟨k + 1 + b.toNat, hlong, .inr ?_⟩
  unfold labelsTurn index
  rw [if_pos (List.getElem?_eq_some_iff.mp hb).1, hb]
  exact if_neg hne

theorem RunsOff.loop_questionTurn (h : RunsOff data k) :
    ∃ o, (Outcome.loop (questionTurn data) (data.length + 1) k : Outcome ε _) = .ok o ∧ data.length ≤ o := by
  refine h.loop (fun k l hl hholds => questionTurn_label hl hholds) (fun k hk => if_neg (Nat.not_lt.mpr hk)) ?_
  intro k b hb hne hpointer hlong
  unfold questionTurn index
  rw [if_pos (List.getElem?_eq_some_iff.mp hb).1, hb]
  by_cases hp : isPointer b = true
  · refine ⟨k + 2, hpointer hp, .inl ?_⟩
    exact (if_neg hne).trans (if_pos hp)
  · refine ⟨k + 1 + b.toNat, hlong, .inr ?_⟩
    exact (if_neg hne).trans (if_neg hp)

/-! ## Questions and names -/

/-- Two bytes are those of a number. -/
theorem beBytes_word (hi lo : UInt8) : beBytes 2 (word hi lo).toNat = [hi, lo] := by
  obtain ⟨hi', lo', hbytes, hword⟩ := beBytes_two (word hi lo)
  obtain ⟨rfl, rfl⟩ := word_inj.mp hword
  exact hbytes

/-- **A question is there, or the datagram is skipped to its end.** -/
theorem skipQuestion_cases (hk : k ≤ data.length) (h : LengthsValid data k) :
    (∃ q : Question, Holds data k q.toBytes) ∨
      ∃ o, (skipQuestion data k : Outcome ε _) = .ok o ∧ data.length < o := by
  unfold skipQuestion
  rcases name_cases hk h with ⟨name, hname⟩ | hoff
  · by_cases hfits : k + name.toBytes.length + 4 ≤ data.length
    · have hfour := hname.append_take 4
      have hlen : ((data.drop (k + name.toBytes.length)).take 4).length = 4 := by
        rw [List.length_take, List.length_drop]
        omega
      match hbytes : (data.drop (k + name.toBytes.length)).take 4, hlen with
      | [a, b, c, d], _ =>
        refine .inl ⟨⟨name, word a b, word c d⟩, ?_⟩
        rw [Question.toBytes, beBytes_word, beBytes_word]
        rwa [hbytes] at hfour
    · right
      rw [loop_questionTurn name hname, ok_bind]
      have hlen : name.toBytes.length = (name.labels.flatMap labelBytes).length + name.ending.length :=
        List.length_append
      have hle := hname.length_le
      rw [WireName.toBytes] at hname
      have hend := hname.right
      unfold WireName.ending at hlen hend
      cases hpointer : name.pointer with
      | none =>
        rw [hpointer] at hlen hend
        dsimp only [List.length_singleton] at hlen hend
        rw [if_pos rfl, Nat.add_zero, if_pos (by omega), hend.index, ok_bind, if_pos rfl]
        exact ⟨_, rfl, by omega⟩
      | some p =>
        obtain ⟨hi, lo⟩ := p
        rw [hpointer] at hlen
        dsimp only [List.length_cons, List.length_nil] at hlen
        rw [if_neg (Option.some_ne_none _)]
        split
        · obtain ⟨b, hb, -⟩ := returns_index (ε := ε) ‹_›
          rw [hb, ok_bind]
          refine ⟨_, rfl, ?_⟩
          split <;> omega
        · exact ⟨_, rfl, by omega⟩
  · right
    obtain ⟨o, ho, hlong⟩ := hoff.loop_questionTurn (ε := ε)
    rw [ho, ok_bind, if_neg (Nat.not_lt.mpr hlong)]
    exact ⟨o + 4, rfl, by omega⟩

/-- **The name of a record is there, or the datagram is skipped to its end.** -/
theorem skipRecordName_cases (hk : k + 2 ≤ data.length) (h : LengthsValid data k) :
    (∃ name : WireName, Holds data k name.toBytes ∧ (name.pointer = none ∨ name.labels = [] →
      (skipRecordName data k : Outcome ε _) = .ok (k + name.toBytes.length))) ∨
      ∃ o, (skipRecordName data k : Outcome ε _) = .ok o ∧ data.length ≤ o := by
  obtain ⟨first, hfirst⟩ : ∃ first, data[k]? = some first := ⟨_, List.getElem?_eq_getElem (by omega)⟩
  have hread : (index data k : Outcome ε _) = .ok first := by rw [index, hfirst]
  unfold skipRecordName
  rw [hread, ok_bind]
  by_cases hpointer : isPointer first = true
  · -- a pointer in front is the whole name
    obtain ⟨second, hsecond⟩ : ∃ second, data[k + 1]? = some second := ⟨_, List.getElem?_eq_getElem (by omega)⟩
    have hdrop : data.drop k = [first, second] ++ data.drop (k + 2) := by
      obtain ⟨hlt, rfl⟩ := List.getElem?_eq_some_iff.mp hfirst
      obtain ⟨hlt', rfl⟩ := List.getElem?_eq_some_iff.mp hsecond
      rw [List.drop_eq_getElem_cons hlt, List.drop_eq_getElem_cons hlt']
      rfl
    refine .inl ⟨⟨[], some (first, second), nofun, fun p hp => by cases hp; exact hpointer⟩,
      holds_of_drop (by omega) hdrop, fun _ => ?_⟩
    rw [if_pos hpointer]
    rfl
  · rw [if_neg hpointer]
    rcases name_cases (by omega) h with ⟨name, hname⟩ | hoff
    · refine .inl ⟨name, hname, fun hend => ?_⟩
      have hle := hname.length_le
      cases hname' : name.pointer with
      | none =>
        have hbytes : name.toBytes = name.labels.flatMap labelBytes ++ [0] := by
          rw [WireName.toBytes, WireName.ending, hname']
        rw [hbytes] at hname hle ⊢
        rw [List.length_append, List.length_singleton] at hle ⊢
        rw [skipLabels_of_holds name.labels_ok hname, ok_bind, if_pos (by omega)]
        rfl
      | some p =>
        -- its first byte would begin a pointer
        have hlabels : name.labels = [] := hend.resolve_left (by rw [hname']; exact Option.some_ne_none p)
        have hbytes : name.toBytes = [p.1, p.2] := by rw [WireName.toBytes, WireName.ending, hname', hlabels]; rfl
        rw [hbytes] at hname
        have hsame := hname.getElem?.symm.trans hfirst
        exact absurd (Option.some.inj hsame ▸ name.pointer_ok p hname') hpointer
    · right
      obtain ⟨o, ho, hlong⟩ := hoff.skipLabels (ε := ε)
      rw [ho, ok_bind, if_neg (Nat.not_lt.mpr hlong)]
      exact ⟨o, rfl, hlong⟩

/-! ## The data of a record -/

/-- The first label stays the first. -/
theorem gives_partsTurn {stop : Nat} (hstop : stop ≤ data.length) {s : Nat × List Text} {name : Text}
    (hname : s.2.head? = some name) :
    Gives (Turn.Ends (fun s' => s'.2.head? = some name) fun parts => parts.head? = some name)
      (partsTurn data stop s : Outcome ε _) := by
  intro turn hturn
  obtain ⟨turn', hturn', hends⟩ := returns_partsTurn (ε := ε) hstop s
  obtain rfl := Outcome.ok.inj (hturn'.symm.trans hturn)
  cases turn' with
  | next s' =>
    obtain ⟨-, -, htake⟩ : s.1 < s'.1 ∧ s.1 < data.length ∧ s'.2.take s.2.length = s.2 := hends
    show s'.2.head? = some name
    cases hparts : s.2 with
    | nil =>
      rw [hparts] at hname
      cases hname
    | cons first parts =>
      rw [hparts] at hname htake
      cases hnext : s'.2 with
      | nil =>
        rw [hnext] at htake
        cases htake
      | cons first' parts' =>
        rw [hnext, List.length_cons, List.take_succ_cons] at htake
        rw [(List.cons.inj htake).1]
        exact hname
  | done parts =>
    have hparts : parts = s.2 := hends
    show parts.head? = some name
    rw [hparts]
    exact hname

/-- The first label that is read is the one the data begin with. -/
theorem nameParts_head {start stop : Nat} (hstop : stop ≤ data.length) {parts : List Text} {name : Text}
    (h : (nameParts data start stop : Outcome ε _) = .ok parts) (hhead : parts.head? = some name) :
    ∃ b, data[start]? = some b ∧ b ≠ 0 ∧ isPointer b = false ∧ start + 1 + b.toNat ≤ stop ∧
      name = Text.fromUtf8Lossy ((data.drop (start + 1)).take b.toNat) := by
  rw [nameParts, Outcome.loop] at h
  obtain ⟨turn, hturn, h⟩ := bind_eq_ok.mp h
  have hdone : turn = .done [] → False := by
    rintro rfl
    obtain rfl := Outcome.ok.inj h
    cases hhead
  unfold partsTurn at hturn
  split at hturn
  · obtain ⟨b, hb, hturn⟩ := bind_eq_ok.mp hturn
    obtain ⟨b', hb', hbyte⟩ := returns_index (ε := ε) (show start < data.length by dsimp only at *; omega)
    rw [hb'] at hb
    obtain rfl := Outcome.ok.inj hb
    split at hturn
    · exact (hdone (Outcome.ok.inj hturn).symm).elim
    · split at hturn
      · exact (hdone (Outcome.ok.inj hturn).symm).elim
      · split at hturn
        · obtain ⟨label, hlabel, hturn⟩ := bind_eq_ok.mp hturn
          obtain rfl := Outcome.ok.inj hturn
          obtain ⟨piece, hpiece, hlabelBytes⟩ := returns_slice (ε := ε) (l := data)
            (show start + 1 ≤ start + 1 + b'.toNat by omega) (by dsimp only at *; omega)
          rw [hpiece] at hlabel
          obtain rfl := Outcome.ok.inj hlabel
          have hkept := gives_loop (fun s => s.2.head? = some (Text.fromUtf8Lossy piece))
            (fun s hs => gives_partsTurn hstop hs) (by rfl) parts h
          rw [hkept] at hhead
          refine ⟨b', hbyte, ‹_›, by simpa using ‹¬ isPointer b' = true›, ‹_›, ?_⟩
          rw [← Option.some.inj hhead, hlabelBytes, Nat.add_sub_cancel_left]
        · exact (hdone (Outcome.ok.inj hturn).symm).elim
  · exact (hdone (Outcome.ok.inj hturn).symm).elim

/-! ## Datagrams that are read as meant -/

/-- The first answer is a PTR record whose data begin with the label of this name. -/
def StatesName (data : Bytes) (id : UInt16) (name : Text) : Prop :=
  readU16 data 0 = some id ∧ ∃ (questions : List Question) (answer : DnsRecord) (label : Bytes),
    IsResponse data questions answer ∧ answer.rtype = 12 ∧ IsLabel label ∧ labelBytes label <+: answer.rdata ∧
      name = Text.fromUtf8Lossy label

/-- The resolver takes the datagram for what it is: one question; names that end where it takes them to end, their
lengths below sixty-four; and a PTR record as the first answer. -/
structure ReadAsMeant (data : Bytes) : Prop where
  one_question : readU16 data 4 = some 1
  question : ∀ q : Question, Holds data 12 q.toBytes → q.name.pointer = none ∨ ¬ q.qtype < 256
  name : ∀ (q : Question) (name : WireName), Holds data 12 (q.toBytes ++ name.toBytes) →
    name.pointer = none ∨ name.labels = []
  ptr : ∀ (q : Question) (name : WireName) (rtype : UInt16),
    Holds data 12 (q.toBytes ++ (name.toBytes ++ beBytes 2 rtype.toNat)) → rtype = 12
  question_lengths : LengthsValid data 12
  name_lengths : ∀ q : Question, Holds data 12 q.toBytes → LengthsValid data (12 + q.toBytes.length)
  label_length : ∀ (q : Question) (answer : DnsRecord) (b : UInt8) (rest : Bytes),
    Holds data 12 (q.toBytes ++ answer.toBytes) → answer.rdata = b :: rest → b.toNat < 64 ∨ isPointer b = true

/-- A record is made of the bytes behind its name. -/
theorem exists_answer {name : WireName} {rdlength : UInt16} (hname : Holds data k name.toBytes)
    (hrdlength : readU16 data (k + name.toBytes.length + 8) = some rdlength)
    (hfits : k + name.toBytes.length + 10 + rdlength.toNat ≤ data.length) :
    ∃ answer : DnsRecord, answer.name = name ∧ Holds data k answer.toBytes ∧
      answer.rdata = (data.drop (k + name.toBytes.length + 10)).take rdlength.toNat := by
  have hten : k + name.toBytes.length + 10 ≤ data.length := by omega
  have hrdata : ((data.drop (k + name.toBytes.length + 10)).take rdlength.toNat).length = rdlength.toNat := by
    rw [List.length_take, List.length_drop]
    omega
  have hlen : ((data.drop (k + name.toBytes.length)).take 10).length = 10 := by
    rw [List.length_take, List.length_drop]
    omega
  have hfixed := hname.append_take 10
  match hbytes : (data.drop (k + name.toBytes.length)).take 10, hlen with
  | [a, b, c, d, e, f, g, h, i, j], _ =>
    rw [hbytes] at hfixed
    have hword : word i j = rdlength := by
      have hij : Holds data (k + name.toBytes.length + 8) [i, j] :=
        @Holds.right _ data [a, b, c, d, e, f, g, h] [i, j] _ hfixed.right
      have hread : (u16At data (k + name.toBytes.length + 8) : Outcome Unit _) = .ok (word i j) :=
        u16At_of_getElem? hij.getElem? (@Holds.right _ data [i] [j] _ hij).getElem?
      exact Option.some.inj ((readU16_of_u16At (by omega) hread).symm.trans hrdlength)
    have hwhole := hfixed.append_take rdlength.toNat
    rw [List.length_append, ← Nat.add_assoc, show [a, b, c, d, e, f, g, h, i, j].length = 10 from rfl] at hwhole
    refine ⟨⟨name, word a b, word c d, UInt32.ofNat (beNat [e, f, g, h]),
      (data.drop (k + name.toBytes.length + 10)).take rdlength.toNat, by rw [hrdata]; exact rdlength.toNat_lt⟩,
      rfl, ?_, rfl⟩
    rw [DnsRecord.toBytes, DnsRecord.fixed]
    dsimp only
    rw [beBytes_word, beBytes_word, beBytes_u32OfNat rfl, hrdata, ← hword, beBytes_word, hword, ← List.append_assoc]
    exact hwhole

/-- **The name of a datagram that is read as meant** is the first label of its PTR record. -/
theorem answerName_states (hmeant : ReadAsMeant data) {id : UInt16} (hid : readU16 data 0 = some id) {name : Text}
    (h : (answerName data : Outcome ε _) = .ok (some name)) : StatesName data id name := by
  refine ⟨hid, ?_⟩
  unfold answerName at h
  split at h
  case isFalse => cases h
  case isTrue hlong =>
  obtain ⟨ancount, hancount, h⟩ := bind_eq_ok.mp h
  split at h
  case isFalse => cases h
  case isTrue hsome =>
  obtain ⟨offset, hquestion, h⟩ := bind_eq_ok.mp h
  split at h
  case isFalse => cases h
  case isTrue hroom =>
  obtain ⟨offset', hrecord, h⟩ := bind_eq_ok.mp h
  dsimp only at h
  split at h
  case isFalse => cases h
  case isTrue hfixed =>
  obtain ⟨rdlength, hrdlength, h⟩ := bind_eq_ok.mp h
  split at h
  case isFalse => cases h
  case isTrue hfits =>
  obtain ⟨parts, hparts, hhead⟩ := bind_eq_ok.mp h
  -- the question
  rcases skipQuestion_cases (ε := ε) (show 12 ≤ data.length by omega) hmeant.question_lengths with
    ⟨q, hq⟩ | ⟨o, ho, hover⟩
  case inr =>
    rw [ho] at hquestion
    obtain rfl := Outcome.ok.inj hquestion
    omega
  have hskip := skipQuestion_of_holds (ε := ε) q hq
  rw [if_neg fun hbad => (hmeant.question q hq).elim hbad.1 fun hno => hno hbad.2, Nat.add_zero, hquestion] at hskip
  obtain rfl := Outcome.ok.inj hskip
  -- the name of the record
  rcases skipRecordName_cases (ε := ε) (by omega) (hmeant.name_lengths q hq) with ⟨wire, hwire, hend⟩ | ⟨o, ho, hover⟩
  case inr =>
    rw [ho] at hrecord
    obtain rfl := Outcome.ok.inj hrecord
    omega
  rw [hend (hmeant.name q wire (hq.append hwire))] at hrecord
  obtain rfl := Outcome.ok.inj hrecord
  -- the record
  obtain ⟨answer, hanswerName, hanswer, hrdata⟩ :=
    exists_answer hwire (readU16_of_u16At hfixed hrdlength) hfits
  have hbody := hq.append hanswer
  have htype : answer.rtype = 12 := by
    refine hmeant.ptr q wire answer.rtype ?_
    rw [DnsRecord.toBytes, DnsRecord.fixed, hanswerName] at hbody
    simp only [← List.append_assoc] at hbody ⊢
    exact hbody.left.left.left.left
  -- the label its data begin with
  obtain ⟨b, hb, hne, hpointer, hlabel, rfl⟩ := nameParts_head hfits hparts (Outcome.ok.inj hhead)
  rw [show 12 + q.toBytes.length + wire.toBytes.length + 10 =
    12 + q.toBytes.length + wire.toBytes.length + 8 + 2 by omega] at hrdata
  generalize 12 + q.toBytes.length + wire.toBytes.length + 8 + 2 = start at hb hlabel hrdata hfits ⊢
  obtain ⟨more, hmore⟩ := Nat.exists_eq_add_of_le (show 1 + b.toNat ≤ rdlength.toNat by omega)
  have hfront : answer.rdata = b :: (data.drop (start + 1)).take (b.toNat + more) := by
    obtain ⟨hlt, rfl⟩ := List.getElem?_eq_some_iff.mp hb
    rw [hrdata, List.drop_eq_getElem_cons hlt, hmore, Nat.add_assoc, Nat.add_comm 1, List.take_succ_cons]
  have hsmall := (hmeant.label_length q answer b _ hbody hfront).resolve_right (by rw [hpointer]; decide)
  have hlen : ((data.drop (start + 1)).take b.toNat).length = b.toNat := by
    rw [List.length_take, List.length_drop]
    omega
  refine ⟨[q], answer, _, ⟨hmeant.one_question, by rw [List.length_singleton]; decide,
    ⟨ancount, readU16_of_u16At (by omega) hancount, hsome⟩, ?_⟩, htype, ⟨?_, by rw [hlen]; exact hsmall⟩, ?_, rfl⟩
  · rwa [List.flatMap_singleton]
  · rw [hlen]
    exact Nat.pos_of_ne_zero fun hzero => hne (UInt8.toNat_inj.mp hzero)
  · have htake : (data.drop (start + 1)).take b.toNat =
        ((data.drop (start + 1)).take (b.toNat + more)).take b.toNat := by
      rw [List.take_take, Nat.min_eq_left (Nat.le_add_right _ _)]
    rw [labelBytes, hlen, UInt8.ofNat_toNat, hfront, List.prefix_cons_inj, htake]
    exact List.take_prefix _ _

/-! ## Responses in step are read as meant -/

/-- Labels tell where they end. -/
theorem labels_unique {labels labels' : List Bytes} (h : ∀ l ∈ labels, IsLabel l) (h' : ∀ l ∈ labels', IsLabel l)
    {rest rest' : Bytes} (hrest : ∀ l more, IsLabel l → rest ≠ labelBytes l ++ more)
    (hrest' : ∀ l more, IsLabel l → rest' ≠ labelBytes l ++ more)
    (heq : labels.flatMap labelBytes ++ rest = labels'.flatMap labelBytes ++ rest') : labels = labels' := by
  have hfree : ∀ {l m : { l // IsLabel l }} {x y}, labelBytes l.1 ++ x = labelBytes m.1 ++ y → l = m := by
    intro l m x y hlm
    rw [labelBytes, labelBytes, List.cons_append, List.cons_append] at hlm
    obtain ⟨hlen, hbytes⟩ := List.cons.inj hlm
    have hsame := congrArg UInt8.toNat hlen
    rw [toNat_length l.2, toNat_length m.2] at hsame
    exact Subtype.ext (List.append_inj_left hbytes hsame)
  have hmap : ∀ {ls : List Bytes} (hls : ∀ l ∈ ls, IsLabel l),
      (ls.attachWith IsLabel hls).flatMap (fun l => labelBytes l.1) = ls.flatMap labelBytes := by
    intro ls hls
    rw [← List.flatMap_map Subtype.val labelBytes, List.attachWith_map_subtype_val]
  have hunique := @records_unique _ _ (fun l : { l // IsLabel l } => labelBytes l.1) hfree (labels.attachWith IsLabel h)
    (labels'.attachWith IsLabel h') rest rest' (fun l more => hrest l.1 more l.2) (fun l more => hrest' l.1 more l.2)
    (by rw [hmap h, hmap h']; exact heq)
  have hvals := congrArg (List.map Subtype.val) hunique
  rwa [List.attachWith_map_subtype_val, List.attachWith_map_subtype_val] at hvals

/-- The end of a name is not a label. -/
theorem ending_ne_label (name : WireName) (more : Bytes) (l more' : Bytes) (hl : IsLabel l) :
    name.ending ++ more ≠ labelBytes l ++ more' := by
  obtain ⟨hzero, hpointer⟩ := length_ne hl
  have hok := name.pointer_ok
  intro heq
  rw [WireName.ending] at heq
  cases hname : name.pointer with
  | none =>
    rw [hname] at heq
    exact hzero (List.cons.inj heq).1.symm
  | some p =>
    rw [hname] at heq
    rw [← (List.cons.inj heq).1, hok p hname] at hpointer
    cases hpointer

/-- There is one name at a place. -/
theorem name_unique {name name' : WireName} (h : Holds data k name.toBytes) (h' : Holds data k name'.toBytes) :
    name = name' := by
  have hdrop := h.drop
  rw [h'.drop, WireName.toBytes, WireName.toBytes, List.append_assoc, List.append_assoc] at hdrop
  have hlabels := labels_unique name'.labels_ok name.labels_ok (ending_ne_label name' _) (ending_ne_label name _) hdrop
  rw [hlabels, List.append_cancel_left_eq, WireName.ending, WireName.ending] at hdrop
  obtain ⟨labels, pointer, labels_ok, pointer_ok⟩ := name
  obtain ⟨labels', pointer', labels_ok', pointer_ok'⟩ := name'
  have hpointer : ∀ {hi lo : UInt8} {x y : Bytes}, isPointer hi = true → [0] ++ x ≠ [hi, lo] ++ y := by
    intro hi lo x y hp heq
    rw [← (List.cons.inj heq).1] at hp
    revert hp
    decide
  cases pointer with
  | none =>
    cases pointer' with
    | none => cases hlabels; rfl
    | some p => exact absurd hdrop.symm (hpointer (pointer_ok' p rfl))
  | some p =>
    cases pointer' with
    | none => exact absurd hdrop (hpointer (pointer_ok p rfl))
    | some p' =>
      cases hlabels
      obtain ⟨hhi, hmore⟩ := List.cons.inj hdrop
      obtain ⟨hlo, -⟩ := List.cons.inj hmore
      obtain rfl : p' = p := Prod.ext hhi hlo
      rfl

/-- Where there is a name the lengths are valid. -/
theorem lengthsValid_of_name {name : WireName} (h : Holds data k name.toBytes) : LengthsValid data k := by
  intro labels hlabels hholds b hb
  by_contra hbad
  obtain ⟨hlarge, hpointer⟩ := not_or.mp hbad
  have hrest : data.drop (k + (labels.flatMap labelBytes).length) =
      b :: data.drop (k + (labels.flatMap labelBytes).length + 1) := by
    obtain ⟨hlt, rfl⟩ := List.getElem?_eq_some_iff.mp hb
    exact List.drop_eq_getElem_cons hlt
  have hdrop := hholds.drop
  rw [h.drop, WireName.toBytes, List.append_assoc, hrest] at hdrop
  have hno : ∀ l more, IsLabel l →
      b :: data.drop (k + (labels.flatMap labelBytes).length + 1) ≠ labelBytes l ++ more := by
    intro l more hl heq
    have hlen := congrArg UInt8.toNat (List.cons.inj heq).1
    rw [toNat_length hl] at hlen
    exact hlarge (hlen ▸ hl.2)
  have hsame := labels_unique name.labels_ok hlabels (ending_ne_label name _) hno hdrop
  rw [hsame, List.append_cancel_left_eq] at hdrop
  have hok := name.pointer_ok
  rw [WireName.ending] at hdrop
  cases hname : name.pointer with
  | none =>
    rw [hname] at hdrop
    rw [← (List.cons.inj hdrop).1] at hlarge
    exact hlarge (by decide)
  | some p =>
    rw [hname] at hdrop
    rw [← (List.cons.inj hdrop).1] at hpointer
    exact hpointer (hok p hname)

/-- A number at a place is one number. -/
theorem number_unique {m n : UInt16} (h : Holds data k (beBytes 2 m.toNat)) (h' : Holds data k (beBytes 2 n.toNat)) :
    m = n := by
  have hread : (u16At data k : Outcome Unit _) = .ok m := u16At_of_holds h
  have hread' : (u16At data k : Outcome Unit _) = .ok n := u16At_of_holds h'
  exact Outcome.ok.inj (hread.symm.trans hread')

theorem question_unique {q q' : Question} (h : Holds data k q.toBytes) (h' : Holds data k q'.toBytes) :
    q.name = q'.name ∧ q.qtype = q'.qtype ∧ q.toBytes.length = q'.toBytes.length := by
  rw [Question.toBytes] at h h'
  have hname := name_unique h.left h'.left
  rw [← hname] at h'
  have htype := number_unique h.right.left h'.right.left
  refine ⟨hname, htype, ?_⟩
  rw [Question.toBytes, Question.toBytes, ← hname]
  simp only [List.length_append, length_beBytes]

theorem answer_unique {a a' : DnsRecord} (h : Holds data k a.toBytes) (h' : Holds data k a'.toBytes) :
    a.rtype = a'.rtype ∧ a.rdata = a'.rdata := by
  rw [DnsRecord.toBytes] at h h'
  have hname := name_unique h.left h'.left
  rw [← hname] at h'
  have hfixed := h.right.left
  have hfixed' := h'.right.left
  have hdata := h.right.right
  have hdata' := h'.right.right
  rw [DnsRecord.fixed] at hfixed hfixed'
  have hlen : UInt16.ofNat a.rdata.length = UInt16.ofNat a'.rdata.length := by
    have hplace := hfixed.right
    have hplace' := hfixed'.right
    simp only [List.length_append, length_beBytes] at hplace hplace'
    exact number_unique (by rw [a.toNat_length_rdata]; exact hplace) (by rw [a'.toNat_length_rdata]; exact hplace')
  have hsame : a.rdata.length = a'.rdata.length := by rw [← a.toNat_length_rdata, hlen, a'.toNat_length_rdata]
  rw [DnsRecord.length_fixed] at hdata hdata'
  refine ⟨number_unique hfixed.left.left hfixed'.left.left, ?_⟩
  rw [← hdata.drop_take, ← hdata'.drop_take, hsame]

/-- **A response in step to one question is read as meant**, if its first answer is a PTR record. -/
theorem readAsMeant_of_response {q : Question} {answer : DnsRecord} (h : IsResponse data [q] answer)
    (hin : InStep [q] answer) (hptr : answer.rtype = 12)
    (hfirst : ∀ b rest, answer.rdata = b :: rest → b.toNat < 64 ∨ isPointer b = true) : ReadAsMeant data := by
  have hbody := h.body
  rw [List.flatMap_singleton] at hbody
  have hname : Holds data (12 + q.toBytes.length) answer.name.toBytes := by
    have hanswer := hbody.right
    rw [DnsRecord.toBytes] at hanswer
    exact hanswer.left
  have hquestion := hbody.left
  rw [Question.toBytes] at hquestion
  refine ⟨h.qdcount, ?_, ?_, ?_, lengthsValid_of_name hquestion.left, ?_, ?_⟩
  · intro q' hq'
    obtain ⟨hsame, htype, -⟩ := question_unique hbody.left hq'
    rw [← hsame, ← htype]
    exact hin.questions q List.mem_cons_self
  · intro q' name hholds
    have hplace := hholds.right
    rw [← (question_unique hbody.left hholds.left).2.2] at hplace
    rw [← name_unique hname hplace]
    exact hin.answer
  · intro q' name rtype hholds
    have hplace := hholds.right
    rw [← (question_unique hbody.left hholds.left).2.2] at hplace
    obtain rfl := name_unique hname hplace.left
    have hanswer := hbody.right
    rw [DnsRecord.toBytes, DnsRecord.fixed] at hanswer
    exact (number_unique hplace.right hanswer.right.left.left.left).trans hptr
  · intro q' hq'
    rw [← (question_unique hbody.left hq').2.2]
    exact lengthsValid_of_name hname
  · intro q' answer' b rest hholds hrdata
    have hplace := hholds.right
    rw [← (question_unique hbody.left hholds.left).2.2] at hplace
    exact hfirst b rest ((answer_unique hbody.right hplace).2.trans hrdata)

end Idnx
