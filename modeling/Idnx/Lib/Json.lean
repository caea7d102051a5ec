import Idnx.Lib.Replace
import Idnx.Lib.Text
import Mathlib.Data.Char

/-!
# JSON texts

`render` writes a value without spaces, each character of a string by a code that is a parameter; `parse` reads any
JSON text. Where every code is one that a string literal may use for its character (`Codes`), a rendered value is read
back as it was (`parse_render`). What is done to a rendered text can be seen as done to the value: rewriting its
characters changes the codes (`flatMap_render`), replacing a pattern that begins with two braces replaces it in the
strings (`replace_render`).
-/

namespace Idnx

/-! ## Values -/

namespace Json

def isDigit (c : Char) : Bool := '0' ≤ c && c ≤ '9'

/-- The characters of number literals. -/
def isNumberChar (c : Char) : Bool := isDigit c || c == '-' || c == '+' || c == '.' || c == 'e' || c == 'E'

/-- One digit or more. -/
def isDigits (t : Text) : Bool := !t.isEmpty && t.all isDigit

/-- The digits before the point: no leading zero. -/
def isInteger (t : Text) : Bool := isDigits t && (t.length == 1 || t.head? != some '0')

/-- An exponent with its sign, or nothing. -/
def isExponent : Text → Bool
  | [] => true
  | e :: t => (e == 'e' || e == 'E') && isDigits (match t with
    | '+' :: digits => digits
    | '-' :: digits => digits
    | digits => digits)

/-- What follows the integer: a fraction, or nothing, and then the exponent. -/
def isFraction : Text → Bool
  | '.' :: t => isDigits (t.takeWhile isDigit) && isExponent (t.dropWhile isDigit)
  | t => isExponent t

def isMagnitude (t : Text) : Bool := isInteger (t.takeWhile isDigit) && isFraction (t.dropWhile isDigit)

/-- The grammar of number literals. -/
def isNumber (t : Text) : Bool :=
  t.all isNumberChar && isMagnitude (if t.head? = some '-' then t.tail else t)

end Json

/-- A number, kept as it is written. -/
structure JsonNumber where
  text : Text
  valid : Json.isNumber text = true

inductive Json where
  | null
  | bool (b : Bool)
  | number (n : JsonNumber)
  | string (s : Text)
  | array (items : List Json)
  | object (members : List (Text × Json))

namespace Json

/-- Induction over a value, its arrays and its objects. -/
theorem induction {P : Json → Prop} {I : List Json → Prop} {M : List (Text × Json) → Prop} (null : P .null)
    (bool : ∀ b, P (.bool b)) (number : ∀ n, P (.number n)) (string : ∀ s, P (.string s))
    (array : ∀ vs, I vs → P (.array vs)) (object : ∀ ms, M ms → P (.object ms)) (noItem : I [])
    (item : ∀ v vs, P v → I vs → I (v :: vs)) (noMember : M [])
    (member : ∀ k v ms, P v → M ms → M ((k, v) :: ms)) (v : Json) : P v :=
  @Json.rec P I M (fun m => P m.2) null bool number string array object noItem item noMember
    (fun m ms hv hms => member m.1 m.2 ms hv hms) (fun _ _ hv => hv) v

/-! ## Writing -/

section Render

variable (esc : Char → Text)

/-- A string literal. -/
def quote (s : Text) : Text := '"' :: (s.flatMap esc ++ ['"'])

mutual

/-- The text of a value, without spaces. -/
def render : Json → Text
  | .null => "null".toList
  | .bool true => "true".toList
  | .bool false => "false".toList
  | .number n => n.text
  | .string s => quote esc s
  | .array vs => '[' :: renderItems [] vs
  | .object ms => '{' :: renderMembers [] ms

/-- The items from here on, `sep` before the first of them. -/
def renderItems (sep : Text) : List Json → Text
  | [] => [']']
  | v :: vs => sep ++ (render v ++ renderItems [','] vs)

/-- The members from here on, `sep` before the first of them. -/
def renderMembers (sep : Text) : List (Text × Json) → Text
  | [] => ['}']
  | (k, v) :: ms => sep ++ (quote esc k ++ ':' :: (render v ++ renderMembers [','] ms))

end

theorem render_null : render esc .null = "null".toList := rfl

theorem render_bool (b : Bool) : render esc (.bool b) = (if b then "true" else "false").toList := by cases b <;> rfl

theorem render_number (n : JsonNumber) : render esc (.number n) = n.text := rfl

theorem render_string (s : Text) : render esc (.string s) = quote esc s := rfl

theorem render_array (vs : List Json) : render esc (.array vs) = '[' :: renderItems esc [] vs := rfl

theorem render_object (ms : List (Text × Json)) : render esc (.object ms) = '{' :: renderMembers esc [] ms := rfl

end Render

/-! ## Reading -/

/-- The white space between tokens. -/
def isSpace (c : Char) : Bool := c == ' ' || c == '\t' || c == '\n' || c == '\r'

def skipSpace (t : Text) : Text := t.dropWhile isSpace

def hexDigit (c : Char) : Option Nat :=
  if '0' ≤ c ∧ c ≤ '9' then some (c.toNat - 48)
  else if 'a' ≤ c ∧ c ≤ 'f' then some (c.toNat - 87)
  else if 'A' ≤ c ∧ c ≤ 'F' then some (c.toNat - 55)
  else none

/-- Four hexadecimal digits. -/
def hexFour : Text → Option (Nat × Text)
  | a :: b :: c :: d :: rest => do
    let a ← hexDigit a
    let b ← hexDigit b
    let c ← hexDigit c
    let d ← hexDigit d
    some (4096 * a + 256 * b + 16 * c + d, rest)
  | _ => none

/-- What follows a backslash and a `u`: a character, in two halves if it is beyond the basic plane. -/
def unicode (t : Text) : Option (Char × Text) := do
  let (high, rest) ← hexFour t
  if 0xd800 ≤ high ∧ high < 0xdc00 then
    match rest with
    | '\\' :: 'u' :: rest => do
      let (low, rest) ← hexFour rest
      if 0xdc00 ≤ low ∧ low < 0xe000 then
        some (Char.ofNat (0x10000 + (high - 0xd800) * 0x400 + (low - 0xdc00)), rest)
      else none
    | _ => none
  else if 0xdc00 ≤ high ∧ high < 0xe000 then none
  else some (Char.ofNat high, rest)

/-- One character of a string literal; the closing quote is none. -/
def unescape : Text → Option (Char × Text)
  | [] => none
  | '\\' :: rest =>
    match rest with
    | '"' :: rest => some ('"', rest)
    | '\\' :: rest => some ('\\', rest)
    | '/' :: rest => some ('/', rest)
    | 'b' :: rest => some ('\x08', rest)
    | 'f' :: rest => some ('\x0c', rest)
    | 'n' :: rest => some ('\n', rest)
    | 'r' :: rest => some ('\r', rest)
    | 't' :: rest => some ('\t', rest)
    | 'u' :: rest => unicode rest
    | _ => none
  | c :: rest => if c = '"' ∨ c.toNat < 32 then none else some (c, rest)

/-- The rest of a string literal, after its opening quote. -/
def unquote : Nat → Text → Option (Text × Text)
  | 0, _ => none
  | fuel + 1, t =>
    if t.head? = some '"' then some ([], t.tail)
    else do
      let (c, rest) ← unescape t
      let (s, rest) ← unquote fuel rest
      some (c :: s, rest)

/-- The characters a number may have, as many as there are; they have to be a number. -/
def parseNumber (t : Text) : Option (Json × Text) :=
  if h : isNumber (t.takeWhile isNumberChar) = true then
    some (.number ⟨t.takeWhile isNumberChar, h⟩, t.dropWhile isNumberChar)
  else none

/-- The text after the next token, if that is the given character. -/
def token (c : Char) (t : Text) : Option Text :=
  match skipSpace t with
  | [] => none
  | d :: rest => if d = c then some rest else none

/-- A word that stands for a value. -/
def word (w : Text) (v : Json) (t : Text) : Option (Json × Text) :=
  if w.isPrefixOf t then some (v, t.drop w.length) else none

mutual

def parseValue : Nat → Text → Option (Json × Text)
  | 0, _ => none
  | fuel + 1, t =>
    match skipSpace t with
    | [] => none
    | c :: rest =>
      if c = '"' then do
        let (s, rest) ← unquote fuel rest
        some (.string s, rest)
      else if c = '[' then do
        let (vs, rest) ← parseArray fuel rest
        some (.array vs, rest)
      else if c = '{' then do
        let (ms, rest) ← parseObject fuel rest
        some (.object ms, rest)
      else if c = 'n' then word "ull".toList .null rest
      else if c = 't' then word "rue".toList (.bool true) rest
      else if c = 'f' then word "alse".toList (.bool false) rest
      else parseNumber (c :: rest)

/-- An array, after its bracket. -/
def parseArray : Nat → Text → Option (List Json × Text)
  | 0, _ => none
  | fuel + 1, t =>
    match token ']' t with
    | some rest => some ([], rest)
    | none => do
      let (v, rest) ← parseValue fuel t
      let (vs, rest) ← parseItems fuel rest
      some (v :: vs, rest)

/-- The items that follow an item. -/
def parseItems : Nat → Text → Option (List Json × Text)
  | 0, _ => none
  | fuel + 1, t =>
    match token ']' t with
    | some rest => some ([], rest)
    | none => do
      let rest ← token ',' t
      let (v, rest) ← parseValue fuel rest
      let (vs, rest) ← parseItems fuel rest
      some (v :: vs, rest)

/-- An object, after its brace. -/
def parseObject : Nat → Text → Option (List (Text × Json) × Text)
  | 0, _ => none
  | fuel + 1, t =>
    match token '}' t with
    | some rest => some ([], rest)
    | none => do
      let (k, v, rest) ← parseMember fuel t
      let (ms, rest) ← parseMembers fuel rest
      some ((k, v) :: ms, rest)

/-- A name, a colon and a value. -/
def parseMember : Nat → Text → Option (Text × Json × Text)
  | 0, _ => none
  | fuel + 1, t => do
    let rest ← token '"' t
    let (k, rest) ← unquote fuel rest
    let rest ← token ':' rest
    let (v, rest) ← parseValue fuel rest
    some (k, v, rest)

/-- The members that follow a member. -/
def parseMembers : Nat → Text → Option (List (Text × Json) × Text)
  | 0, _ => none
  | fuel + 1, t =>
    match token '}' t with
    | some rest => some ([], rest)
    | none => do
      let rest ← token ',' t
      let (k, v, rest) ← parseMember fuel rest
      let (ms, rest) ← parseMembers fuel rest
      some ((k, v) :: ms, rest)

end

/-- The value of a JSON text: one value, with nothing but white space around it. -/
def parse (t : Text) : Option Json := do
  let (v, rest) ← parseValue (t.length + 1) t
  if skipSpace rest = [] then some v else none

/-! ## What is written is read back -/

/-- Every code is one that a string literal may use for its character. -/
def Codes (esc : Char → Text) : Prop := ∀ c rest, unescape (esc c ++ rest) = some (c, rest)

section Codes

variable {esc : Char → Text}

theorem Codes.ne_nil (h : Codes esc) (c : Char) : esc c ≠ [] := by
  intro hnil
  have hempty := h c []
  rw [hnil] at hempty
  cases hempty

/-- A code does not begin as the end of the literal. -/
theorem Codes.head_ne (h : Codes esc) (c : Char) (rest : Text) : (esc c ++ rest).head? ≠ some '"' := by
  intro hhead
  have hread := h c rest
  cases ht : esc c ++ rest with
  | nil =>
    rw [ht] at hhead
    cases hhead
  | cons d t =>
    rw [ht, List.head?_cons] at hhead
    rw [ht, Option.some.inj hhead] at hread
    simp [unescape] at hread

theorem unquote_codes (h : Codes esc) (s rest : Text) {fuel : Nat} (hfuel : (s.flatMap esc).length < fuel) :
    unquote fuel (s.flatMap esc ++ '"' :: rest) = some (s, rest) := by
  induction s generalizing fuel with
  | nil =>
    obtain ⟨fuel, rfl⟩ := Nat.exists_eq_add_of_lt hfuel
    rfl
  | cons c s ih =>
    have hpos := List.length_pos_iff.mpr (h.ne_nil c)
    rw [List.flatMap_cons, List.length_append] at hfuel
    obtain ⟨fuel, rfl⟩ : ∃ n, fuel = n + 1 := ⟨fuel - 1, by omega⟩
    rw [unquote, List.flatMap_cons, List.append_assoc, if_neg (h.head_ne c _), h c, Option.bind_eq_bind,
      Option.bind_some]
    dsimp only
    rw [ih (by omega)]
    rfl

/-! ### Numbers -/

/-- What follows does not go on as a number. -/
def Ends (rest : Text) : Prop := ∀ c ∈ rest.head?, isNumberChar c = false

theorem isNumberChar_of_mem (n : JsonNumber) : ∀ c ∈ n.text, isNumberChar c = true := by
  have hvalid := n.valid
  rw [isNumber, Bool.and_eq_true, List.all_eq_true] at hvalid
  exact hvalid.1

/-- A number begins with a sign or a digit. -/
theorem number_text (n : JsonNumber) : ∃ c t, n.text = c :: t ∧ (c = '-' ∨ isDigit c = true) := by
  have hvalid := n.valid
  rw [isNumber, Bool.and_eq_true] at hvalid
  cases ht : n.text with
  | nil => rw [ht] at hvalid; exact absurd hvalid.2 (by decide)
  | cons c t =>
    refine ⟨c, t, rfl, ?_⟩
    by_cases hminus : c = '-'
    · exact .inl hminus
    · right
      have hmagnitude := hvalid.2
      rw [ht, if_neg (by simpa using hminus)] at hmagnitude
      by_contra hdigit
      rw [isMagnitude, List.takeWhile_cons, if_neg hdigit] at hmagnitude
      exact absurd hmagnitude (by simp [isInteger, isDigits])

theorem parseNumber_text (n : JsonNumber) {rest : Text} (hends : Ends rest) :
    parseNumber (n.text ++ rest) = some (.number n, rest) := by
  have hrest : rest.takeWhile isNumberChar = [] ∧ rest.dropWhile isNumberChar = rest := by
    cases rest with
    | nil => exact ⟨rfl, rfl⟩
    | cons c rest => simp [hends c rfl]
  have htake : (n.text ++ rest).takeWhile isNumberChar = n.text := by
    rw [List.takeWhile_append_of_pos (isNumberChar_of_mem n), hrest.1, List.append_nil]
  have hdrop : (n.text ++ rest).dropWhile isNumberChar = rest := by
    rw [List.dropWhile_append_of_pos (isNumberChar_of_mem n), hrest.2]
  simp only [parseNumber, htake, hdrop, n.valid, dite_true]

/-! ### Values -/

theorem skipSpace_cons {c : Char} (h : isSpace c = false) (t : Text) : skipSpace (c :: t) = c :: t := by
  simp [skipSpace, h]

theorem token_self {c : Char} (h : isSpace c = false) (t : Text) : token c (c :: t) = some t := by
  rw [token, skipSpace_cons h]
  exact if_pos rfl

theorem token_of_ne {c d : Char} (h : isSpace d = false) (hne : d ≠ c) (t : Text) : token c (d :: t) = none := by
  rw [token, skipSpace_cons h]
  exact if_neg hne

variable (esc) in
/-- A value begins with no space, and not as the end of an array. -/
theorem render_eq_cons (v : Json) : ∃ c t, render esc v = c :: t ∧ isSpace c = false ∧ c ≠ ']' := by
  cases v with
  | null => exact ⟨_, _, rfl, rfl, by decide⟩
  | bool b => cases b <;> exact ⟨_, _, rfl, rfl, by decide⟩
  | number n =>
    obtain ⟨c, t, ht, hc⟩ := number_text n
    refine ⟨c, t, ht, ?_⟩
    rcases hc with rfl | hc
    · decide
    · simp only [isDigit, Bool.and_eq_true, decide_eq_true_eq] at hc
      have hspaces : ∀ d ∈ [' ', '\t', '\n', '\r', ']'], ¬('0' ≤ d ∧ d ≤ '9') := by decide
      have hne : ∀ d ∈ [' ', '\t', '\n', '\r', ']'], c ≠ d := fun d hd he => hspaces d hd (he ▸ hc)
      exact ⟨by simp [isSpace, hne], hne ']' (by simp)⟩
  | string s => exact ⟨_, _, rfl, rfl, by decide⟩
  | array vs => exact ⟨_, _, rfl, rfl, by decide⟩
  | object ms => exact ⟨_, _, rfl, rfl, by decide⟩

theorem skipSpace_render (v : Json) (rest : Text) : skipSpace (render esc v ++ rest) = render esc v ++ rest := by
  obtain ⟨c, t, ht, hspace, -⟩ := render_eq_cons esc v
  rw [ht]
  exact skipSpace_cons hspace _

variable (esc) in
theorem length_render_pos (v : Json) : 0 < (render esc v).length := by
  obtain ⟨c, t, ht, -⟩ := render_eq_cons esc v
  rw [ht]
  exact Nat.zero_lt_succ _

variable (esc) in
theorem ends_items (vs : List Json) (rest : Text) :
    Ends (renderItems esc [','] vs ++ rest) ∧ 0 < (renderItems esc [','] vs).length := by
  cases vs <;> simp [renderItems, Ends, isNumberChar, isDigit]

variable (esc) in
theorem ends_members (ms : List (Text × Json)) (rest : Text) :
    Ends (renderMembers esc [','] ms ++ rest) ∧ 0 < (renderMembers esc [','] ms).length := by
  cases ms <;> simp [renderMembers, Ends, isNumberChar, isDigit]

/-- With as much fuel as it has characters, the value is read and what follows it is left. -/
def Reads (esc : Char → Text) (v : Json) : Prop :=
  ∀ fuel rest, Ends rest → (render esc v).length ≤ fuel → parseValue fuel (render esc v ++ rest) = some (v, rest)

theorem reads_number (n : JsonNumber) : Reads esc (.number n) := by
  intro fuel rest hends hfuel
  have hpos := length_render_pos esc (.number n)
  obtain ⟨fuel, rfl⟩ : ∃ m, fuel = m + 1 := ⟨fuel - 1, by omega⟩
  obtain ⟨c, t, ht, hc⟩ := number_text n
  have hwords : ∀ d ∈ ['"', '[', '{', 'n', 't', 'f'], c ≠ d := by
    rcases hc with rfl | hc
    · decide
    · simp only [isDigit, Bool.and_eq_true, decide_eq_true_eq] at hc
      have hletters : ∀ d ∈ ['"', '[', '{', 'n', 't', 'f'], ¬('0' ≤ d ∧ d ≤ '9') := by decide
      exact fun d hd he => hletters d hd (he ▸ hc)
  have hnumber := parseNumber_text n hends
  rw [parseValue, skipSpace_render, render_number]
  rw [ht, List.cons_append] at hnumber ⊢
  simp only [List.forall_mem_cons] at hwords
  obtain ⟨h₁, h₂, h₃, h₄, h₅, h₆, -⟩ := hwords
  simp only [h₁, h₂, h₃, h₄, h₅, h₆, if_false]
  exact hnumber

theorem reads_string (h : Codes esc) (s : Text) : Reads esc (.string s) := by
  intro fuel rest _ hfuel
  rw [render_string, quote, List.length_cons, List.length_append, List.length_singleton] at hfuel
  obtain ⟨fuel, rfl⟩ : ∃ m, fuel = m + 1 := ⟨fuel - 1, by omega⟩
  rw [parseValue, skipSpace_render, render_string, quote, List.cons_append]
  simp only [if_true]
  rw [List.append_assoc, List.singleton_append, unquote_codes h s rest (by omega)]
  rfl

/-- The items are read after an item, and from the beginning of their array. -/
def ReadsItems (esc : Char → Text) (vs : List Json) : Prop :=
  (∀ fuel rest, (renderItems esc [','] vs).length ≤ fuel →
    parseItems fuel (renderItems esc [','] vs ++ rest) = some (vs, rest)) ∧
  ∀ fuel rest, (renderItems esc [] vs).length ≤ fuel → parseArray fuel (renderItems esc [] vs ++ rest) = some
    (vs, rest)

theorem readsItems_nil : ReadsItems esc [] := by
  constructor <;>
  · intro fuel rest hfuel
    obtain ⟨fuel, rfl⟩ : ∃ m, fuel = m + 1 := ⟨fuel - 1, by simp [renderItems] at hfuel; omega⟩
    rfl

theorem readsItems_cons {v : Json} {vs : List Json} (hv : Reads esc v) (hvs : ReadsItems esc vs) :
    ReadsItems esc (v :: vs) := by
  have hpos := length_render_pos esc v
  constructor
  · intro fuel rest hfuel
    obtain ⟨hends, htail⟩ := ends_items esc vs rest
    rw [renderItems, List.singleton_append, List.length_cons, List.length_append] at hfuel
    obtain ⟨fuel, rfl⟩ : ∃ m, fuel = m + 1 := ⟨fuel - 1, by omega⟩
    rw [renderItems, List.singleton_append, List.cons_append, List.append_assoc, parseItems,
      token_of_ne rfl (by decide), token_self rfl]
    dsimp only [Option.bind_eq_bind, Option.bind_some]
    rw [hv fuel _ hends (by omega)]
    dsimp only [Option.bind_some]
    rw [hvs.1 fuel rest (by omega)]
    rfl
  · intro fuel rest hfuel
    obtain ⟨hends, htail⟩ := ends_items esc vs rest
    rw [renderItems, List.nil_append, List.length_append] at hfuel
    obtain ⟨fuel, rfl⟩ : ∃ m, fuel = m + 1 := ⟨fuel - 1, by omega⟩
    have hopen : token ']' (render esc v ++ (renderItems esc [','] vs ++ rest)) = none := by
      obtain ⟨c, t, ht, hspace, hne⟩ := render_eq_cons esc v
      rw [ht]
      exact token_of_ne hspace hne _
    rw [renderItems, List.nil_append, List.append_assoc, parseArray, hopen]
    dsimp only
    rw [hv fuel _ hends (by omega)]
    dsimp only [Option.bind_eq_bind, Option.bind_some]
    rw [hvs.1 fuel rest (by omega)]
    rfl

/-- A name and its value are read. -/
theorem parseMember_render (h : Codes esc) {v : Json} (hv : Reads esc v) (k rest : Text) (hends : Ends rest)
    {fuel : Nat}
    (hfuel : (quote esc k ++ ':' :: render esc v).length ≤ fuel) :
    parseMember fuel (quote esc k ++ ':' :: (render esc v ++ rest)) = some (k, v, rest) := by
  rw [quote, List.cons_append, List.length_cons, List.append_assoc, List.singleton_append, List.length_append,
    List.length_cons, List.length_cons] at hfuel
  obtain ⟨fuel, rfl⟩ : ∃ m, fuel = m + 1 := ⟨fuel - 1, by omega⟩
  rw [quote, List.cons_append, List.append_assoc, List.singleton_append, parseMember, token_self rfl]
  dsimp only [Option.bind_eq_bind, Option.bind_some]
  rw [unquote_codes h k _ (by omega)]
  dsimp only [Option.bind_some]
  rw [token_self rfl]
  dsimp only [Option.bind_some]
  rw [hv fuel rest hends (by omega)]
  rfl

def ReadsMembers (esc : Char → Text) (ms : List (Text × Json)) : Prop :=
  (∀ fuel rest, (renderMembers esc [','] ms).length ≤ fuel →
    parseMembers fuel (renderMembers esc [','] ms ++ rest) = some (ms, rest)) ∧
  ∀ fuel rest, (renderMembers esc [] ms).length ≤ fuel →
    parseObject fuel (renderMembers esc [] ms ++ rest) = some (ms, rest)

theorem readsMembers_nil : ReadsMembers esc [] := by
  constructor <;>
  · intro fuel rest hfuel
    obtain ⟨fuel, rfl⟩ : ∃ m, fuel = m + 1 := ⟨fuel - 1, by simp [renderMembers] at hfuel; omega⟩
    rfl

theorem readsMembers_cons (h : Codes esc) {k : Text} {v : Json} {ms : List (Text × Json)} (hv : Reads esc v)
    (hms : ReadsMembers esc ms) : ReadsMembers esc ((k, v) :: ms) := by
  have hwhole : ∀ rest, quote esc k ++ ':' :: (render esc v ++ renderMembers esc [','] ms) ++ rest =
      quote esc k ++ ':' :: (render esc v ++ (renderMembers esc [','] ms ++ rest)) := by simp
  have hlength : (quote esc k ++ ':' :: (render esc v ++ renderMembers esc [','] ms)).length =
      (quote esc k ++ ':' :: render esc v).length + (renderMembers esc [','] ms).length := by
    simp only [List.length_append, List.length_cons]
    omega
  have hpos : 0 < (quote esc k ++ ':' :: render esc v).length := Nat.zero_lt_succ _
  constructor
  · intro fuel rest hfuel
    obtain ⟨hends, htail⟩ := ends_members esc ms rest
    rw [renderMembers, List.singleton_append, List.length_cons, hlength] at hfuel
    obtain ⟨fuel, rfl⟩ : ∃ m, fuel = m + 1 := ⟨fuel - 1, by omega⟩
    rw [renderMembers, List.singleton_append, List.cons_append, hwhole, parseMembers, token_of_ne rfl (by decide),
      token_self rfl]
    dsimp only [Option.bind_eq_bind, Option.bind_some]
    rw [parseMember_render h hv k _ hends (by omega)]
    dsimp only [Option.bind_some]
    rw [hms.1 fuel rest (by omega)]
    rfl
  · intro fuel rest hfuel
    obtain ⟨hends, htail⟩ := ends_members esc ms rest
    rw [renderMembers, List.nil_append, hlength] at hfuel
    obtain ⟨fuel, rfl⟩ : ∃ m, fuel = m + 1 := ⟨fuel - 1, by omega⟩
    have hopen : ∀ t, token '}' (quote esc k ++ t) = none := fun t => token_of_ne rfl (by decide) _
    rw [renderMembers, List.nil_append, hwhole, parseObject, hopen]
    dsimp only
    rw [parseMember_render h hv k _ hends (by omega)]
    dsimp only [Option.bind_eq_bind, Option.bind_some]
    rw [hms.1 fuel rest (by omega)]
    rfl

theorem reads_render (h : Codes esc) (v : Json) : Reads esc v := by
  induction v using induction (I := ReadsItems esc) (M := ReadsMembers esc) with
  | null =>
    intro fuel rest _ hfuel
    obtain ⟨fuel, rfl⟩ : ∃ m, fuel = m + 1 := ⟨fuel - 1, by simp [render_null] at hfuel; omega⟩
    rfl
  | bool b =>
    intro fuel rest _ hfuel
    obtain ⟨fuel, rfl⟩ : ∃ m, fuel = m + 1 := ⟨fuel - 1, by cases b <;> simp [render_bool] at hfuel <;> omega⟩
    cases b <;> rfl
  | number n => exact reads_number n
  | string s => exact reads_string h s
  | array vs ih =>
    intro fuel rest _ hfuel
    rw [render_array, List.length_cons] at hfuel
    obtain ⟨fuel, rfl⟩ : ∃ m, fuel = m + 1 := ⟨fuel - 1, by omega⟩
    rw [parseValue, skipSpace_render, render_array, List.cons_append]
    simp only [Char.reduceEq, if_false, if_true]
    rw [ih.2 fuel rest (by omega)]
    rfl
  | object ms ih =>
    intro fuel rest _ hfuel
    rw [render_object, List.length_cons] at hfuel
    obtain ⟨fuel, rfl⟩ : ∃ m, fuel = m + 1 := ⟨fuel - 1, by omega⟩
    rw [parseValue, skipSpace_render, render_object, List.cons_append]
    simp only [Char.reduceEq, if_false, if_true]
    rw [ih.2 fuel rest (by omega)]
    rfl
  | noItem => exact readsItems_nil
  | item v vs hv hvs => exact readsItems_cons hv hvs
  | noMember => exact readsMembers_nil
  | member k v ms hv hms => exact readsMembers_cons h hv hms

/-- **A value that is written by codes for its characters is read back as it was.** -/
theorem parse_render (h : Codes esc) (v : Json) : parse (render esc v) = some v := by
  have hread := reads_render h v ((render esc v).length + 1) [] (fun _ hc => nomatch hc) (by omega)
  rw [List.append_nil] at hread
  rw [parse, hread]
  rfl

theorem render_injective (h : Codes esc) : Function.Injective (render esc) := by
  intro v w hvw
  have hparse := parse_render h v
  rw [hvw, parse_render h w] at hparse
  exact (Option.some.inj hparse).symm

end Codes

/-! ## The strings of a value -/

mutual

/-- The strings of a value, the names of its members included. -/
def strings : Json → List Text
  | .string s => [s]
  | .array vs => itemStrings vs
  | .object ms => memberStrings ms
  | _ => []

def itemStrings : List Json → List Text
  | [] => []
  | v :: vs => strings v ++ itemStrings vs

def memberStrings : List (Text × Json) → List Text
  | [] => []
  | (k, v) :: ms => k :: (strings v ++ memberStrings ms)

end

section MapStrings

variable (f : Text → Text)

mutual

/-- The value with each of its strings changed. -/
def mapStrings : Json → Json
  | .string s => .string (f s)
  | .array vs => .array (mapItems vs)
  | .object ms => .object (mapMembers ms)
  | v => v

def mapItems : List Json → List Json
  | [] => []
  | v :: vs => mapStrings v :: mapItems vs

def mapMembers : List (Text × Json) → List (Text × Json)
  | [] => []
  | (k, v) :: ms => (f k, mapStrings v) :: mapMembers ms

end

variable {f}

theorem mapStrings_eq_self_iff (v : Json) : mapStrings f v = v ↔ ∀ s ∈ strings v, f s = s := by
  induction v using induction (I := fun vs => mapItems f vs = vs ↔ ∀ s ∈ itemStrings vs, f s = s)
    (M := fun ms => mapMembers f ms = ms ↔ ∀ s ∈ memberStrings ms, f s = s) with
  | null => simp [mapStrings, strings]
  | bool b => simp [mapStrings, strings]
  | number n => simp [mapStrings, strings]
  | string s => simp [mapStrings, strings]
  | array vs ih => simp only [mapStrings, strings, array.injEq, ih]
  | object ms ih => simp only [mapStrings, strings, object.injEq, ih]
  | noItem => simp [mapItems, itemStrings]
  | item v vs hv hvs => simp only [mapItems, itemStrings, List.cons.injEq, hv, hvs, List.forall_mem_append]
  | noMember => simp [mapMembers, memberStrings]
  | member k v ms hv hms =>
    simp only [mapMembers, memberStrings, List.cons.injEq, Prod.mk.injEq, hv, hms, List.forall_mem_cons,
      List.forall_mem_append, and_assoc]

end MapStrings

/-! ## What is done to the text -/

section Recode

variable {esc code : Char → Text}

/-- The characters that stand outside strings. -/
def isSyntax (c : Char) : Bool :=
  isNumberChar c || ['"', '[', ']', '{', '}', ',', ':', 'n', 'u', 'l', 't', 'r', 'e', 'f', 'a', 's'].contains c

variable (esc) in
theorem flatMap_quote (h : code '"' = ['"']) (s : Text) :
    (quote esc s).flatMap code = quote (fun c => (esc c).flatMap code) s := by
  simp [quote, h, List.flatMap_assoc]

/-- **To rewrite the characters of the text is to write the strings by other codes**, if what stands outside them
stays. -/
theorem flatMap_render (h : ∀ c, isSyntax c = true → code c = [c]) (v : Json) :
    (render esc v).flatMap code = render (fun c => (esc c).flatMap code) v := by
  have hquote := fun s => flatMap_quote esc (h '"' rfl) s
  have hfixed : ∀ t : Text, (∀ c ∈ t, isSyntax c = true) → t.flatMap code = t := fun t ht =>
    flatMap_eq_self fun c hc => h c (ht c hc)
  induction v using induction
    (I := fun vs => ∀ sep, (∀ c ∈ sep, isSyntax c = true) →
      (renderItems esc sep vs).flatMap code = renderItems (fun c => (esc c).flatMap code) sep vs)
    (M := fun ms => ∀ sep, (∀ c ∈ sep, isSyntax c = true) →
      (renderMembers esc sep ms).flatMap code = renderMembers (fun c => (esc c).flatMap code) sep ms) with
  | null => exact hfixed "null".toList (by decide)
  | bool b =>
    cases b with
    | true => exact hfixed "true".toList (by decide)
    | false => exact hfixed "false".toList (by decide)
  | number n =>
    refine hfixed n.text fun c hc => ?_
    rw [isSyntax, isNumberChar_of_mem n c hc, Bool.true_or]
  | string s => exact hquote s
  | array vs ih =>
    rw [render_array, render_array, List.flatMap_cons, h '[' rfl, ih [] (by simp), List.singleton_append]
  | object ms ih =>
    rw [render_object, render_object, List.flatMap_cons, h '{' rfl, ih [] (by simp), List.singleton_append]
  | noItem => exact hfixed [']'] (by decide)
  | item v vs hv hvs sep hsep =>
    rw [renderItems, renderItems, List.flatMap_append, hfixed sep hsep, List.flatMap_append, hv,
      hvs [','] (by decide)]
  | noMember => exact hfixed ['}'] (by decide)
  | member k v ms hv hms sep hsep =>
    rw [renderMembers, renderMembers, List.flatMap_append, hfixed sep hsep, List.flatMap_append, hquote,
      List.flatMap_cons, h ':' rfl, List.flatMap_append, hv, hms [','] (by decide), List.singleton_append]

end Recode

section Replace

variable {esc : Char → Text} {marks new : Text}

/-- Where the text does not go on with two braces, no occurrence begins. -/
theorem replace_cons_of_ne {c : Char} (h : c ≠ '{') (t : Text) :
    replace ('{' :: '{' :: marks) new (c :: t) = c :: replace ('{' :: '{' :: marks) new t :=
  replace_cons fun hbegins => h (List.cons_prefix_cons.mp hbegins).1.symm

theorem replace_brace {t : Text} (h : t.head? ≠ some '{') :
    replace ('{' :: '{' :: marks) new ('{' :: t) = '{' :: replace ('{' :: '{' :: marks) new t := by
  refine replace_cons fun hbegins => h ?_
  obtain ⟨rest, hrest⟩ := (List.cons_prefix_cons.mp hbegins).2
  rw [← hrest]
  rfl

theorem replace_append_of_ne {a : Text} (h : ∀ c ∈ a, c ≠ '{') (t : Text) :
    replace ('{' :: '{' :: marks) new (a ++ t) = a ++ replace ('{' :: '{' :: marks) new t := by
  induction a with
  | nil => rfl
  | cons c a ih =>
    rw [List.forall_mem_cons] at h
    rw [List.cons_append, replace_cons_of_ne h.1, ih h.2, List.cons_append]

theorem replace_quote (hspells : Spells ('{' :: '{' :: marks) new esc) (hquote : '"' ∉ marks) (s rest : Text) :
    replace ('{' :: '{' :: marks) new (quote esc s ++ rest) =
      quote esc (replace ('{' :: '{' :: marks) new s) ++ replace ('{' :: '{' :: marks) new rest := by
  have hpat : ('{' :: '{' :: marks) ≠ [] := List.cons_ne_nil _ _
  have hmem : '"' ∉ '{' :: '{' :: marks := by simp [hquote]
  rw [quote, quote, List.cons_append, replace_cons_of_ne (by decide), List.append_assoc, List.singleton_append,
    replace_append_cons hpat hmem, hspells.replace_flatMap hpat, List.cons_append, List.append_assoc,
    List.singleton_append]

theorem head?_members (ms : List (Text × Json)) (rest : Text) :
    (renderMembers esc [] ms ++ rest).head? ≠ some '{' := by
  cases ms <;> simp [renderMembers, quote]

/-- A pattern that begins with two braces is replaced in the strings only: outside them, a brace is followed by a
quote or by its closing brace. -/
theorem replace_render_append (hspells : Spells ('{' :: '{' :: marks) new esc) (hquote : '"' ∉ marks) (v : Json) :
    ∀ rest, replace ('{' :: '{' :: marks) new (render esc v ++ rest) =
      render esc (mapStrings (replace ('{' :: '{' :: marks) new) v) ++ replace ('{' :: '{' :: marks) new rest := by
  have hfixed : ∀ t : Text, t.all (· ≠ '{') = true → ∀ rest, replace ('{' :: '{' :: marks) new (t ++ rest) =
      t ++ replace ('{' :: '{' :: marks) new rest := by
    intro t ht rest
    rw [List.all_eq_true] at ht
    exact replace_append_of_ne (fun c hc => by simpa using ht c hc) rest
  induction v using induction
    (I := fun vs => ∀ sep, sep.all (· ≠ '{') = true → ∀ rest,
      replace ('{' :: '{' :: marks) new (renderItems esc sep vs ++ rest) =
        renderItems esc sep (mapItems (replace ('{' :: '{' :: marks) new) vs) ++ replace
        ('{' :: '{' :: marks) new rest)
    (M := fun ms => ∀ sep, sep.all (· ≠ '{') = true → ∀ rest,
      replace ('{' :: '{' :: marks) new (renderMembers esc sep ms ++ rest) =
        renderMembers esc sep (mapMembers (replace ('{' :: '{' :: marks) new) ms) ++
          replace ('{' :: '{' :: marks) new rest) with
  | null => exact hfixed "null".toList (by decide)
  | bool b =>
    cases b with
    | true => exact hfixed "true".toList (by decide)
    | false => exact hfixed "false".toList (by decide)
  | number n =>
    refine hfixed n.text (List.all_eq_true.mpr fun c hc => decide_eq_true fun he => ?_)
    have hnumber := isNumberChar_of_mem n c hc
    rw [he] at hnumber
    exact absurd hnumber (by decide)
  | string s => exact replace_quote hspells hquote s
  | array vs ih =>
    intro rest
    rw [render_array, List.cons_append, replace_cons_of_ne (by decide), ih [] rfl, mapStrings, render_array,
      List.cons_append]
  | object ms ih =>
    intro rest
    rw [render_object, List.cons_append, replace_brace (head?_members ms rest), ih [] rfl, mapStrings, render_object,
      List.cons_append]
  | noItem sep hsep rest => exact hfixed [']'] (by decide) rest
  | item v vs hv hvs sep hsep rest =>
    rw [renderItems, List.append_assoc, hfixed sep hsep, List.append_assoc, hv, hvs [','] rfl, mapItems, renderItems,
      List.append_assoc, List.append_assoc]
  | noMember sep hsep rest => exact hfixed ['}'] (by decide) rest
  | member k v ms hv hms sep hsep rest =>
    rw [renderMembers, List.append_assoc, hfixed sep hsep, List.append_assoc, replace_quote hspells hquote,
      List.cons_append, replace_cons_of_ne (by decide), List.append_assoc, hv, hms [','] rfl, mapMembers,
      renderMembers, List.append_assoc, List.append_assoc, List.cons_append, List.append_assoc]

/-- **To replace such a pattern in the text is to replace it in the strings.** -/
theorem replace_render (hspells : Spells ('{' :: '{' :: marks) new esc) (hquote : '"' ∉ marks) (v : Json) :
    replace ('{' :: '{' :: marks) new (render esc v) =
      render esc (mapStrings (replace ('{' :: '{' :: marks) new) v) := by
  have h := replace_render_append hspells hquote v []
  rwa [List.append_nil, replace_nil, List.append_nil] at h

end Replace

end Json

end Idnx
