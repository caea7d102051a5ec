import Idnx.Lib.Framing
import Idnx.Lib.Lines
import Idnx.Lib.Map
import Idnx.Lib.Outcome

/-!
# Registrations of hardware addresses

The registry assigns blocks of hardware addresses: of 24 bits (MA-L), 28 (MA-M) or 36 (MA-S). It is read into a map
from prefixes to organisations, from CSV, where the digits of an assignment are its prefix (`parseIeeeCsv`), or from
text, where a first line has the first six digits and a second one the range below them (`parseIeeeText`). An address
belongs to the longest prefix in the map (`lookupInCache`).
-/

namespace Idnx

open Outcome

variable {ε : Type}

namespace Text

/-! ## Digits -/

def isHexDigit (c : Char) : Bool := (hexDigit c).isSome

def toAsciiUppercase (t : Text) : Text := t.map Char.toUpper

def eqIgnoreAsciiCase (t u : Text) : Bool := t.toAsciiLowercase == u.toAsciiLowercase

/-- The bytes a text takes (`str::len`). -/
def byteLen (t : Text) : Nat := (t.map Char.utf8Size).sum

/-- The first `n` bytes of a text; a panic if they are not there, or end inside a character. -/
def sliceBytes : Text → Nat → Outcome ε Text
  | _, 0 => .ok []
  | [], _ + 1 => .panic
  | c :: cs, n =>
    if c.utf8Size ≤ n then do
      let rest ← sliceBytes cs (n - c.utf8Size)
      return c :: rest
    else .panic

/-- `u64::from_str_radix(t, 16)`: at least one digit, a leading `+` allowed, an error on overflow. -/
def parseHexU64 (t : Text) : Option Nat :=
  match t with
  | [] => none
  | '+' :: [] => none
  | '+' :: cs => hexValue (2 ^ 64) 0 cs
  | cs => hexValue (2 ^ 64) 0 cs

end Text

/-! ## The map -/

/-- One registry assignment: the exact organization name, and `MA-L`, `MA-M` or `MA-S`. -/
structure Assignment where
  organization : Text
  registry : Text
  deriving DecidableEq, Repr

/-- What is registered, by the length of the prefix and the prefix. -/
abbrev OuiIndex := Map (Nat × UInt64) Assignment

/-- Maps a count of significant hex digits to a supported prefix length. -/
def prefixBitsFor (hexDigits : Nat) : Option Nat :=
  match hexDigits with
  | 6 => some 24
  | 7 => some 28
  | 9 => some 36
  | _ => none

/-- The first `bits` of a value of forty-eight. -/
def maskedKey (bits : Nat) (value : UInt64) : UInt64 :=
  value &&& (~~~0 <<< UInt64.ofNat (48 - bits)) &&& 0xFFFFFFFFFFFF

/-- Builds the lookup key for a prefix of the given bit length. -/
def prefixKey (hex : Text) (bits : Nat) : Outcome ε (Option UInt64) :=
  let needed := bits / 4
  if hex.byteLen < needed then .ok none
  else do
    let digits ← hex.sliceBytes needed
    let padded := digits ++ List.replicate (12 - digits.length) '0'
    return (Text.parseHexU64 padded).map fun value => maskedKey bits (UInt64.ofNat value)

/-- Enters an assignment under its key, if it has one. -/
def OuiIndex.enter (map : OuiIndex) (bits : Nat) (key : Option UInt64) (assignment : Assignment) : OuiIndex :=
  match key with
  | some key => AList.insert (bits, key) assignment map
  | none => map

/-- The hex digits of a text, in upper case. -/
def hexOf (t : Text) : Text := Text.toAsciiUppercase (t.filter Text.isHexDigit)

/-! ## CSV -/

/-- A record whose first three fields are the registry, the assignment and the organization. -/
def readCsvRecord (map : OuiIndex) (record : List Text) : Outcome ε OuiIndex :=
  match record with
  | registry :: assignment :: organization :: _ =>
    let hex := hexOf assignment
    match prefixBitsFor hex.byteLen with
    | some bits =>
      if organization.trim = [] then .ok map
      else do
        let key ← prefixKey hex bits
        return map.enter bits key ⟨organization.trim, registry.trim⟩
    | none => .ok map
  | _ => .ok map

/-- Parses the official IEEE CSV feeds. `records` is the CSV library: the records behind the header. -/
def parseIeeeCsv (records : Text → List (List Text)) (content : Text) (map : OuiIndex) : Outcome ε OuiIndex :=
  (records content).foldlM readCsvRecord map

/-! ## Text -/

/-- Number of leading characters two strings share. -/
def commonPrefixLen (a b : Text) : Nat := ((a.zip b).takeWhile fun xy => xy.1 == xy.2).length

/-- How many digits the two ends of a range share; a bare value is no range. -/
def significantDigits (range : Text) : Nat :=
  match Text.splitOnce '-' range with
  | some (start, stop) => commonPrefixLen start.trim stop.trim
  | none => 0

/-- A `(hex)` line: the first six digits, which only MA-L assigns as a whole. -/
def readHexLine (registry : Text) (map : OuiIndex) (prefixPart orgPart : Text) : Outcome ε (Option Text × OuiIndex) :=
  let hex := hexOf prefixPart
  if hex.byteLen ≠ 6 then .ok (none, map)
  else if registry.eqIgnoreAsciiCase "MA-L" ∧ orgPart.trim ≠ [] then do
    let key ← prefixKey hex 24
    return (some hex, map.enter 24 key ⟨orgPart.trim, registry⟩)
  else .ok (some hex, map)

/-- A `(base 16)` line: the range below the six digits. -/
def readRangeLine (registry : Text) (map : OuiIndex) (oui rangePart orgPart : Text) : Outcome ε OuiIndex :=
  if orgPart.trim = [] then .ok map
  else
    let range := rangePart.trim.toAsciiUppercase
    let significant := significantDigits range
    match prefixBitsFor ((24 + significant * 4) / 4) with
    | some bits => do
      let start := ((Text.split '-' range).head?).getD []
      let digits ← start.sliceBytes (min significant start.byteLen)
      let key ← prefixKey (oui ++ digits) bits
      return map.enter bits key ⟨orgPart.trim, registry⟩
    | none => .ok map

/-- One line; the first six digits are kept for the lines behind them. -/
def readLine (registry : Text) (state : Option Text × OuiIndex) (line : Text) : Outcome ε (Option Text × OuiIndex) :=
  match Text.splitOnceText "(hex)" line with
  | some (prefixPart, orgPart) => readHexLine registry state.2 prefixPart orgPart
  | none =>
    match Text.splitOnceText "(base 16)" line, state.1 with
    | some (rangePart, orgPart), some oui => do
      let map ← readRangeLine registry state.2 oui rangePart orgPart
      return (some oui, map)
    | _, _ => .ok state

/-- Parses the IEEE plain-text registries. -/
def parseIeeeText (content : Text) (map : OuiIndex) (registry : Text) : Outcome ε OuiIndex := do
  let state ← content.lines.foldlM (readLine registry) (none, map)
  return state.2

/-! ## Lookup -/

/-- The six octets of a hardware address as one number. -/
def asU64 (bytes : Bytes) : UInt64 := UInt64.ofNat (beNat bytes)

/-- Longest-prefix lookup: 36-bit, then 28-bit, then 24-bit. -/
def lookupInCache (index : OuiIndex) (bytes : Bytes) : Option Assignment :=
  if index.keys = [] then none
  else [36, 28, 24].findSome? fun bits => AList.lookup (bits, maskedKey bits (asU64 bytes)) index

end Idnx
