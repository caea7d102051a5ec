import Idnx.Lib.Text

/-!
# Limits on what arrives from a peer

The bounds that are checked before anything is parsed or stored, and what is said when one is broken.
-/

namespace Idnx

/-- The largest encrypted envelope (`MAX_ENVELOPE_BYTES`). -/
def maxEnvelopeBytes : Nat := 1024 * 1024

/-- Most evidence records one bundle may carry (`MAX_RECORDS`). -/
def maxRecords : Nat := 20000

/-- The longest single text (`MAX_TEXT_BYTES`). -/
def maxTextBytes : Nat := 1024

/-- The longest name of a vantage (`MAX_VANTAGE_BYTES`). -/
def maxVantageBytes : Nat := 64

/-- What a limit check refused. -/
inductive LimitError where
  | tooLarge (limit claimed : Nat)
  | tooManyRecords (limit claimed : Nat)
  | textTooLong (field : Text) (limit length : Nat)
  deriving DecidableEq, Repr

def LimitError.toText : LimitError → Text
  | .tooLarge limit claimed =>
    ("frame claims " : Text) ++ Text.ofNat claimed ++ (" bytes, limit is " : Text) ++ Text.ofNat limit
  | .tooManyRecords limit claimed =>
    ("bundle claims " : Text) ++ Text.ofNat claimed ++ (" records, limit is " : Text) ++ Text.ofNat limit
  | .textTooLong field limit length =>
    field ++ (" is " : Text) ++ Text.ofNat length ++ (" bytes, limit is " : Text) ++ Text.ofNat limit

/-- Checks a declared frame length. -/
def checkFrameLength (claimed limit : Nat) : Except LimitError Unit :=
  if claimed > limit then .error (.tooLarge limit claimed) else .ok ()

theorem checkFrameLength_eq_ok {claimed limit : Nat} : checkFrameLength claimed limit = .ok () ↔ claimed ≤ limit := by
  unfold checkFrameLength
  split_ifs with h
  · simpa using h
  · simpa using h

/-- Checks a text that arrives from a peer. -/
def checkText (field text : Text) (limit : Nat) : Except LimitError Unit :=
  if text.asBytes.length > limit then .error (.textTooLong field limit text.asBytes.length) else .ok ()

theorem checkText_eq_ok {field text : Text} {limit : Nat} :
    checkText field text limit = .ok () ↔ text.asBytes.length ≤ limit := by
  unfold checkText
  split_ifs with h
  · simpa using h
  · simpa using h

def checkRecordCount (claimed : Nat) : Except LimitError Unit :=
  if claimed > maxRecords then .error (.tooManyRecords maxRecords claimed) else .ok ()

end Idnx
