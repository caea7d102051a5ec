import Idnx.Lib.Lines
import Idnx.Lib.Map
import Idnx.Lib.Utf8
import Idnx.Net.DnsNames

/-!
# Reverse names from a resolver

`resolveUnicastDnsPtrs` asks for the names of a list of addresses, each query with an identifier made from its place in
the list (`queries`), and enters the first label of the first answer of each datagram that comes in under the address
at the place its identifier is taken back to (`handleReply`).
-/

namespace Idnx

open Outcome

variable {ε : Type}

/-! ## Queries -/

/-- The identifier of a query, by the place of its address; the sum wraps. -/
def txId (idx : Nat) : UInt16 := 0x5000 + UInt16.ofNat idx

def ptrName (ip : Ipv4Addr) : Text :=
  Text.ofNat (ip.octet 3) ++ '.' :: Text.ofNat (ip.octet 2) ++ '.' :: Text.ofNat (ip.octet 1) ++
    '.' :: Text.ofNat (ip.octet 0) ++ (".in-addr.arpa" : Text)

/-- The query for the name of an address: a header, the labels of the name it is asked under, type PTR and class IN. -/
def ptrQuery (idx : Nat) (ip : Ipv4Addr) : Bytes :=
  beBytes 2 (txId idx).toNat ++ ([0x01, 0x00] ++ [0x00, 0x01] ++ [0x00, 0x00] ++ [0x00, 0x00] ++ [0x00, 0x00] ++
    (Text.split '.' (ptrName ip)).flatMap
      (fun label => UInt8.ofNat (Text.asBytes label).length :: Text.asBytes label) ++
    [0] ++ [0x00, 0x0c] ++ [0x00, 0x01])

/-- The queries of one call. -/
def queries (ips : List Ipv4Addr) : List Bytes := ips.zipIdx.map fun (ip, idx) => ptrQuery idx ip

/-! ## Replies -/

/-- Skips the name of a record: a pointer in front, or labels up to the root. -/
def skipRecordName (data : Bytes) (offset : Nat) : Outcome ε Nat := do
  let first ← index data offset
  if isPointer first then return offset + 2
  else do
    let offset ← skipLabels data offset
    return if offset < data.length then offset + 1 else offset

/-- One turn of reading the labels in front of `stop`; no pointer is followed. -/
def partsTurn (data : Bytes) (stop : Nat) (s : Nat × List Text) :
    Outcome ε (Turn (Nat × List Text) (List Text)) :=
  if s.1 < stop then do
    let len ← index data s.1
    if len = 0 then return .done s.2
    else if isPointer len then return .done s.2
    else if s.1 + 1 + len.toNat ≤ stop then do
      let label ← slice data (s.1 + 1) (s.1 + 1 + len.toNat)
      return .next (s.1 + 1 + len.toNat, s.2 ++ [Text.fromUtf8Lossy label])
    else return .done s.2
  else return .done s.2

def nameParts (data : Bytes) (start stop : Nat) : Outcome ε (List Text) :=
  loop (partsTurn data stop) (data.length + 1) (start, [])

/-- The first label in the data of the first answer, of whatever type. -/
def answerName (data : Bytes) : Outcome ε (Option Text) :=
  if data.length > 12 then do
    let ancount ← u16At data 6
    if ancount ≠ 0 then do
      let offset ← skipQuestion data 12
      if offset + 12 ≤ data.length then do
        let offset ← skipRecordName data offset
        -- TYPE, CLASS and TTL
        let offset := offset + 8
        if offset + 2 ≤ data.length then do
          let rdlength ← u16At data offset
          if offset + 2 + rdlength.toNat ≤ data.length then do
            let parts ← nameParts data (offset + 2) (offset + 2 + rdlength.toNat)
            return parts.head?
          else return none
        else return none
      else return none
    else return none
  else .ok none

/-- A datagram: its name is entered for the address its identifier is taken back to. -/
def handleReply (ips : List Ipv4Addr) (results : Map Ipv4Addr Text) (data : Bytes) :
    Outcome ε (Map Ipv4Addr Text) := do
  match ← answerName data with
  | some hostname =>
    let id ← u16At data 0
    -- an identifier below the first is taken back to the first address
    match ips[id.toNat - 0x5000]? with
    | some ip => return AList.insert ip hostname results
    | none => return results
  | none => return results

/-- The names that are entered for the datagrams that come in, whoever sent them. -/
def resolveUnicastDnsPtrs (ips : List Ipv4Addr) (datagrams : List Bytes) : Outcome ε (Map Ipv4Addr Text) :=
  if ips = [] then .ok ∅ else datagrams.foldlM (handleReply ips) ∅

/-! ## Every datagram -/

/-- A turn of reading labels ends, and a turn that is not the last moves ahead. -/
theorem returns_partsTurn {data : Bytes} {stop : Nat} (hstop : stop ≤ data.length) (s : Nat × List Text) :
    Returns (Turn.Ends (fun s' => s.1 < s'.1 ∧ s.1 < data.length ∧ s'.2.take s.2.length = s.2)
      fun parts => parts = s.2) (partsTurn data stop s : Outcome ε _) := by
  unfold partsTurn
  split
  · refine (returns_index (by omega)).bind fun len _ => ?_
    split
    · exact returns_ok rfl
    · split
      · exact returns_ok rfl
      · split
        · refine (returns_slice (by omega) (by omega)).bind fun label _ => ?_
          exact returns_ok ⟨by dsimp only; omega, by omega, List.take_left⟩
        · exact returns_ok rfl
  · exact returns_ok rfl

theorem returns_nameParts {data : Bytes} {stop : Nat} (hstop : stop ≤ data.length) (start : Nat) :
    Returns (fun _ => True) (nameParts data start stop : Outcome ε _) := by
  refine returns_loop (fun _ => True) (fun s => data.length - s.1) (fun s _ => ?_) trivial (by dsimp only; omega)
  refine (returns_partsTurn hstop s).mono fun turn hturn => ?_
  cases turn with
  | next s' =>
    have hahead : s.1 < s'.1 ∧ s.1 < data.length ∧ s'.2.take s.2.length = s.2 := hturn
    exact ⟨trivial, by omega⟩
  | done parts => trivial

theorem returns_answerName (data : Bytes) : Returns (fun _ => True) (answerName data : Outcome ε _) := by
  unfold answerName
  split
  · refine (returns_u16At (by omega)).bind fun ancount _ => ?_
    split
    · refine (returns_skipQuestion data 12).bind fun offset _ => ?_
      split
      · have hname : Returns (fun _ => True) (skipRecordName data offset : Outcome ε _) := by
          refine (returns_index (by omega)).bind fun first _ => ?_
          split
          · exact returns_ok trivial
          · exact (returns_skipLabels data offset).bind fun _ _ => returns_ok trivial
        refine hname.bind fun offset _ => ?_
        dsimp only
        split
        · refine (returns_u16At (by omega)).bind fun rdlength _ => ?_
          split
          · exact (returns_nameParts ‹_› _).bind fun parts _ => returns_ok trivial
          · exact returns_ok trivial
        · exact returns_ok trivial
      · exact returns_ok trivial
    · exact returns_ok trivial
  · exact returns_ok trivial

/-- Without an answer, or in twelve bytes, there is no name. -/
theorem answerName_eq_none {data : Bytes} (h : data.length ≤ 12 ∨ readU16 data 6 = some 0) :
    (answerName data : Outcome ε _) = .ok none := by
  unfold answerName
  split
  · rw [u16At_of_readU16 (h.resolve_left (by omega)), ok_bind, if_neg (fun hne => hne rfl)]
    rfl
  · rfl

end Idnx
