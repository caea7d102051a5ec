import Idnx.Federation.Ledger
import Idnx.Federation.Limits

/-!
# Messages between peers

What peers say to each other once a session is up. Every peer-controlled text of a message is bounded before the
message is acted on (`checkMessage`); the name of a vantage has a tighter bound than other texts.
-/

namespace Idnx

/-- What peers say to each other. -/
inductive Message where
  | bundle (bundle : EvidenceBundle)
  | ack (sequence : UInt64) (digest : Text)
  | reject (sequence : UInt64) (reason : Text)
  | idle

/-- The bound of a text field. -/
def textLimit (field : Text) : Nat := if field.contains "vantage" then maxVantageBytes else maxTextBytes

/-- Checks the texts of one record. -/
def checkRecord (record : WireEvidence) : Except LimitError Unit :=
  record.textFields.forM fun field => checkText field.1 field.2 (textLimit field.1)

/-- Bounds every peer-controlled field before the message is acted on. -/
def checkMessage : Message → Except LimitError Unit
  | .bundle bundle => do
    checkRecordCount bundle.records.length
    checkText "vantage" bundle.vantage maxVantageBytes
    checkText "peer" bundle.peer maxTextBytes
    checkText "signature" bundle.signature maxTextBytes
    bundle.records.forM checkRecord
  | _ => .ok ()

theorem except_bind_eq_ok {x : Except LimitError Unit} {y : Unit → Except LimitError Unit} :
    (x >>= y) = .ok () ↔ x = .ok () ∧ y () = .ok () := by
  cases x with
  | error e => exact ⟨nofun, nofun⟩
  | ok u => exact ⟨fun h => ⟨rfl, h⟩, fun h => h.2⟩

theorem forM_eq_ok {α : Type} {check : α → Except LimitError Unit} {l : List α} :
    l.forM check = .ok () ↔ ∀ a ∈ l, check a = .ok () := by
  induction l with
  | nil => exact ⟨nofun, fun _ => rfl⟩
  | cons a l ih =>
    show (check a >>= fun _ => l.forM check) = .ok () ↔ _
    rw [except_bind_eq_ok, ih, List.forall_mem_cons]

/-- What is known of a bundle that passed the check. -/
theorem of_checkMessage {bundle : EvidenceBundle} (h : checkMessage (.bundle bundle) = .ok ()) :
    bundle.vantage.asBytes.length ≤ maxVantageBytes ∧
      ∀ record ∈ bundle.records, ∀ field ∈ record.textFields, field.2.asBytes.length ≤ textLimit field.1 := by
  obtain ⟨-, h⟩ := except_bind_eq_ok.mp h
  obtain ⟨hvantage, h⟩ := except_bind_eq_ok.mp h
  obtain ⟨-, h⟩ := except_bind_eq_ok.mp h
  obtain ⟨-, hrecords⟩ := except_bind_eq_ok.mp h
  refine ⟨checkText_eq_ok.mp hvantage, fun record hrecord field hfield => ?_⟩
  exact checkText_eq_ok.mp (forM_eq_ok.mp (forM_eq_ok.mp hrecords record hrecord) field hfield)

end Idnx
