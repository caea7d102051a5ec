import Idnx.Federation.Transport
import Idnx.Lib.Utf8

/-!
# The texts of a message

`checkMessage` walks the texts a record names of itself. Here the texts of a message are listed over again from its
data types, field by field and without names, and the two lists are compared: a bundle passes the check exactly when
every text in it is within its limit. An acknowledgement and a rejection carry a text too, and nothing looks at it.
-/

namespace Idnx

/-! ## Every text there is -/

def WireDevice.strings : WireDevice → List Text
  | .mac text => [text]
  | .address addr => [addr]
  | .scopedAddress addr zone => [addr, zone]

def WireFact.strings : WireFact → List Text
  | .network net => [net]
  | .vlan _ => []
  | .vlanNetwork _ net => [net]
  | .interfaceNetwork interface net => [interface, net]
  | .deviceAddress device address => address :: device.strings
  | .deviceHostname device hostname => hostname :: device.strings
  | .deviceVendor device vendor => vendor :: device.strings
  | .deviceDescription device text => text :: device.strings
  | .deviceRoleSignal device signal label => signal :: (label.toList ++ device.strings)
  | .deviceCapability device capability detail => capability :: (detail.toList ++ device.strings)
  | .gatewayFor device net => net :: device.strings
  | .routesTo device net nextHop => net :: (nextHop.toList ++ device.strings)
  | .attachedTo device net => net :: device.strings
  | .bridgeLink bridgeId rootId port => bridgeId :: rootId :: port.toList
  | .observedBehind device via => device.strings ++ via.strings
  | .forwardsToward device toward _ previous =>
    toward :: (device.strings ++ previous.toList.flatMap WireDevice.strings)
  | .opaqueBoundary device why => why :: device.strings
  | .service address _ protocol detail => address :: protocol :: detail.toList
  | .resolvedAs name address => [name, address]

/-- The texts of a record other than its vantage. -/
def WireEvidence.strings (record : WireEvidence) : List Text :=
  record.source :: record.confidence :: (record.detail.toList ++ record.fact.strings)

namespace Message

/-- The records a message carries. -/
def records : Message → List WireEvidence
  | .bundle sent => sent.records
  | _ => []

/-- The names of vantages in a message. -/
def vantages : Message → List Text
  | .bundle sent => sent.vantage :: sent.records.map WireEvidence.vantage
  | _ => []

/-- Every other text in a message. -/
def strings : Message → List Text
  | .bundle sent => sent.peer :: sent.signature :: sent.records.flatMap WireEvidence.strings
  | .ack _ digest => [digest]
  | .reject _ reason => [reason]
  | .idle => []

/-- Nothing in the message is over its limit. -/
structure WithinLimits (message : Message) : Prop where
  records : message.records.length ≤ maxRecords
  strings : ∀ text ∈ message.strings, text.asBytes.length ≤ maxTextBytes
  vantages : ∀ vantage ∈ message.vantages, vantage.asBytes.length ≤ maxVantageBytes

end Message

/-! ## The fields a record names of itself -/

/-- A list of fields that are not vantages, with the texts they hold. -/
structure Names (fields : List (Text × Text)) (strings : List Text) : Prop where
  free : ∀ field ∈ fields, textLimit field.1 = maxTextBytes
  mem : ∀ text, text ∈ fields.map Prod.snd ↔ text ∈ strings

section Names

variable {fields fields' : List (Text × Text)} {strings strings' : List Text}

theorem Names.nil : Names [] [] := ⟨nofun, fun _ => Iff.rfl⟩

theorem Names.field {field : Text} (text : Text) (h : textLimit field = maxTextBytes) :
    Names [textField field text] [text] := by
  constructor
  · intro f hf
    rw [List.mem_singleton.mp hf]
    exact h
  · exact fun _ => Iff.rfl

theorem Names.append (h : Names fields strings) (h' : Names fields' strings') :
    Names (fields ++ fields') (strings ++ strings') := by
  constructor
  · intro f hf
    rcases List.mem_append.mp hf with hf | hf
    · exact h.free f hf
    · exact h'.free f hf
  · intro text
    rw [List.map_append, List.mem_append, List.mem_append, h.mem, h'.mem]

theorem Names.option {field : Text} (value : Option Text) (h : textLimit field = maxTextBytes) :
    Names (value.toList.map (textField field)) value.toList := by
  cases value with
  | none => exact .nil
  | some text => exact .field text h

/-- The order of the texts does not matter. -/
theorem Names.reorder (h : Names fields strings) (hperm : strings.Perm strings') : Names fields strings' :=
  ⟨h.free, fun text => (h.mem text).trans hperm.mem_iff⟩

end Names

theorem names_device (device : WireDevice) : Names device.textFields device.strings := by
  cases device with
  | mac text => exact .field text rfl
  | address addr => exact .field addr rfl
  | scopedAddress addr zone => exact (Names.field addr rfl).append (.field zone rfl)

theorem names_previous (previous : Option WireDevice) :
    Names (previous.toList.flatMap WireDevice.textFields) (previous.toList.flatMap WireDevice.strings) := by
  cases previous with
  | none => exact .nil
  | some device => simpa using names_device device

/-- A device and one text about it. -/
theorem names_device_field (device : WireDevice) {field : Text} (text : Text) (h : textLimit field = maxTextBytes) :
    Names (device.textFields ++ [textField field text]) (text :: device.strings) :=
  ((names_device device).append (.field text h)).reorder (List.perm_append_singleton ..)

/-- A device, one text about it and another that may be missing. -/
theorem names_device_option (device : WireDevice) {field other : Text} (text : Text) (value : Option Text)
    (h : textLimit field = maxTextBytes) (h' : textLimit other = maxTextBytes) :
    Names (device.textFields ++ [textField field text] ++ value.toList.map (textField other))
      (text :: (value.toList ++ device.strings)) := by
  refine ((names_device_field device text h).append (.option value h')).reorder ?_
  rw [List.cons_append]
  exact List.Perm.cons _ List.perm_append_comm

/-- **A fact names every text it has**, one case for each kind of fact. -/
theorem names_fact (fact : WireFact) : Names fact.textFields fact.strings := by
  cases fact with
  | network net => exact .field net rfl
  | vlan id => exact .nil
  | vlanNetwork vlan net => exact .field net rfl
  | interfaceNetwork interface net => exact (Names.field interface rfl).append (.field net rfl)
  | deviceAddress device address => exact names_device_field device address rfl
  | deviceHostname device hostname => exact names_device_field device hostname rfl
  | deviceVendor device vendor => exact names_device_field device vendor rfl
  | deviceDescription device text => exact names_device_field device text rfl
  | deviceRoleSignal device signal label => exact names_device_option device signal label rfl rfl
  | deviceCapability device capability detail => exact names_device_option device capability detail rfl rfl
  | gatewayFor device net => exact names_device_field device net rfl
  | routesTo device net nextHop => exact names_device_option device net nextHop rfl rfl
  | attachedTo device net => exact names_device_field device net rfl
  | bridgeLink bridgeId rootId port =>
    exact ((Names.field bridgeId rfl).append (.field rootId rfl)).append (.option port rfl)
  | observedBehind device via => exact (names_device device).append (names_device via)
  | forwardsToward device toward distance previous =>
    exact (names_device_field device toward rfl).append (names_previous previous)
  | opaqueBoundary device why => exact names_device_field device why rfl
  | service address port protocol detail =>
    exact ((Names.field address rfl).append (.field protocol rfl)).append (.option detail rfl)
  | resolvedAs name address => exact (Names.field name rfl).append (.field address rfl)

/-! ## The check of a bundle -/

/-- Fields that are not vantages pass when their texts are short enough. -/
theorem Names.check_iff {fields : List (Text × Text)} {strings : List Text} (h : Names fields strings) :
    (∀ field ∈ fields, field.2.asBytes.length ≤ textLimit field.1) ↔
      ∀ text ∈ strings, text.asBytes.length ≤ maxTextBytes := by
  constructor
  · intro hfields text htext
    obtain ⟨field, hfield, rfl⟩ := List.mem_map.mp ((h.mem text).mpr htext)
    rw [← h.free field hfield]
    exact hfields field hfield
  · intro hstrings field hfield
    rw [h.free field hfield]
    exact hstrings field.2 ((h.mem field.2).mp (List.mem_map_of_mem hfield))

/-- A record passes the check when its vantage and its other texts are within their limits. -/
theorem checkRecord_eq_ok {record : WireEvidence} :
    checkRecord record = .ok () ↔
      record.vantage.asBytes.length ≤ maxVantageBytes ∧
        ∀ text ∈ record.strings, text.asBytes.length ≤ maxTextBytes := by
  rw [checkRecord, forM_eq_ok]
  simp only [checkText_eq_ok]
  -- the vantage stands between the confidence and the detail
  have hfields : record.textFields = record.fact.textFields ++ [textField "source" record.source] ++
      [textField "confidence" record.confidence] ++ [textField "vantage" record.vantage] ++
      record.detail.toList.map (textField "detail") := by
    simp [WireEvidence.textFields]
  have hnames : Names (record.fact.textFields ++ [textField "source" record.source] ++
      [textField "confidence" record.confidence] ++ record.detail.toList.map
      (textField "detail")) record.strings := by
    refine ((((names_fact record.fact).append (.field record.source rfl)).append
      (.field record.confidence rfl)).append
      (.option record.detail rfl)).reorder ?_
    simp only [WireEvidence.strings, List.append_assoc, List.singleton_append]
    refine List.perm_append_comm.trans ?_
    simp only [List.cons_append]
    exact List.Perm.refl _
  have hvantage : textLimit (textField "vantage" record.vantage).1 = maxVantageBytes := rfl
  rw [hfields, ← hnames.check_iff]
  simp only [List.forall_mem_append, List.forall_mem_singleton, hvantage]
  constructor
  · exact fun h => ⟨h.1.2, h.1.1, h.2⟩
  · exact fun h => ⟨⟨h.2.1, h.1⟩, h.2.2⟩

theorem checkRecordCount_eq_ok {claimed : Nat} : checkRecordCount claimed = .ok () ↔ claimed ≤ maxRecords := by
  unfold checkRecordCount
  split_ifs with h
  · simpa using h
  · simpa using h

/-- A bundle passes the check exactly when everything in it is within its limit. -/
theorem checkMessage_bundle_eq_ok (bundle : EvidenceBundle) :
    checkMessage (.bundle bundle) = .ok () ↔ (Message.bundle bundle).WithinLimits := by
  rw [checkMessage, except_bind_eq_ok, except_bind_eq_ok, except_bind_eq_ok, except_bind_eq_ok, forM_eq_ok,
    checkRecordCount_eq_ok, checkText_eq_ok, checkText_eq_ok, checkText_eq_ok]
  simp only [checkRecord_eq_ok]
  constructor
  · rintro ⟨hcount, hvantage, hpeer, hsignature, hrecords⟩
    refine ⟨hcount, ?_, ?_⟩
    · intro text htext
      simp only [Message.strings, List.mem_cons, List.mem_flatMap] at htext
      rcases htext with rfl | rfl | ⟨record, hrecord, htext⟩
      · exact hpeer
      · exact hsignature
      · exact (hrecords record hrecord).2 text htext
    · intro vantage hmem
      simp only [Message.vantages, List.mem_cons, List.mem_map] at hmem
      rcases hmem with rfl | ⟨record, hrecord, rfl⟩
      · exact hvantage
      · exact (hrecords record hrecord).1
  · intro h
    refine ⟨h.records, h.vantages _ List.mem_cons_self, h.strings _ List.mem_cons_self,
      h.strings _ (List.mem_cons_of_mem _ List.mem_cons_self), fun record hrecord => ⟨?_, ?_⟩⟩
    · exact h.vantages _ (List.mem_cons_of_mem _ (List.mem_map_of_mem hrecord))
    · intro text htext
      refine h.strings text (List.mem_cons_of_mem _ (List.mem_cons_of_mem _ ?_))
      exact List.mem_flatMap.mpr ⟨record, hrecord, htext⟩

/-! ## The check of a message -/

/-- The text an acknowledgement or a rejection carries. -/
def Message.remark : Message → Option Text
  | .ack _ digest => some digest
  | .reject _ reason => some reason
  | _ => none

theorem withinLimits_of_remark {message : Message} {remark : Text} (h : message.remark = some remark) :
    message.WithinLimits ↔ remark.asBytes.length ≤ maxTextBytes := by
  have hparts : message.records = [] ∧ message.strings = [remark] ∧ message.vantages = [] := by
    cases message with
    | bundle bundle => cases h
    | ack sequence digest => cases h; exact ⟨rfl, rfl, rfl⟩
    | reject sequence reason => cases h; exact ⟨rfl, rfl, rfl⟩
    | idle => cases h
  obtain ⟨hrecords, hstrings, hvantages⟩ := hparts
  constructor
  · intro hlimits
    exact hlimits.strings remark (by rw [hstrings]; exact List.mem_singleton_self remark)
  · intro hremark
    refine ⟨by rw [hrecords]; exact Nat.zero_le _, ?_, by rw [hvantages]; exact List.forall_mem_nil _⟩
    rw [hstrings]
    simpa using hremark

/-- **What the check bounds**: an accepted message is within every limit exactly when the text of its acknowledgement
or rejection, if it is one, happens to be. -/
theorem checkMessage_bounds_iff (message : Message) :
    (checkMessage message = .ok () → message.WithinLimits) ↔
      ∀ remark, message.remark = some remark → remark.asBytes.length ≤ maxTextBytes := by
  cases message with
  | bundle bundle => exact ⟨fun _ => nofun, fun _ => (checkMessage_bundle_eq_ok bundle).mp⟩
  | ack sequence digest =>
    constructor
    · exact fun h remark hremark => (withinLimits_of_remark hremark).mp (h rfl)
    · exact fun h _ => (withinLimits_of_remark rfl).mpr (h digest rfl)
  | reject sequence reason =>
    constructor
    · exact fun h remark hremark => (withinLimits_of_remark hremark).mp (h rfl)
    · exact fun h _ => (withinLimits_of_remark rfl).mpr (h reason rfl)
  | idle => exact ⟨fun _ => nofun, fun _ _ => ⟨Nat.zero_le _, nofun, nofun⟩⟩

/-- A rejection whose reason is one byte too long is accepted. -/
theorem reject_reason_unbounded :
    let message := Message.reject 1 (List.replicate 1025 'a')
    checkMessage message = .ok () ∧ ¬ message.WithinLimits := by
  refine ⟨rfl, fun h => ?_⟩
  have hlong : (Text.asBytes (List.replicate 1025 'a')).length ≤ maxTextBytes := (withinLimits_of_remark rfl).mp h
  have hlength := Text.length_le_asBytes (List.replicate 1025 'a')
  rw [List.length_replicate] at hlength
  have : (1025 : Nat) ≤ maxTextBytes := hlength.trans hlong
  simp [maxTextBytes] at this

end Idnx
