import Idnx.Lib.Records
import Idnx.Probes.TagsMisread
import Idnx.Providers.Passive

/-!
# What an announcement is known by

An LLDPDU and a CDP payload are records and a rest that starts with none. The neighbour is known by the last chassis
the records of an LLDPDU name, and by the last device those of a CDP payload name (`exists_announces`). Its device key
is the text the identifier is printed as, and case does not matter: two announcements have one key exactly when the
texts of their identifiers differ at most in case (`neighbors_apart`). Hardware addresses stay apart, and so do
identifiers that are text and differ beyond case; the kind of a chassis identifier is printed nowhere.
-/

namespace Idnx

open Outcome

/-- What a neighbour calls itself: a chassis of some subtype, or a device of CDP. -/
inductive Identifier where
  | chassis (subtype : UInt8) (id : Bytes)
  | deviceId (id : Bytes)
  deriving DecidableEq, Repr

/-- The text an identifier is printed as. -/
def Identifier.name : Identifier → Text
  | .chassis subtype id => if subtype = 4 ∧ id.length = 6 then formatMac id else Text.fromUtf8Lossy id
  | .deviceId id => announcedText id

/-! ## Records of an LLDPDU -/

/-- A record of an LLDPDU: seven bits of type, which is not zero, nine of length, and a value as long as that says. -/
structure LldpRecord where
  hi : UInt8
  lo : UInt8
  value : Bytes
  type_ne : word hi lo >>> 9 ≠ 0
  length_value : value.length = (word hi lo &&& 0x01FF).toNat

namespace LldpRecord

def bytes (r : LldpRecord) : Bytes := r.hi :: r.lo :: r.value

def tlvType (r : LldpRecord) : UInt16 := word r.hi r.lo >>> 9

/-- The chassis that a value starting with a subtype names. -/
def ofSubtype : Bytes → Option Identifier
  | [] => none
  | subtype :: id => some (.chassis subtype id)

/-- The chassis the record names, if it is of type 1. -/
def chassis (r : LldpRecord) : Option Identifier := if r.tlvType.toNat = 1 then ofSubtype r.value else none

variable {ε : Type} {frame : Bytes}

theorem bytes_pos (r : LldpRecord) : 0 < r.bytes.length := Nat.succ_pos _

theorem length_bytes (r : LldpRecord) : r.bytes.length = 2 + (word r.hi r.lo &&& 0x01FF).toNat := by
  rw [bytes, List.length_cons, List.length_cons, r.length_value]
  omega

/-- The bytes tell which record they start with. -/
theorem bytes_free {r r' : LldpRecord} {x y : Bytes} (h : r.bytes ++ x = r'.bytes ++ y) : r = r' := by
  obtain ⟨hi, lo, value, htype, hlen⟩ := r
  obtain ⟨hi', lo', value', htype', hlen'⟩ := r'
  simp only [bytes, List.cons_append, List.cons.injEq] at h
  obtain ⟨rfl, rfl, hvalue⟩ := h
  obtain ⟨rfl, -⟩ := List.append_inj hvalue (hlen.trans hlen'.symm)
  rfl

/-- A record is read, and a chassis it names is the one known from then on. -/
theorem read_chassis (t : LldpTlvs) (r : LldpRecord) :
    ∃ t', (t.read r.tlvType r.value : Outcome ε _) = .ok t' ∧
      t'.chassisId = (r.chassis.map Identifier.name <|> t.chassisId) := by
  have hother : r.tlvType.toNat ≠ 1 → r.chassis = none := fun h => if_neg h
  unfold LldpTlvs.read
  split
  case h_1 h =>
    rw [show r.chassis = LldpRecord.ofSubtype r.value from if_pos h]
    cases hvalue : r.value with
    | nil => exact ⟨t, rfl, rfl⟩
    | cons subtype id =>
      have hid : (sliceFrom (subtype :: id) 1 : Outcome ε Bytes) = .ok id := sliceFrom_append [subtype] id
      rw [if_pos (List.cons_ne_nil _ _), show (index (subtype :: id) 0 : Outcome ε UInt8) = .ok subtype from rfl,
        ok_bind, hid, ok_bind]
      refine ⟨_, rfl, ?_⟩
      simp [ofSubtype, Identifier.name]
  case h_2 h =>
    rw [hother (by omega)]
    split
    case isTrue hne =>
      obtain ⟨id, hid, -⟩ := returns_slice (ε := ε) (show 1 ≤ r.value.length from List.length_pos_of_ne_nil hne)
        (Nat.le_refl _)
      rw [sliceFrom, hid, ok_bind]
      exact ⟨_, rfl, rfl⟩
    case isFalse => exact ⟨t, rfl, rfl⟩
  case h_3 h =>
    rw [hother (by omega)]
    exact ⟨_, rfl, rfl⟩
  case h_4 h =>
    rw [hother (by omega)]
    exact ⟨_, rfl, rfl⟩
  case h_5 h =>
    rw [hother (by omega)]
    split
    · obtain ⟨caps, hcaps, -⟩ := returns_u16At (ε := ε) (show 0 + 2 ≤ r.value.length by omega)
      rw [hcaps, ok_bind]
      exact ⟨_, rfl, rfl⟩
    · exact ⟨t, rfl, rfl⟩
  case h_6 h =>
    rw [hother (by omega)]
    split
    · obtain ⟨length, hlength, -⟩ := returns_index (ε := ε) (show 0 < r.value.length by omega)
      obtain ⟨subtype, hsub, -⟩ := returns_index (ε := ε) (show 1 < r.value.length by omega)
      rw [hlength, ok_bind, hsub, ok_bind]
      split
      · obtain ⟨address, haddress, -⟩ := returns_ipv4At (ε := ε) (show 2 + 4 ≤ r.value.length by omega)
        rw [haddress, ok_bind]
        exact ⟨_, rfl, rfl⟩
      · exact ⟨t, rfl, rfl⟩
    · exact ⟨t, rfl, rfl⟩
  case h_7 h₁ h₂ h₃ h₄ h₅ h₆ =>
    rw [hother h₁]
    exact ⟨t, rfl, rfl⟩

/-- What is known behind a record. -/
def readInto (t : LldpTlvs) (r : LldpRecord) : LldpTlvs := (t.read r.tlvType r.value : Outcome Unit _).getD t

theorem read_eq (t : LldpTlvs) (r : LldpRecord) :
    (t.read r.tlvType r.value : Outcome Unit _) = .ok (readInto t r) ∧
      (readInto t r).chassisId = (r.chassis.map Identifier.name <|> t.chassisId) := by
  obtain ⟨t', ht, hchassis⟩ := read_chassis (ε := Unit) t r
  rw [readInto, ht, getD_ok]
  exact ⟨rfl, hchassis⟩

/-- A turn at a record steps behind it. -/
theorem lldpTlv_record (k : Nat) (r : LldpRecord) (t : LldpTlvs) (h : Holds frame k r.bytes) :
    (lldpTlv frame (k, t) : Outcome Unit _) = .ok (.next (k + r.bytes.length, readInto t r)) := by
  have hfits := h.length_le
  have hvalue : Holds frame (k + 2) r.value := Holds.right (x := [r.hi, r.lo]) h
  have hlo : Holds frame (k + 1) (r.lo :: r.value) := Holds.right (x := [r.hi]) h
  rw [length_bytes] at hfits
  rw [lldpTlv_step h.getElem? hlo.getElem? (by omega) r.type_ne, ← r.length_value, hvalue.drop_take,
    show word r.hi r.lo >>> 9 = r.tlvType from rfl, (read_eq t r).1, ok_bind, length_bytes, r.length_value,
    Nat.add_assoc]
  rfl

/-- Where no record starts the walk ends. -/
theorem loop_lldpTlv_rest {fuel k : Nat} (t : LldpTlvs)
    (hrest : ∀ (r : LldpRecord) more, frame.drop k ≠ r.bytes ++ more) :
    (loop (lldpTlv frame) (fuel + 1) (k, t) : Outcome Unit _) = .ok t := by
  rw [loop, lldpTlv]
  split
  case isFalse => rfl
  case isTrue hin =>
    rw [u16At_of_getElem? (List.getElem?_eq_getElem (show k < frame.length by omega))
      (List.getElem?_eq_getElem (show k + 1 < frame.length by omega)), ok_bind]
    dsimp only
    split
    case isTrue => rfl
    case isFalse hfits =>
      obtain ⟨value, hvalue, hval⟩ := returns_slice (ε := Unit) (l := frame) (Nat.le_add_right (k + 2) _)
        (Nat.le_of_not_lt hfits)
      rw [hvalue, ok_bind]
      split
      case isTrue => rfl
      case isFalse htype =>
        rw [Nat.add_sub_cancel_left] at hval
        have hlen : value.length = (word frame[k] frame[k + 1] &&& 0x01FF).toNat := by
          rw [hval, List.length_take, List.length_drop]
          omega
        have hsplit : frame.drop (k + 2) = value ++ (frame.drop (k + 2)).drop value.length := by
          rw [hlen, hval, List.take_append_drop]
        obtain ⟨more, hmore⟩ : ∃ more, frame.drop (k + 2) = value ++ more := ⟨_, hsplit⟩
        refine absurd ?_ (hrest ⟨_, _, value, htype, hlen⟩ more)
        rw [List.drop_eq_getElem_cons (show k < frame.length by omega),
          List.drop_eq_getElem_cons (show k + 1 < frame.length by omega), hmore]
        rfl

/-- **An LLDPDU is known by the last chassis named.** -/
theorem loop_lldpTlv (hlen : 14 ≤ frame.length) {rs : List LldpRecord} {rest : Bytes}
    (h : frame.drop 14 = rs.flatMap bytes ++ rest) (hrest : ∀ (r : LldpRecord) more, rest ≠ r.bytes ++ more) :
    ∃ t : LldpTlvs, (loop (lldpTlv frame) (frame.length + 1) (14, {}) : Outcome Unit _) = .ok t ∧
      t.chassisId = (rs.filterMap chassis).getLast?.map Identifier.name := by
  obtain ⟨fuel, k, hloop, -, hdrop⟩ := loop_records_rest bytes_pos lldpTlv_record hlen h {}
  refine ⟨_, hloop.trans (loop_lldpTlv_rest _ (by rw [hdrop]; exact hrest)), ?_⟩
  rw [foldl_getLast (p := LldpTlvs.chassisId) (f := Identifier.name) (fun t r => (read_eq t r).2)]
  cases (rs.filterMap chassis).getLast? <;> rfl

end LldpRecord

/-! ## Records of a CDP payload -/

/-- A record of a CDP payload: two bytes of type, two of length, which counts the header, and a value as long as that
says. -/
structure CdpRecord where
  a : UInt8
  b : UInt8
  hi : UInt8
  lo : UInt8
  value : Bytes
  length_value : (word hi lo).toNat = value.length + 4

namespace CdpRecord

def bytes (r : CdpRecord) : Bytes := r.a :: r.b :: r.hi :: r.lo :: r.value

def tlvType (r : CdpRecord) : UInt16 := word r.a r.b

/-- The device the record names, if it is of type 1. -/
def device (r : CdpRecord) : Option Identifier := if r.tlvType.toNat = 1 then some (.deviceId r.value) else none

variable {ε : Type} {payload : Bytes}

theorem bytes_pos (r : CdpRecord) : 0 < r.bytes.length := Nat.succ_pos _

theorem length_bytes (r : CdpRecord) : r.bytes.length = (word r.hi r.lo).toNat := r.length_value.symm

/-- The bytes tell which record they start with. -/
theorem bytes_free {r r' : CdpRecord} {x y : Bytes} (h : r.bytes ++ x = r'.bytes ++ y) : r = r' := by
  obtain ⟨a, b, hi, lo, value, hlen⟩ := r
  obtain ⟨a', b', hi', lo', value', hlen'⟩ := r'
  simp only [bytes, List.cons_append, List.cons.injEq] at h
  obtain ⟨rfl, rfl, rfl, rfl, hvalue⟩ := h
  obtain ⟨rfl, -⟩ := List.append_inj hvalue (by omega)
  rfl

/-- A record is read, and a device it names is the one known from then on. -/
theorem read_device (t : CdpTlvs) (r : CdpRecord) :
    ∃ t', (t.read r.tlvType r.value : Outcome ε _) = .ok t' ∧
      t'.deviceId = (r.device.map Identifier.name <|> t.deviceId) := by
  have hother : r.tlvType.toNat ≠ 1 → r.device = none := fun h => if_neg h
  unfold CdpTlvs.read
  split
  case h_1 h =>
    rw [show r.device = some (.deviceId r.value) from if_pos h]
    exact ⟨_, rfl, rfl⟩
  case h_2 h =>
    rw [hother (by omega)]
    split
    · obtain ⟨count, hcount, -⟩ := returns_u32At (ε := ε) (show 0 + 4 ≤ r.value.length by omega)
      obtain ⟨ip, hip, -⟩ := returns_cdpAddresses (ε := ε) count.toNat t.managementIp
      rw [hcount, ok_bind, hip, ok_bind]
      exact ⟨_, rfl, rfl⟩
    · exact ⟨t, rfl, rfl⟩
  case h_3 h =>
    rw [hother (by omega)]
    exact ⟨_, rfl, rfl⟩
  case h_4 h =>
    rw [hother (by omega)]
    split
    · obtain ⟨caps, hcaps, -⟩ := returns_u32At (ε := ε) (show 0 + 4 ≤ r.value.length by omega)
      rw [hcaps, ok_bind]
      exact ⟨_, rfl, rfl⟩
    · exact ⟨t, rfl, rfl⟩
  case h_5 h =>
    rw [hother (by omega)]
    exact ⟨_, rfl, rfl⟩
  case h_6 h =>
    rw [hother (by omega)]
    exact ⟨_, rfl, rfl⟩
  case h_7 h =>
    rw [hother (by omega)]
    split
    · obtain ⟨vlan, hvlan, -⟩ := returns_u16At (ε := ε) (show 0 + 2 ≤ r.value.length by omega)
      rw [hvlan, ok_bind]
      exact ⟨_, rfl, rfl⟩
    · exact ⟨t, rfl, rfl⟩
  case h_8 h₁ h₂ h₃ h₄ h₅ h₆ h₇ =>
    rw [hother h₁]
    exact ⟨t, rfl, rfl⟩

/-- What is known behind a record. -/
def readInto (t : CdpTlvs) (r : CdpRecord) : CdpTlvs := (t.read r.tlvType r.value : Outcome Unit _).getD t

theorem read_eq (t : CdpTlvs) (r : CdpRecord) :
    (t.read r.tlvType r.value : Outcome Unit _) = .ok (readInto t r) ∧
      (readInto t r).deviceId = (r.device.map Identifier.name <|> t.deviceId) := by
  obtain ⟨t', ht, hdevice⟩ := read_device (ε := Unit) t r
  rw [readInto, ht, getD_ok]
  exact ⟨rfl, hdevice⟩

/-- A turn at a record steps behind it. -/
theorem cdpTlv_record (k : Nat) (r : CdpRecord) (t : CdpTlvs) (h : Holds payload k r.bytes) :
    (cdpTlv payload (k, t) : Outcome Unit _) = .ok (.next (k + r.bytes.length, readInto t r)) := by
  have hfits := h.length_le
  have hb : Holds payload (k + 1) (r.b :: r.hi :: r.lo :: r.value) := Holds.right (x := [r.a]) h
  have hhi : Holds payload (k + 2) (r.hi :: r.lo :: r.value) := Holds.right (x := [r.a, r.b]) h
  have hlo : Holds payload (k + 3) (r.lo :: r.value) := Holds.right (x := [r.a, r.b, r.hi]) h
  have hvalue : Holds payload (k + 4) r.value := Holds.right (x := [r.a, r.b, r.hi, r.lo]) h
  have hlen := r.length_value
  rw [length_bytes] at hfits ⊢
  rw [cdpTlv_step h.getElem? hb.getElem? hhi.getElem? hlo.getElem? (by omega) hfits, hlen, Nat.add_sub_cancel,
    hvalue.drop_take, show word r.a r.b = r.tlvType from rfl, (read_eq t r).1, ok_bind]
  rfl

/-- Where no record starts the walk ends. -/
theorem loop_cdpTlv_rest {fuel k : Nat} (t : CdpTlvs)
    (hrest : ∀ (r : CdpRecord) more, payload.drop k ≠ r.bytes ++ more) :
    (loop (cdpTlv payload) (fuel + 1) (k, t) : Outcome Unit _) = .ok t := by
  rw [loop, cdpTlv]
  split
  case isFalse => rfl
  case isTrue hin =>
    have h₀ : k < payload.length := by omega
    have h₁ : k + 1 < payload.length := by omega
    have h₂ : k + 2 < payload.length := by omega
    have h₃ : k + 2 + 1 < payload.length := by omega
    rw [u16At_of_getElem? (List.getElem?_eq_getElem h₀) (List.getElem?_eq_getElem h₁), ok_bind,
      u16At_of_getElem? (List.getElem?_eq_getElem h₂) (List.getElem?_eq_getElem h₃), ok_bind]
    dsimp only
    split
    case isTrue => rfl
    case isFalse hfits =>
      obtain ⟨hfour, hfits⟩ := not_or.mp hfits
      -- a length that covers its header and ends inside the payload is that of a record
      obtain ⟨value, more, hmore, hlen⟩ : ∃ value more, payload.drop (k + 4) = value ++ more ∧
          (word payload[k + 2] payload[k + 2 + 1]).toNat = value.length + 4 := by
        refine ⟨_, _, (List.take_append_drop ((word payload[k + 2] payload[k + 2 + 1]).toNat - 4) _).symm, ?_⟩
        rw [List.length_take, List.length_drop]
        omega
      refine absurd ?_ (hrest ⟨payload[k], payload[k + 1], _, _, value, hlen⟩ more)
      rw [List.drop_eq_getElem_cons h₀, List.drop_eq_getElem_cons h₁, List.drop_eq_getElem_cons h₂,
        List.drop_eq_getElem_cons h₃, show k + 2 + 1 + 1 = k + 4 from rfl, hmore]
      rfl

/-- **A CDP payload is known by the last device named.** -/
theorem loop_cdpTlv {start : Nat} (hstart : start ≤ payload.length) {rs : List CdpRecord} {rest : Bytes}
    (h : payload.drop start = rs.flatMap bytes ++ rest) (hrest : ∀ (r : CdpRecord) more, rest ≠ r.bytes ++ more) :
    ∃ t : CdpTlvs, (loop (cdpTlv payload) (payload.length + 1) (start, {}) : Outcome Unit _) = .ok t ∧
      t.deviceId = (rs.filterMap device).getLast?.map Identifier.name := by
  obtain ⟨fuel, k, hloop, -, hdrop⟩ := loop_records_rest bytes_pos cdpTlv_record hstart h {}
  refine ⟨_, hloop.trans (loop_cdpTlv_rest _ (by rw [hdrop]; exact hrest)), ?_⟩
  rw [foldl_getLast (p := CdpTlvs.deviceId) (f := Identifier.name) (fun t r => (read_eq t r).2)]
  cases (rs.filterMap device).getLast? <;> rfl

end CdpRecord

/-! ## The identifier of a frame -/

/-- The identifier a frame announces: of a CDP announcement the last device its records name, of another frame the last
chassis. -/
inductive Announces (frame : Bytes) : Identifier → Prop where
  | lldp {rs : List LldpRecord} {rest : Bytes} {i : Identifier}
      (hcdp : (cdpAnnounced frame : Outcome Unit _) = .ok none)
      (hrecords : frame.drop 14 = rs.flatMap LldpRecord.bytes ++ rest)
      (hrest : ∀ (r : LldpRecord) more, rest ≠ r.bytes ++ more)
      (hlast : (rs.filterMap LldpRecord.chassis).getLast? = some i) : Announces frame i
  | cdp {n : CdpNeighbor} {start : Nat} {rs : List CdpRecord} {rest : Bytes} {i : Identifier}
      (hcdp : (cdpAnnounced frame : Outcome Unit _) = .ok (some n))
      (hstart : (cdpStart frame : Outcome Unit _) = .ok start)
      (hrecords : frame.drop (start + 4) = rs.flatMap CdpRecord.bytes ++ rest)
      (hrest : ∀ (r : CdpRecord) more, rest ≠ r.bytes ++ more)
      (hlast : (rs.filterMap CdpRecord.device).getLast? = some i) : Announces frame i

variable {frame frame₁ frame₂ : Bytes} {n n₁ n₂ : LldpNeighbor} {i i' : Identifier}

theorem Announces.unique (h : Announces frame i) (h' : Announces frame i') : i = i' := by
  cases h with
  | lldp hcdp hrecords hrest hlast =>
    cases h' with
    | lldp hcdp' hrecords' hrest' hlast' =>
      obtain rfl := records_unique LldpRecord.bytes_free hrest hrest' (hrecords.symm.trans hrecords')
      exact Option.some.inj (hlast.symm.trans hlast')
    | cdp hcdp' => exact absurd (hcdp.symm.trans hcdp') (by simp)
  | cdp hcdp hstart hrecords hrest hlast =>
    cases h' with
    | lldp hcdp' => exact absurd (hcdp.symm.trans hcdp') (by simp)
    | cdp hcdp' hstart' hrecords' hrest' hlast' =>
      obtain rfl := Outcome.ok.inj (hstart.symm.trans hstart')
      obtain rfl := records_unique CdpRecord.bytes_free hrest hrest' (hrecords.symm.trans hrecords')
      exact Option.some.inj (hlast.symm.trans hlast')

/-- A CDP announcement is known by a device it announces. -/
theorem announces_of_cdp {cdp : CdpNeighbor} (hcdp : (cdpAnnounced frame : Outcome Unit _) = .ok (some cdp)) :
    ∃ i, Announces frame i ∧ cdp.deviceId = i.name := by
  have hparse : parseCdpFrame frame = .ok cdp := by
    unfold cdpAnnounced at hcdp
    split at hcdp
    · obtain ⟨destination, -, h⟩ := bind_eq_ok.mp hcdp
      split at h
      · cases hp : parseCdpFrame frame with
        | ok c =>
          rw [hp] at h
          cases h
          rfl
        | err e => rw [hp] at h; cases h
        | panic => rw [hp] at h; cases h
      · cases h
    · cases hcdp
  unfold parseCdpFrame at hparse
  obtain ⟨_, -, h⟩ := bind_eq_ok.mp hparse
  obtain ⟨start, hstart, h⟩ := bind_eq_ok.mp h
  obtain ⟨_, hin, h⟩ := bind_eq_ok.mp h
  obtain ⟨version, -, h⟩ := bind_eq_ok.mp h
  obtain ⟨_, -, h⟩ := bind_eq_ok.mp h
  obtain ⟨t, hloop, h⟩ := bind_eq_ok.mp h
  obtain ⟨rs, rest, hrecords, hrest⟩ := exists_records CdpRecord.bytes_pos (frame.drop (start + 4))
  obtain ⟨t', hloop', hdevice⟩ := CdpRecord.loop_cdpTlv (require_eq_ok.mp hin) hrecords hrest
  obtain rfl := Outcome.ok.inj (hloop.symm.trans hloop')
  split at h
  case h_1 deviceId portId hd hp =>
    obtain rfl := Outcome.ok.inj h
    rw [hdevice] at hd
    obtain ⟨i, hlast, hname⟩ := Option.map_eq_some_iff.mp hd
    exact ⟨i, .cdp hcdp hstart hrecords hrest hlast, hname.symm⟩
  case h_2 => cases h

/-- **Every neighbour that is decoded is known by the identifier its frame announces.** -/
theorem exists_announces (h : parseLldpFrame frame = .ok n) : ∃ i, Announces frame i ∧ n.chassisId = i.name := by
  unfold parseLldpFrame at h
  obtain ⟨_, hlen, h⟩ := bind_eq_ok.mp h
  obtain ⟨cdp, hcdp, h⟩ := bind_eq_ok.mp h
  cases cdp with
  | some cdp =>
    obtain rfl := Outcome.ok.inj h
    exact announces_of_cdp hcdp
  | none =>
    obtain ⟨t, hloop, h⟩ := bind_eq_ok.mp h
    obtain ⟨rs, rest, hrecords, hrest⟩ := exists_records LldpRecord.bytes_pos (frame.drop 14)
    obtain ⟨t', hloop', hchassis⟩ := LldpRecord.loop_lldpTlv (require_eq_ok.mp hlen) hrecords hrest
    obtain rfl := Outcome.ok.inj (hloop.symm.trans hloop')
    split at h
    case h_1 chassisId portId hc hp =>
      obtain rfl := Outcome.ok.inj h
      rw [hchassis] at hc
      obtain ⟨i, hlast, hname⟩ := Option.map_eq_some_iff.mp hc
      exact ⟨i, .lldp hcdp hrecords hrest hlast, hname.symm⟩
    case h_2 => cases h

/-! ## Keys -/

/-- The identifier is the hardware address `mac`. -/
def Identifier.IsHardware (mac : Bytes) : Identifier → Prop
  | .chassis subtype id => subtype = 4 ∧ id.length = 6 ∧ id = mac
  | .deviceId _ => False

/-- The identifier is text, and prints as `t`: the UTF-8 of a chassis that is no hardware address, or of a device id up
to white space at its ends. -/
def Identifier.Spells (t : Text) : Identifier → Prop
  | .chassis subtype id => ¬ (subtype = 4 ∧ id.length = 6) ∧ id = t.asBytes
  | .deviceId id => ∃ u : Text, id = u.asBytes ∧ u.trim = t

theorem Identifier.IsHardware.name_eq {mac : Bytes} (h : i.IsHardware mac) : i.name = formatMac mac := by
  cases i with
  | chassis subtype id =>
    obtain ⟨hsubtype, hlen, rfl⟩ := h
    exact if_pos ⟨hsubtype, hlen⟩
  | deviceId id => exact False.elim h

theorem Identifier.Spells.name_eq {t : Text} (h : i.Spells t) : i.name = t := by
  cases i with
  | chassis subtype id =>
    obtain ⟨hother, rfl⟩ := h
    exact (if_neg hother).trans (Text.fromUtf8Lossy_asBytes t)
  | deviceId id =>
    obtain ⟨u, rfl, rfl⟩ := h
    exact congrArg Text.trim (Text.fromUtf8Lossy_asBytes u)

theorem ofMac_eq_iff {t u : Text} : DeviceKey.ofMac t = DeviceKey.ofMac u ↔ t.toAsciiLowercase = u.toAsciiLowercase :=
  DeviceKey.mac.injEq _ _ ▸ Iff.rfl

/-- **Two neighbours have one key exactly when the texts of their identifiers differ at most in case.** Two hardware
addresses have two keys, and so have two texts that differ beyond case. -/
theorem neighbors_apart (h₁ : parseLldpFrame frame₁ = .ok n₁) (h₂ : parseLldpFrame frame₂ = .ok n₂) :
    ∃ i₁ i₂, (∀ i, Announces frame₁ i ↔ i = i₁) ∧ (∀ i, Announces frame₂ i ↔ i = i₂) ∧
      (DeviceKey.ofMac n₁.chassisId = DeviceKey.ofMac n₂.chassisId ↔
        i₁.name.toAsciiLowercase = i₂.name.toAsciiLowercase) ∧
      (∀ mac₁ mac₂, i₁.IsHardware mac₁ → i₂.IsHardware mac₂ → mac₁ ≠ mac₂ →
        DeviceKey.ofMac n₁.chassisId ≠ DeviceKey.ofMac n₂.chassisId) ∧
      ∀ t₁ t₂, i₁.Spells t₁ → i₂.Spells t₂ → t₁.toAsciiLowercase ≠ t₂.toAsciiLowercase →
        DeviceKey.ofMac n₁.chassisId ≠ DeviceKey.ofMac n₂.chassisId := by
  obtain ⟨i₁, hi₁, hname₁⟩ := exists_announces h₁
  obtain ⟨i₂, hi₂, hname₂⟩ := exists_announces h₂
  have hkeys : DeviceKey.ofMac n₁.chassisId = DeviceKey.ofMac n₂.chassisId ↔
      i₁.name.toAsciiLowercase = i₂.name.toAsciiLowercase := by rw [ofMac_eq_iff, hname₁, hname₂]
  refine ⟨i₁, i₂, fun i => ⟨fun h => h.unique hi₁, fun h => h ▸ hi₁⟩,
    fun i => ⟨fun h => h.unique hi₂, fun h => h ▸ hi₂⟩, hkeys,
    fun mac₁ mac₂ hm₁ hm₂ hne h => hne ?_, fun t₁ t₂ ht₁ ht₂ hne h => hne ?_⟩
  · rw [hkeys, hm₁.name_eq, hm₂.name_eq, toAsciiLowercase_formatMac, toAsciiLowercase_formatMac] at h
    exact formatMac_injective h
  · rw [hkeys, ht₁.name_eq, ht₂.name_eq] at h
    exact h

/-- An LLDPDU that names a chassis, and port `p`. -/
def chassisFrame (subtype : UInt8) (id : Bytes) : Bytes :=
  [0x01, 0x80, 0xC2, 0x00, 0x00, 0x0E, 0x02, 0x00, 0x00, 0x00, 0x00, 0x01, 0x88, 0xCC] ++
    [0x02, UInt8.ofNat (id.length + 1), subtype] ++ id ++ [0x04, 0x02, 0x07, 0x70, 0x00, 0x00]

theorem neighbors_apart_hardware : ∃ n₁ n₂, parseLldpFrame (chassisFrame 4 [2, 0, 0, 0, 0, 1]) = .ok n₁ ∧
    parseLldpFrame (chassisFrame 4 [2, 0, 0, 0, 0, 2]) = .ok n₂ ∧
    ∃ i₁ i₂, (∀ i, Announces (chassisFrame 4 [2, 0, 0, 0, 0, 1]) i ↔ i = i₁) ∧
      (∀ i, Announces (chassisFrame 4 [2, 0, 0, 0, 0, 2]) i ↔ i = i₂) ∧
      (DeviceKey.ofMac n₁.chassisId = DeviceKey.ofMac n₂.chassisId ↔
        i₁.name.toAsciiLowercase = i₂.name.toAsciiLowercase) := by
  have h₁ : parseLldpFrame (chassisFrame 4 [2, 0, 0, 0, 0, 1]) =
      .ok ⟨"02:00:00:00:00:01".toList, "p".toList, none, none, none, []⟩ := by decide
  have h₂ : parseLldpFrame (chassisFrame 4 [2, 0, 0, 0, 0, 2]) =
      .ok ⟨"02:00:00:00:00:02".toList, "p".toList, none, none, none, []⟩ := by decide
  obtain ⟨i₁, i₂, hi₁, hi₂, hkeys, -⟩ := neighbors_apart h₁ h₂
  exact ⟨_, _, h₁, h₂, i₁, i₂, hi₁, hi₂, hkeys⟩

theorem announces_chassisFrame (subtype b : UInt8) :
    Announces (chassisFrame subtype [b]) (.chassis subtype [b]) := by
  have hlen : (word 0x02 0x02 &&& 0x01FF).toNat = 2 := by decide
  let chassis : LldpRecord := ⟨0x02, 0x02, [subtype, b], by decide, hlen.symm⟩
  let port : LldpRecord := ⟨0x04, 0x02, [0x07, 0x70], by decide, by decide⟩
  have hchassis : chassis.chassis = some (.chassis subtype [b]) :=
    if_pos (show (word 0x02 0x02 >>> 9).toNat = 1 by decide)
  have hport : port.chassis = none := if_neg (show (word 0x04 0x02 >>> 9).toNat ≠ 1 by decide)
  refine @Announces.lldp _ [chassis, port] [0x00, 0x00] _
    (cdpAnnounced_eq_none (.inl (by simp [chassisFrame, cdpMulticastMac]))) rfl (fun r more h => ?_) ?_
  · obtain ⟨hi, lo, value, htype, hlen⟩ := r
    simp only [LldpRecord.bytes, List.cons_append, List.cons.injEq] at h
    obtain ⟨rfl, rfl, -⟩ := h
    exact htype (by decide)
  · rw [List.filterMap_cons_some hchassis, List.filterMap_cons_none hport]
    rfl

/-- Two chassis identifiers that differ in case, or in their subtype only, have one key. -/
theorem neighbors_merged : ∃ n₁ n₂ n₃, parseLldpFrame (chassisFrame 7 [0x73]) = .ok n₁ ∧
    parseLldpFrame (chassisFrame 7 [0x53]) = .ok n₂ ∧ parseLldpFrame (chassisFrame 1 [0x73]) = .ok n₃ ∧
    Announces (chassisFrame 7 [0x73]) (.chassis 7 [0x73]) ∧ Announces (chassisFrame 7 [0x53]) (.chassis 7 [0x53]) ∧
    Announces (chassisFrame 1 [0x73]) (.chassis 1 [0x73]) ∧
    DeviceKey.ofMac n₁.chassisId = DeviceKey.ofMac n₂.chassisId ∧
    DeviceKey.ofMac n₁.chassisId = DeviceKey.ofMac n₃.chassisId := by
  have h₁ : parseLldpFrame (chassisFrame 7 [0x73]) = .ok ⟨"s".toList, "p".toList, none, none, none, []⟩ := by
    decide
  have h₂ : parseLldpFrame (chassisFrame 7 [0x53]) = .ok ⟨"S".toList, "p".toList, none, none, none, []⟩ := by
    decide
  have h₃ : parseLldpFrame (chassisFrame 1 [0x73]) = .ok ⟨"s".toList, "p".toList, none, none, none, []⟩ := by
    decide
  exact ⟨_, _, _, h₁, h₂, h₃, announces_chassisFrame _ _, announces_chassisFrame _ _, announces_chassisFrame _ _,
    by decide, rfl⟩

end Idnx
