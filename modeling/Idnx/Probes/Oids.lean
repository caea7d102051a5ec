import Idnx.Probes.Snmp

/-!
# Object identifiers on the wire

What it is for a byte string to be an encoding of an identifier (`EncodesOid`), and when the codec keeps to it. Both
ways fail in the first byte, which is taken for the first two components whatever it is; reading also passes over an
end inside a number, and cuts a number to 32 bits.
-/

namespace Idnx

/-! ## Encodings -/

/-- The number the low seven bits of the bytes say, most significant first. -/
def groupValue (bytes : Bytes) : Nat := bytes.foldl (fun n b => n * 128 + b.toNat % 128) 0

/-- The bytes are one sub-identifier, and complete: the top bit is set on every byte but the last. -/
def IsSubIdentifier (n : Nat) (bytes : Bytes) : Prop :=
  groupValue bytes = n ∧ ∃ more last, bytes = more ++ [last] ∧ (∀ b ∈ more, 128 ≤ b.toNat) ∧ last.toNat < 128

/-- The bytes are an encoding of the identifier: sub-identifiers one behind the other, each complete and of at most 32
bits, of which the first is for the first two components together. What is no identifier at all is written
as nothing. -/
def EncodesOid : Oid → Bytes → Prop
  | [], data => data = []
  | [_], _ => False
  | first :: second :: rest, data =>
    Oid.Valid (first :: second :: rest) ∧ first.toNat * 40 + second.toNat < 2 ^ 32 ∧
      ∃ head groups, IsSubIdentifier (first.toNat * 40 + second.toNat) head ∧
        List.Forall₂ (fun (comp : UInt32) group => IsSubIdentifier comp.toNat group) rest groups ∧
        data = head ++ groups.flatten

/-- The numbers in a string of sub-identifiers, the first of which may have begun before it; `none` if the last one
does not end. -/
def subIdentifiers : Option Nat → Bytes → Option (List Nat)
  | none, [] => some []
  | some _, [] => none
  | begun, b :: bytes =>
    let n := begun.getD 0 * 128 + b.toNat % 128
    if b.toNat < 128 then (subIdentifiers none bytes).map (n :: ·) else subIdentifiers (some n) bytes

/-! ## Sub-identifiers -/

/-- One sub-identifier, from the middle of it on. -/
theorem subIdentifiers_append {more : Bytes} {last : UInt8} (hmore : ∀ b ∈ more, 128 ≤ b.toNat)
    (hlast : last.toNat < 128)
    (begun : Option Nat) (bytes : Bytes) :
    subIdentifiers begun (more ++ last :: bytes) =
      (subIdentifiers none bytes).map
        ((more ++ [last]).foldl (fun n b => n * 128 + b.toNat % 128) (begun.getD 0) :: ·) := by
  induction more generalizing begun with
  | nil =>
    rw [List.nil_append, subIdentifiers, if_pos hlast]
    rfl
  | cons b more ih =>
    have hb : ¬ b.toNat < 128 := by
      have := hmore b List.mem_cons_self
      omega
    rw [List.cons_append, subIdentifiers, if_neg hb, ih fun c hc => hmore c (List.mem_cons_of_mem _ hc)]
    rfl

theorem subIdentifiers_flatten {numbers : List Nat} {groups : List Bytes}
    (h : List.Forall₂ IsSubIdentifier numbers groups) : subIdentifiers none groups.flatten = some numbers := by
  induction h with
  | nil => rfl
  | @cons n group numbers groups hgroup hrest ih =>
    obtain ⟨hvalue, more, last, rfl, hmore, hlast⟩ := hgroup
    rw [List.flatten_cons, List.append_assoc, List.singleton_append, subIdentifiers_append hmore hlast, ih]
    exact congrArg (fun n => some (n :: numbers)) hvalue

/-- What was read was one sub-identifier behind the other; `started` is what came before of the first. -/
theorem exists_groups {bytes started : Bytes} {begun : Option Nat} {numbers : List Nat}
    (hstarted : ∀ b ∈ started, 128 ≤ b.toNat) (hbegun : begun = if started = [] then none else some
    (groupValue started))
    (h : subIdentifiers begun bytes = some numbers) :
    ∃ groups, List.Forall₂ IsSubIdentifier numbers groups ∧ started ++ bytes = groups.flatten := by
  induction bytes generalizing started begun numbers with
  | nil =>
    by_cases hs : started = []
    · rw [hbegun, if_pos hs] at h
      cases h
      exact ⟨[], .nil, by rw [hs]; rfl⟩
    · rw [hbegun, if_neg hs] at h
      cases h
  | cons b bytes ih =>
    have hgetD : begun.getD 0 = groupValue started := by
      rw [hbegun]
      split_ifs with hs
      · rw [hs]
        rfl
      · rfl
    have hvalue : groupValue (started ++ [b]) = begun.getD 0 * 128 + b.toNat % 128 := by
      rw [groupValue, List.foldl_append, hgetD]
      rfl
    rw [subIdentifiers, ← hvalue] at h
    by_cases hb : b.toNat < 128
    · rw [if_pos hb, Option.map_eq_some_iff] at h
      obtain ⟨rest, hrest, rfl⟩ := h
      obtain ⟨groups, hgroups, hflat⟩ := @ih [] none rest nofun rfl hrest
      refine ⟨(started ++ [b]) :: groups, .cons ⟨rfl, started, b, rfl, hstarted, hb⟩ hgroups, ?_⟩
      rw [List.flatten_cons, ← hflat, List.append_assoc]
      rfl
    · rw [if_neg hb] at h
      have hne : started ++ [b] ≠ [] := List.append_ne_nil_of_right_ne_nil _ (List.cons_ne_nil _ _)
      have hstarted' : ∀ c ∈ started ++ [b], 128 ≤ c.toNat := by
        intro c hc
        rcases List.mem_append.mp hc with hc | hc
        · exact hstarted c hc
        · rw [List.mem_singleton.mp hc]
          omega
      obtain ⟨groups, hgroups, hflat⟩ := ih hstarted' (by rw [if_neg hne]) h
      exact ⟨groups, hgroups, by rw [← hflat, List.append_assoc]; rfl⟩

/-! ## Reading -/

/-- One more byte below what has been read, cut to 32 bits. -/
theorem shiftLeft_seven_or (n : Nat) (b : UInt8) :
    (UInt32.ofNat n <<< 7) ||| (b &&& 0x7F).toUInt32 = UInt32.ofNat (n * 128 + b.toNat % 128) := by
  apply UInt32.toNat_inj.mp
  rw [UInt32.toNat_or, UInt32.toNat_shiftLeft, UInt8.toNat_toUInt32, toNat_and_0x7F, UInt32.toNat_ofNat',
    UInt32.toNat_ofNat']
  show (n % 2 ^ 32) <<< 7 % 2 ^ 32 ||| b.toNat % 128 = _
  have hshift : (n % 2 ^ 32) <<< 7 % 2 ^ 32 = 2 ^ 7 * (n % 2 ^ 25) := by
    rw [Nat.shiftLeft_eq]
    omega
  rw [hshift, ← Nat.two_pow_add_eq_or_of_lt (by omega)]
  omega

/-- The decoder reads the numbers of a string of sub-identifiers, each cut to 32 bits. -/
theorem foldl_componentStep {bytes : Bytes} {begun : Option Nat} {numbers : List Nat} (comps : Oid)
    (h : subIdentifiers begun bytes = some numbers) :
    bytes.foldl componentStep (comps, UInt32.ofNat (begun.getD 0)) = (comps ++ numbers.map UInt32.ofNat, 0) := by
  induction bytes generalizing begun numbers comps with
  | nil =>
    cases begun with
    | none =>
      cases h
      simp
    | some n => cases h
  | cons b bytes ih =>
    rw [subIdentifiers] at h
    rw [List.foldl_cons, componentStep, shiftLeft_seven_or]
    simp only [and_0x80_eq_zero]
    by_cases hb : b.toNat < 128
    · rw [if_pos hb, Option.map_eq_some_iff] at h
      obtain ⟨rest, hrest, rfl⟩ := h
      rw [if_pos hb]
      have hread := ih (comps ++ [UInt32.ofNat (begun.getD 0 * 128 + b.toNat % 128)]) hrest
      simpa using hread
    · rw [if_neg hb] at h
      rw [if_neg hb]
      exact ih comps h

/-- The body is whole: it is empty, or its first byte is a sub-identifier that stands for two components, and behind
it every sub-identifier ends and is of at most 32 bits. -/
def WholeBody : Bytes → Prop
  | [] => True
  | first :: rest =>
    first.toNat < 120 ∧ ∃ numbers, subIdentifiers none rest = some numbers ∧ ∀ n ∈ numbers, n < 2 ^ 32

/-- A sub-identifier that begins with a byte below 128 is that byte. -/
theorem IsSubIdentifier.eq_singleton {n : Nat} {first : UInt8} {head : Bytes} (h : IsSubIdentifier n (first :: head))
    (hfirst : first.toNat < 128) : head = [] := by
  obtain ⟨-, more, last, hbytes, hmore, -⟩ := h
  cases more with
  | nil => exact (List.cons.inj hbytes).2
  | cons b more =>
    have hb := hmore b List.mem_cons_self
    rw [← (List.cons.inj hbytes).1] at hb
    omega

theorem IsSubIdentifier.ne_nil {n : Nat} {head : Bytes} (h : IsSubIdentifier n head) : head ≠ [] := by
  obtain ⟨-, more, last, rfl, -, -⟩ := h
  exact List.append_ne_nil_of_right_ne_nil _ (List.cons_ne_nil _ _)

theorem isSubIdentifier_singleton {b : UInt8} (hb : b.toNat < 128) : IsSubIdentifier b.toNat [b] := by
  refine ⟨?_, [], b, rfl, nofun, hb⟩
  simp only [groupValue, List.foldl_cons, List.foldl_nil]
  omega

/-- Numbers of 32 bits are the components they are read as. -/
theorem forall₂_ofNat {numbers : List Nat} {groups : List Bytes} (h : List.Forall₂ IsSubIdentifier numbers groups)
    (hfits : ∀ n ∈ numbers, n < 2 ^ 32) :
    List.Forall₂ (fun (comp : UInt32) group => IsSubIdentifier comp.toNat group)
    (numbers.map UInt32.ofNat) groups := by
  induction h with
  | nil => exact .nil
  | @cons n group numbers groups hgroup hrest ih =>
    refine .cons ?_ (ih fun m hm => hfits m (List.mem_cons_of_mem _ hm))
    rwa [UInt32.toNat_ofNat', Nat.mod_eq_of_lt (hfits n List.mem_cons_self)]

/-- A whole body is an encoding of what is read. -/
theorem encodesOid_of_whole {first : UInt8} {rest : Bytes} {oid : Oid}
    (hread : decodeOidValue (first :: rest) = .ok oid)
    (h : WholeBody (first :: rest)) : EncodesOid oid (first :: rest) := by
  obtain ⟨hfirst, numbers, hnumbers, hfits⟩ := h
  have hoid : oid = first.toUInt32 / 40 :: first.toUInt32 % 40 :: numbers.map UInt32.ofNat := by
    have hfold := foldl_componentStep [first.toUInt32 / 40, first.toUInt32 % 40] hnumbers
    have hsame := congrArg Prod.fst hfold
    exact (Outcome.ok.inj hread).symm.trans hsame
  have hjoint : (first.toUInt32 / 40).toNat * 40 + (first.toUInt32 % 40).toNat = first.toNat := by
    rw [toNat_div_forty, toNat_mod_forty]
    omega
  obtain ⟨groups, hgroups, hflat⟩ := @exists_groups rest [] none numbers nofun rfl hnumbers
  rw [hoid]
  refine ⟨⟨?_, fun _ => ?_⟩, ?_, [first], groups, ?_, ?_, ?_⟩
  · rw [toNat_div_forty]
    omega
  · rw [toNat_mod_forty]
    omega
  · omega
  · rw [hjoint]
    exact isSubIdentifier_singleton (by omega)
  · exact forall₂_ofNat hgroups hfits
  · rw [List.singleton_append, ← hflat, List.nil_append]

/-- An encoding of what is read is a whole body. -/
theorem whole_of_encodesOid {first : UInt8} {rest : Bytes} {oid : Oid}
    (hread : decodeOidValue (first :: rest) = .ok oid)
    (h : EncodesOid oid (first :: rest)) : WholeBody (first :: rest) := by
  obtain ⟨more, hmore⟩ := decodeOidValue_cons first rest
  obtain rfl : oid = _ := Outcome.ok.inj (hread.symm.trans hmore)
  obtain ⟨hvalid, -, head, groups, hhead, hgroups, hdata⟩ := h
  have hfirst : first.toNat < 120 := by
    have hle := hvalid.1
    rw [toNat_div_forty] at hle
    omega
  cases head with
  | nil => exact absurd rfl hhead.ne_nil
  | cons b head =>
    obtain ⟨rfl, hrest⟩ := List.cons.inj hdata
    obtain rfl := hhead.eq_singleton (by omega)
    have hnumbers : List.Forall₂ IsSubIdentifier (more.map UInt32.toNat) groups :=
      List.forall₂_map_left_iff.mpr hgroups
    refine ⟨hfirst, more.map UInt32.toNat, ?_, ?_⟩
    · rw [hrest]
      exact subIdentifiers_flatten hnumbers
    · intro n hn
      obtain ⟨comp, -, rfl⟩ := List.mem_map.mp hn
      exact comp.toNat_lt

/-- **When the codec is faithful.** An identifier is read as it was written exactly when its second component is below
40; what is read from a byte string is what it encodes exactly when it is whole. -/
theorem oid_codec_faithful_iff {first second : UInt32} {rest : Oid} (hvalid : Oid.Valid (first :: second :: rest))
    (data : Bytes) :
    (encodeOid (first :: second :: rest) = encodeTlv tagObjectIdentifier (oidBody (first :: second :: rest)) ∧
      (decodeOidValue (oidBody (first :: second :: rest)) = .ok (first :: second :: rest) ↔ second.toNat < 40)) ∧
    ((∀ oid, decodeOidValue data = .ok oid → EncodesOid oid data) ↔ WholeBody data) := by
  refine ⟨⟨encodeOid_eq _, ?_, ?_⟩, ?_⟩
  · intro hread
    obtain ⟨first', second', rest', hoid, hsecond⟩ := @decodeOidValue_oidBody_second first second rest
    rw [hread] at hoid
    injection hoid with hoid
    injection hoid with _ hoid
    injection hoid with hoid _
    rwa [hoid]
  · intro hsecond
    exact decodeOidValue_oidBody ⟨first, second, rest, rfl, by have := hvalid.1; omega, hsecond⟩
  · cases data with
    | nil =>
      refine iff_of_true (fun oid hread => ?_) trivial
      obtain rfl : oid = [] := (Outcome.ok.inj hread).symm
      rfl
    | cons first rest =>
      obtain ⟨more, hmore⟩ := decodeOidValue_cons first rest
      exact ⟨fun h => whole_of_encodesOid hmore (h _ hmore), fun h oid hread => encodesOid_of_whole hread h⟩

/-- `sysDescr.0` goes there and back, and so does its body. -/
theorem oid_codec_sysDescr :
    Oid.Valid [1, 3, 6, 1, 2, 1, 1, 1, 0] ∧
      decodeOidValue (oidBody [1, 3, 6, 1, 2, 1, 1, 1, 0]) = .ok [1, 3, 6, 1, 2, 1, 1, 1, 0] ∧
      EncodesOid [1, 3, 6, 1, 2, 1, 1, 1, 0] [0x2B, 6, 1, 2, 1, 1, 1, 0] := by
  have hvalid : Oid.Valid [1, 3, 6, 1, 2, 1, 1, 1, 0] := ⟨by decide, fun _ => by decide⟩
  have hcodec := oid_codec_faithful_iff hvalid [0x2B, 6, 1, 2, 1, 1, 1, 0]
  refine ⟨hvalid, hcodec.1.2.mpr (by decide), hcodec.2.mpr ?_ _ (by decide)⟩
  exact ⟨by decide, [6, 1, 2, 1, 1, 1, 0], by decide, by decide⟩

/-- The identifier `2.40` is read as `3.0`; a body that ends inside its second number, and one whose second number is
`2 ^ 32`, are read as `1.3` and `1.3.0`. -/
theorem oid_misread :
    (Oid.Valid [2, 40] ∧ decodeOidValue (oidBody [2, 40]) = .ok [3, 0]) ∧
      (decodeOidValue [0x2B, 0x86] = .ok [1, 3] ∧ ¬ EncodesOid [1, 3] [0x2B, 0x86]) ∧
      (decodeOidValue [0x2B, 0x90, 0x80, 0x80, 0x80, 0x00] = .ok [1, 3, 0] ∧
        ¬ EncodesOid [1, 3, 0] [0x2B, 0x90, 0x80, 0x80, 0x80, 0x00]) := by
  refine ⟨⟨⟨by decide, by decide⟩, by decide⟩, ⟨by decide, fun h => ?_⟩, ⟨by decide, fun h => ?_⟩⟩
  · obtain ⟨-, numbers, hnumbers, -⟩ := whole_of_encodesOid (by decide) h
    cases hnumbers
  · obtain ⟨-, numbers, hnumbers, hfits⟩ := whole_of_encodesOid (by decide) h
    obtain rfl : [4294967296] = numbers := Option.some.inj hnumbers
    exact absurd (hfits 4294967296 List.mem_cons_self) (by decide)

end Idnx
