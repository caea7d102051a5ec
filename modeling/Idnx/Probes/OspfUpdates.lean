import Idnx.Probes.OpenEnds

/-!
# The advertisements of an OSPF packet

A link-state update is a count and advertisements, each of the length it states itself. `wholeLsas` splits them off;
`linkStateUpdate` reads exactly these (`linkStateUpdate_eq`), of either version (`readV2Lsa_eq`, `readV3Lsa_eq`), and
a packet that is accepted discloses their prefixes (`parseV2_cases`, `parseV3_cases`).
-/

namespace Idnx

open Outcome

variable {ε : Type}

namespace Ospf

/-! ## Whole advertisements -/

/-- The length an advertisement states. -/
def lsaLength (lsa : Bytes) : Nat := (word (lsa.getD 18 0) (lsa.getD 19 0)).toNat

def lsaAge (lsa : Bytes) : UInt16 := word (lsa.getD 0 0) (lsa.getD 1 0)

def lsaSequence (lsa : Bytes) : UInt32 := UInt32.ofNat (beNat ((lsa.drop 12).take 4))

/-- The bytes are one advertisement: a header at least, and as many as it states. -/
def IsWholeLsa (lsa : Bytes) : Prop := 20 ≤ lsa.length ∧ lsaLength lsa = lsa.length

/-- The advertisement at the front of some bytes, if it is whole. -/
def wholeLsa (body : Bytes) : Option Bytes :=
  if 20 ≤ lsaLength body ∧ lsaLength body ≤ body.length then some (body.take (lsaLength body)) else none

/-- The advertisements at the front of some bytes, one after the other and at most so many. -/
def wholeLsas : Nat → Bytes → List Bytes
  | 0, _ => []
  | left + 1, body =>
    match wholeLsa body with
    | none => []
    | some lsa => lsa :: wholeLsas left (body.drop lsa.length)

theorem lsaLength_append {lsa : Bytes} (h : 20 ≤ lsa.length) (rest : Bytes) :
    lsaLength (lsa ++ rest) = lsaLength lsa := by
  unfold lsaLength
  rw [List.getD_append _ _ _ _ (by omega), List.getD_append _ _ _ _ (by omega)]

theorem wholeLsa_append {lsa : Bytes} (h : IsWholeLsa lsa) (rest : Bytes) : wholeLsa (lsa ++ rest) = some lsa := by
  unfold wholeLsa
  rw [lsaLength_append h.1, h.2, if_pos ⟨h.1, by rw [List.length_append]; omega⟩, List.take_left]

/-- What is split off is whole, and what it is split off begins with it. -/
theorem wholeLsa_eq_some {body lsa : Bytes} (h : wholeLsa body = some lsa) :
    IsWholeLsa lsa ∧ body = lsa ++ body.drop lsa.length := by
  unfold wholeLsa at h
  split at h
  case isFalse => cases h
  case isTrue hwhole =>
    obtain rfl := Option.some.inj h
    have hlen : (body.take (lsaLength body)).length = lsaLength body := List.length_take_of_le hwhole.2
    have hbody : body = body.take (lsaLength body) ++ body.drop (lsaLength body) := (List.take_append_drop _ _).symm
    rw [hlen]
    refine ⟨⟨by omega, ?_⟩, hbody⟩
    rw [hlen, ← lsaLength_append (by omega) (body.drop (lsaLength body)), ← hbody]

/-- A body too short for a header has no advertisement. -/
theorem wholeLsa_nil : wholeLsa [] = none := by
  unfold wholeLsa
  rw [if_neg fun h => absurd (Nat.le_trans h.1 h.2) (by decide)]

theorem isWholeLsa_of_mem {lsa : Bytes} (n : Nat) (body : Bytes) (h : lsa ∈ wholeLsas n body) : IsWholeLsa lsa := by
  induction n generalizing body with
  | zero => cases h
  | succ n ih =>
    rw [wholeLsas] at h
    cases hfirst : wholeLsa body with
    | none =>
      rw [hfirst] at h
      cases h
    | some first =>
      rw [hfirst] at h
      rcases List.mem_cons.mp h with rfl | hrest
      · exact (wholeLsa_eq_some hfirst).1
      · exact ih _ hrest

/-- Of a sequence of advertisements the first are split off, as many as are asked for. -/
theorem wholeLsas_flatten {lsas : List Bytes} (h : ∀ lsa ∈ lsas, IsWholeLsa lsa) (n : Nat) :
    wholeLsas n lsas.flatten = lsas.take n := by
  induction lsas generalizing n with
  | nil =>
    cases n with
    | zero => rfl
    | succ n => rw [wholeLsas, List.flatten_nil, wholeLsa_nil, List.take_nil]
  | cons lsa lsas ih =>
    cases n with
    | zero => rfl
    | succ n =>
      rw [wholeLsas, List.flatten_cons, wholeLsa_append (h lsa List.mem_cons_self)]
      dsimp only
      rw [List.drop_left, ih (fun l hl => h l (List.mem_cons_of_mem lsa hl)), List.take_succ_cons]

/-- Whole advertisements are not more than their bytes. -/
theorem length_le_flatten {lsas : List Bytes} (h : ∀ lsa ∈ lsas, IsWholeLsa lsa) :
    lsas.length ≤ lsas.flatten.length := by
  induction lsas with
  | nil => exact Nat.le_refl _
  | cons lsa lsas ih =>
    have hrest := ih fun l hl => h l (List.mem_cons_of_mem lsa hl)
    have hheader := (h lsa List.mem_cons_self).1
    rw [List.length_cons, List.flatten_cons, List.length_append]
    omega

/-! ## Updates -/

section Updates

variable {readLsa : Bytes → Outcome Unit DecodedLsa} {prefixesOf : Bytes → List AdvertisedPrefix}

/-- The reader takes the advertisement at the front if it is whole, and has its prefixes. -/
def Reads (readLsa : Bytes → Outcome Unit DecodedLsa) (prefixesOf : Bytes → List AdvertisedPrefix) : Prop :=
  ∀ body, readLsa body =
    match wholeLsa body with
    | none => .err ()
    | some lsa => .ok { length := lsa.length, sequence := lsaSequence lsa, prefixes := prefixesOf lsa }

theorem walk_lsas (hreads : Reads readLsa prefixesOf) (n : Nat) {body : Bytes} {cursor : Nat}
    (hcursor : cursor ≤ body.length) (sequences : List UInt32) (prefixes : List AdvertisedPrefix) :
    (loop (nextLsa readLsa body) (n + 1) (n, cursor, sequences, prefixes) : Outcome ε _) =
      .ok (sequences ++ (wholeLsas n (body.drop cursor)).map lsaSequence,
        prefixes ++ (wholeLsas n (body.drop cursor)).flatMap prefixesOf) := by
  induction n generalizing cursor sequences prefixes with
  | zero =>
    rw [loop, nextLsa, ok_bind, wholeLsas]
    simp
  | succ n ih =>
    rw [loop, nextLsa, sliceFrom_eq hcursor, ok_bind, hreads, wholeLsas]
    cases hfirst : wholeLsa (body.drop cursor) with
    | none => simp [Outcome.toOption]
    | some lsa =>
      have hbody := (wholeLsa_eq_some hfirst).2
      have hlen := congrArg List.length hbody
      rw [List.length_append, List.length_drop, List.length_drop, List.length_drop] at hlen
      dsimp only [Outcome.toOption]
      rw [ok_bind]
      dsimp only
      by_cases hend : body.length ≤ cursor + lsa.length
      · have hnone : wholeLsas n ((body.drop cursor).drop lsa.length) = [] := by
          rw [List.drop_drop, List.drop_eq_nil_of_le hend]
          cases n with
          | zero => rfl
          | succ n => rw [wholeLsas, wholeLsa_nil]
        rw [if_pos hend, pure_eq, ok_bind, hnone]
        simp
      · rw [if_neg hend, pure_eq, ok_bind]
        dsimp only
        rw [ih (by omega), List.drop_drop]
        simp

/-- The advertisements of an update that are read: as many as it counts, but at most 256. -/
def updateLsas (body : Bytes) : List Bytes :=
  wholeLsas (min (UInt32.ofNat (beNat (body.take 4))).toNat 256) (body.drop 4)

/-- An update of whole advertisements has the first 256 of them read. -/
theorem updateLsas_flatten {lsas : List Bytes} (h : ∀ lsa ∈ lsas, IsWholeLsa lsa) (hcount : lsas.length < 256 ^ 4) :
    updateLsas (beBytes 4 lsas.length ++ lsas.flatten) = lsas.take 256 := by
  have hfront : (beBytes 4 lsas.length ++ lsas.flatten).take 4 = beBytes 4 lsas.length := by
    rw [List.take_left' (length_beBytes 4 _)]
  have hrest : (beBytes 4 lsas.length ++ lsas.flatten).drop 4 = lsas.flatten := by
    rw [List.drop_left' (length_beBytes 4 _)]
  unfold updateLsas
  rw [hfront, hrest, beNat_beBytes hcount, UInt32.toNat_ofNat_of_lt' hcount, wholeLsas_flatten h, Nat.min_comm,
    ← List.take_eq_take_min]

theorem linkStateUpdate_eq (hreads : Reads readLsa prefixesOf) {body : Bytes} (h : 4 ≤ body.length) :
    linkStateUpdate readLsa body =
      .ok ((updateLsas body).map lsaSequence, (updateLsas body).flatMap prefixesOf) := by
  unfold linkStateUpdate updateLsas
  rw [require_of h, ok_bind, u32At_eq h, ok_bind, List.drop_zero]
  dsimp only
  rw [walk_lsas hreads _ h, List.nil_append, List.nil_append]

/-- The advertisements a packet of the given type carries. -/
def packetLsas (kind : UInt8) (body : Bytes) : List Bytes := if kind = 4 then updateLsas body else []

/-- Contents that are not an update cut off in its count have the prefixes of the advertisements. -/
theorem withContents_eq (hreads : Reads readLsa prefixesOf) (decoded : OspfPacket) (hnone : decoded.prefixes = [])
    (kind : UInt8) {body : Bytes} (h : kind = 4 → 4 ≤ body.length) :
    ∃ packet, withContents decoded kind readLsa body = .ok packet ∧
      packet.prefixes = (packetLsas kind body).flatMap prefixesOf ∧ packet.authentication = decoded.authentication := by
  unfold withContents packetLsas
  by_cases hhello : kind = 1 ∧ 20 ≤ body.length
  · have hkind : kind ≠ 4 := fun hkind => absurd (hkind.symm.trans hhello.1) (by decide)
    rw [if_pos hhello, if_neg hkind, helloNeighbours, sliceFrom_eq hhello.2, ok_bind, chunkAddresses_eq, ok_bind]
    exact ⟨_, rfl, hnone, rfl⟩
  rw [if_neg hhello]
  by_cases hkind : kind = 4
  · rw [if_pos hkind, if_pos hkind, linkStateUpdate_eq hreads (h hkind), ok_bind]
    exact ⟨_, rfl, rfl, rfl⟩
  · rw [if_neg hkind, if_neg hkind]
    exact ⟨_, rfl, hnone, rfl⟩

theorem withContents_cut (decoded : OspfPacket) {kind : UInt8} {body : Bytes} (h : ¬ (kind = 4 → 4 ≤ body.length)) :
    withContents decoded kind readLsa body = .err () := by
  obtain ⟨rfl, hshort⟩ := Classical.not_imp.mp h
  unfold withContents linkStateUpdate
  rw [if_neg fun hhello => absurd hhello.1 (by decide), if_pos rfl, require, if_neg hshort]
  rfl

end Updates

/-! ## OSPFv2 -/

/-- The prefixes of an advertisement of version 2. -/
def v2LsaPrefixes (lsa : Bytes) : List AdvertisedPrefix :=
  (v2Prefixes (lsa.getD 3 0) (addressOfBytes ((lsa.drop 4).take 4)) (maxAge ≤ lsaAge lsa) (lsa.drop 20) :
    Outcome Unit _).getD []

theorem v2Prefixes_eq (lsa : Bytes) :
    (v2Prefixes (lsa.getD 3 0) (addressOfBytes ((lsa.drop 4).take 4)) (maxAge ≤ lsaAge lsa) (lsa.drop 20) :
      Outcome Unit _) = .ok (v2LsaPrefixes lsa) := by
  obtain ⟨prefixes, hprefixes, -⟩ := returns_v2Prefixes (ε := Unit) (lsa.getD 3 0)
    (addressOfBytes ((lsa.drop 4).take 4)) (maxAge ≤ lsaAge lsa) (lsa.drop 20)
  unfold v2LsaPrefixes
  rw [hprefixes, getD_ok]

theorem wholeLsa_eq_none {body : Bytes} (h : wholeLsa body = none) :
    ¬ (20 ≤ lsaLength body ∧ lsaLength body ≤ body.length) := by
  unfold wholeLsa at h
  split at h
  · cases h
  · assumption

section Front

variable {lsa : Bytes} (h : IsWholeLsa lsa) (rest : Bytes)

include h

/-- The contents of an advertisement are what stands behind its header, up to its length. -/
theorem slice_contents : (slice (lsa ++ rest) 20 (lsaLength lsa) : Outcome ε _) = .ok (lsa.drop 20) := by
  rw [h.2, slice_append rest (Nat.le_refl _)]
  exact sliceFrom_eq h.1

theorem u16At_lsa {k : Nat} (hk : k + 2 ≤ 20) :
    (u16At (lsa ++ rest) k : Outcome ε _) = .ok (word (lsa.getD k 0) (lsa.getD (k + 1) 0)) := by
  have hheader := h.1
  rw [u16At_append rest (by omega), u16At_eq (by omega)]

theorem u32At_lsa {k : Nat} (hk : k + 4 ≤ 20) :
    (u32At (lsa ++ rest) k : Outcome ε _) = .ok (UInt32.ofNat (beNat ((lsa.drop k).take 4))) := by
  have hheader := h.1
  unfold u32At
  rw [slice_append rest (by omega), slice_eq (by omega)]
  rfl

theorem length_lsa : (20 ≤ lsaLength lsa ∧ lsaLength lsa ≤ (lsa ++ rest).length) := by
  have hheader := h.1
  have hlength := h.2
  rw [List.length_append]
  omega

end Front

/-- What stands behind a whole advertisement does not matter to the reader. -/
theorem reads_v2 : Reads readV2Lsa v2LsaPrefixes := by
  intro body
  unfold readV2Lsa
  cases hfirst : wholeLsa body with
  | none =>
    have hcut := wholeLsa_eq_none hfirst
    by_cases hheader : 20 ≤ body.length
    · rw [require_of hheader, ok_bind, u16At_eq (by omega), ok_bind, index_eq (by omega), ok_bind, ipv4At_eq (by omega),
        ok_bind, u32At_eq (by omega), ok_bind, u16At_eq (by omega), ok_bind]
      show (require (20 ≤ lsaLength body ∧ lsaLength body ≤ body.length) () >>= _) = _
      rw [require, if_neg hcut]
      rfl
    · rw [require, if_neg hheader]
      rfl
  | some lsa =>
    obtain ⟨hwhole, hbody⟩ := wholeLsa_eq_some hfirst
    generalize body.drop lsa.length = rest at hbody
    subst hbody
    have hheader := hwhole.1
    have hlength := length_lsa hwhole rest
    rw [require_of (by omega), ok_bind, u16At_lsa hwhole rest (by omega), ok_bind, index_append rest (by omega),
      index_eq (by omega), ok_bind, ipv4At_append rest (by omega), ipv4At_eq (by omega), ok_bind,
      u32At_lsa hwhole rest (by omega), ok_bind, u16At_lsa hwhole rest (by omega), ok_bind]
    show (require (20 ≤ lsaLength lsa ∧ lsaLength lsa ≤ (lsa ++ rest).length) () >>= _) = _
    rw [require_of hlength, ok_bind]
    show (slice (lsa ++ rest) 20 (lsaLength lsa) >>= _) = _
    rw [slice_contents hwhole rest, ok_bind]
    show (v2Prefixes (lsa.getD 3 0) (addressOfBytes ((lsa.drop 4).take 4)) (maxAge ≤ lsaAge lsa) (lsa.drop 20) >>= _) = _
    rw [v2Prefixes_eq, ok_bind]
    show Outcome.ok ({ length := lsaLength lsa, sequence := _, prefixes := _ } : DecodedLsa) = _
    rw [hwhole.2]
    rfl

/-! ### Packets -/

/-- The length a packet states. -/
def packetLength (payload : Bytes) : Nat := (word (payload.getD 2 0) (payload.getD 3 0)).toNat

/-- The packet has a header of the version, of at least so many bytes, and is as long as it states. -/
def HasOspfHeader (version : UInt8) (size : Nat) (payload : Bytes) : Prop :=
  size ≤ payload.length ∧ payload.getD 0 0 = version ∧ size ≤ packetLength payload ∧
    packetLength payload ≤ payload.length

/-- A parser that first checks for a header goes on exactly if there is one. -/
theorem checkHeader {α : Type} {version : UInt8} {size : Nat} (hsize : 4 ≤ size) (payload : Bytes)
    (parseRest : UInt16 → Outcome Unit α) {parsed : Outcome Unit α}
    (hparsed : parsed = do
      require (size ≤ payload.length) ()
      let v ← index payload 0
      require (v = version) ()
      let length ← u16At payload 2
      require (size ≤ length.toNat ∧ length.toNat ≤ payload.length) ()
      parseRest length) :
    (HasOspfHeader version size payload → parsed = parseRest (word (payload.getD 2 0) (payload.getD 3 0))) ∧
      (¬ HasOspfHeader version size payload → parsed = .err ()) := by
  subst hparsed
  by_cases hlen : size ≤ payload.length
  case neg =>
    rw [require, if_neg hlen]
    exact ⟨fun h => absurd h.1 hlen, fun _ => rfl⟩
  rw [require_of hlen, ok_bind, index_eq (by omega), ok_bind]
  by_cases hversion : payload.getD 0 0 = version
  case neg =>
    rw [require, if_neg hversion]
    exact ⟨fun h => absurd h.2.1 hversion, fun _ => rfl⟩
  rw [require_of hversion, ok_bind, u16At_eq (by omega), ok_bind, show 2 + 1 = 3 from rfl]
  by_cases hlength : size ≤ (word (payload.getD 2 0) (payload.getD 3 0)).toNat ∧
      (word (payload.getD 2 0) (payload.getD 3 0)).toNat ≤ payload.length
  case neg =>
    rw [require, if_neg hlength]
    exact ⟨fun h => absurd h.2.2 hlength, fun _ => rfl⟩
  rw [require_of hlength, ok_bind]
  exact ⟨fun _ => rfl, fun h => absurd ⟨hlen, hversion, hlength⟩ h⟩

/-- What stands behind the header of a packet. -/
def packetBody (size : Nat) (payload : Bytes) : Bytes := (payload.take (packetLength payload)).drop size

/-- The packet with its authentication field zeroed. -/
def zeroed (payload : Bytes) : Bytes := payload.take 16 ++ List.replicate 8 0 ++ packetBody 24 payload

/-- The checksum of the packet verifies, which the authentication field has no part in. -/
def V2Verifies (payload : Bytes) : Prop := (internetChecksum (zeroed payload) : Outcome Unit _) = .ok 0

/-- How the packet says it is authenticated. -/
def v2Authentication (payload : Bytes) : Authentication := .fromType (word (payload.getD 14 0) (payload.getD 15 0))

/-- The advertisements of a packet of version 2. -/
def v2Lsas (payload : Bytes) : List Bytes := packetLsas (payload.getD 1 0) (packetBody 24 payload)

/-- The packet has no update cut off in its count. -/
def HasCount (size : Nat) (payload : Bytes) : Prop := payload.getD 1 0 = 4 → 4 ≤ (packetBody size payload).length

/-- The packet is accepted. -/
def V2Accepted (payload : Bytes) : Prop := HasOspfHeader 2 24 payload ∧ V2Verifies payload ∧ HasCount 24 payload

theorem length_packetBody {version : UInt8} {size : Nat} {payload : Bytes} (h : HasOspfHeader version size payload) :
    (packetBody size payload).length = packetLength payload - size := by
  rw [packetBody, List.length_drop, List.length_take_of_le h.2.2.2]

/-- What the header of a packet of version 2 says. -/
def v2Header (payload : Bytes) : OspfPacket :=
  { protocol := "OSPFv2", routerId := addressOfBytes ((payload.drop 4).take 4),
    area := addressOfBytes ((payload.drop 8).take 4), authentication := v2Authentication payload,
    hello := payload.getD 1 0 = 1, neighbours := [], prefixes := [], sequences := [], raw := zeroed payload }

theorem parseV2_of_header {payload : Bytes} (h : HasOspfHeader 2 24 payload) :
    parseV2 payload = (do
      let checksum ← internetChecksum (zeroed payload)
      require (checksum = 0) ()
      withContents (v2Header payload) (payload.getD 1 0) readV2Lsa (packetBody 24 payload)) := by
  obtain ⟨hlen, hversion, hlength⟩ := h
  have hsize : (payload.take (packetLength payload)).length = packetLength payload := List.length_take_of_le hlength.2
  have hpacket : (slice payload 0 (packetLength payload) : Outcome Unit _) =
      .ok (payload.take (packetLength payload)) := by
    unfold slice
    rw [if_pos ⟨Nat.zero_le _, hlength.2⟩, List.drop_zero, Nat.sub_zero]
  have hcopy : (copyInto (payload.take (packetLength payload)) 16 24 (List.replicate 8 0) : Outcome Unit _) =
      .ok (zeroed payload) := by
    unfold copyInto zeroed packetBody
    rw [if_pos ⟨by decide, by omega, rfl⟩, List.take_take, Nat.min_eq_left (by omega)]
  have hfront : (payload.take 16 ++ List.replicate 8 0).length = 24 := by
    rw [List.length_append, List.length_take_of_le (by omega), List.length_replicate]
  have hbody : (sliceFrom (zeroed payload) 24 : Outcome Unit _) = .ok (packetBody 24 payload) := by
    unfold zeroed
    rw [← hfront, sliceFrom_append]
  refine ((checkHeader (by decide) payload _ rfl).1 ⟨hlen, hversion, hlength⟩).trans ?_
  show (slice payload 0 (packetLength payload) >>= _) = _
  rw [hpacket, ok_bind, hcopy, ok_bind, ipv4At_eq (by omega), ipv4At_eq (by omega), u16At_eq (by omega),
    index_eq (by omega), hbody]
  rfl

theorem parseV2_of_not_header {payload : Bytes} (h : ¬ HasOspfHeader 2 24 payload) : parseV2 payload = .err () :=
  (checkHeader (by decide) payload _ rfl).2 h

/-- **What an OSPFv2 packet discloses**: the prefixes of its advertisements, if it is accepted. -/
theorem parseV2_cases (payload : Bytes) :
    (V2Accepted payload ∧ ∃ packet, parseV2 payload = .ok packet ∧
      packet.prefixes = (v2Lsas payload).flatMap v2LsaPrefixes ∧ packet.authentication = v2Authentication payload) ∨
    (¬ V2Accepted payload ∧ parseV2 payload = .err ()) := by
  by_cases hheader : HasOspfHeader 2 24 payload
  case neg => exact .inr ⟨fun h => hheader h.1, parseV2_of_not_header hheader⟩
  have hsize : (zeroed payload).length ≤ 65535 := by
    have hbody := length_packetBody hheader
    have hword : packetLength payload < 65536 := UInt16.toNat_lt _
    unfold zeroed
    rw [List.length_append, List.length_append, List.length_take, List.length_replicate]
    omega
  rw [parseV2_of_header hheader]
  cases hsum : (internetChecksum (zeroed payload) : Outcome Unit _) with
  | panic => exact absurd hsum (safe_internetChecksum hsize).ne_panic
  | err e =>
    refine .inr ⟨fun h => ?_, rfl⟩
    have hverifies : (internetChecksum (zeroed payload) : Outcome Unit _) = .ok 0 := h.2.1
    rw [hsum] at hverifies
    cases hverifies
  | ok checksum =>
    have hverifies : V2Verifies payload ↔ checksum = 0 := by
      unfold V2Verifies
      rw [hsum]
      exact ⟨Outcome.ok.inj, congrArg _⟩
    rw [ok_bind]
    by_cases hzero : checksum = 0
    case neg =>
      rw [require, if_neg hzero]
      exact .inr ⟨fun h => hzero (hverifies.mp h.2.1), rfl⟩
    rw [require_of hzero, ok_bind]
    by_cases hcount : HasCount 24 payload
    · exact .inl ⟨⟨hheader, hverifies.mpr hzero, hcount⟩, withContents_eq reads_v2 (v2Header payload) rfl _ hcount⟩
    · exact .inr ⟨fun h => hcount h.2.2, withContents_cut _ hcount⟩

/-! ## OSPFv3 -/

/-- The prefixes of an advertisement of version 3. -/
def v3LsaPrefixes (lsa : Bytes) : List AdvertisedPrefix :=
  (v3Prefixes (word (lsa.getD 2 0) (lsa.getD 3 0)) (maxAge ≤ lsaAge lsa) (lsa.drop 20) : Outcome Unit _).getD []

theorem v3Prefixes_eq (lsa : Bytes) :
    (v3Prefixes (word (lsa.getD 2 0) (lsa.getD 3 0)) (maxAge ≤ lsaAge lsa) (lsa.drop 20) : Outcome Unit _) =
      .ok (v3LsaPrefixes lsa) := by
  obtain ⟨prefixes, hprefixes, -⟩ := returns_v3Prefixes (ε := Unit) (word (lsa.getD 2 0) (lsa.getD 3 0))
    (maxAge ≤ lsaAge lsa) (lsa.drop 20)
  unfold v3LsaPrefixes
  rw [hprefixes, getD_ok]

theorem reads_v3 : Reads readV3Lsa v3LsaPrefixes := by
  intro body
  unfold readV3Lsa
  cases hfirst : wholeLsa body with
  | none =>
    have hcut := wholeLsa_eq_none hfirst
    by_cases hheader : 20 ≤ body.length
    · rw [require_of hheader, ok_bind, u16At_eq (by omega), ok_bind, u16At_eq (by omega), ok_bind, u32At_eq (by omega),
        ok_bind, u16At_eq (by omega), ok_bind]
      show (require (20 ≤ lsaLength body ∧ lsaLength body ≤ body.length) () >>= _) = _
      rw [require, if_neg hcut]
      rfl
    · rw [require, if_neg hheader]
      rfl
  | some lsa =>
    obtain ⟨hwhole, hbody⟩ := wholeLsa_eq_some hfirst
    generalize body.drop lsa.length = rest at hbody
    subst hbody
    have hheader := hwhole.1
    have hlength := length_lsa hwhole rest
    rw [require_of (by omega), ok_bind, u16At_lsa hwhole rest (by omega), ok_bind, u16At_lsa hwhole rest (by omega),
      ok_bind, u32At_lsa hwhole rest (by omega), ok_bind, u16At_lsa hwhole rest (by omega), ok_bind]
    show (require (20 ≤ lsaLength lsa ∧ lsaLength lsa ≤ (lsa ++ rest).length) () >>= _) = _
    rw [require_of hlength, ok_bind]
    show (slice (lsa ++ rest) 20 (lsaLength lsa) >>= _) = _
    rw [slice_contents hwhole rest, ok_bind]
    show (v3Prefixes (word (lsa.getD 2 0) (lsa.getD 3 0)) (maxAge ≤ lsaAge lsa) (lsa.drop 20) >>= _) = _
    rw [v3Prefixes_eq, ok_bind]
    show Outcome.ok ({ length := lsaLength lsa, sequence := _, prefixes := _ } : DecodedLsa) = _
    rw [hwhole.2]
    rfl

/-- The advertisements of a packet of version 3. -/
def v3Lsas (payload : Bytes) : List Bytes := packetLsas (payload.getD 1 0) (packetBody 16 payload)

/-- The packet is accepted: nothing is asked of its checksum. -/
def V3Accepted (payload : Bytes) : Prop := HasOspfHeader 3 16 payload ∧ HasCount 16 payload

/-- What the header of a packet of version 3 says. -/
def v3Header (payload : Bytes) : OspfPacket :=
  { protocol := "OSPFv3", routerId := addressOfBytes ((payload.drop 4).take 4),
    area := addressOfBytes ((payload.drop 8).take 4), authentication := .none, hello := payload.getD 1 0 = 1,
    neighbours := [], prefixes := [], sequences := [], raw := payload.take (packetLength payload) }

theorem parseV3_of_header {payload : Bytes} (h : HasOspfHeader 3 16 payload) :
    parseV3 payload = withContents (v3Header payload) (payload.getD 1 0) readV3Lsa (packetBody 16 payload) := by
  obtain ⟨hlen, hversion, hlength⟩ := h
  have hpacket : (slice payload 0 (packetLength payload) : Outcome Unit _) =
      .ok (payload.take (packetLength payload)) := by
    unfold slice
    rw [if_pos ⟨Nat.zero_le _, hlength.2⟩, List.drop_zero, Nat.sub_zero]
  have hbody : (slice payload 16 (packetLength payload) : Outcome Unit _) = .ok (packetBody 16 payload) := by
    unfold slice packetBody
    rw [if_pos hlength, List.drop_take]
  refine ((checkHeader (by decide) payload _ rfl).1 ⟨hlen, hversion, hlength⟩).trans ?_
  rw [ipv4At_eq (by omega), ok_bind, ipv4At_eq (by omega), ok_bind, index_eq (by omega),
    ok_bind]
  show (slice payload 16 (packetLength payload) >>= _) = _
  rw [hbody, ok_bind]
  show (slice payload 0 (packetLength payload) >>= _) = _
  rw [hpacket]
  rfl

theorem parseV3_of_not_header {payload : Bytes} (h : ¬ HasOspfHeader 3 16 payload) : parseV3 payload = .err () :=
  (checkHeader (by decide) payload _ rfl).2 h

/-- **What an OSPFv3 packet discloses**: the prefixes of its advertisements, if it is accepted. -/
theorem parseV3_cases (payload : Bytes) :
    (V3Accepted payload ∧ ∃ packet, parseV3 payload = .ok packet ∧
      packet.prefixes = (v3Lsas payload).flatMap v3LsaPrefixes ∧ packet.authentication = .none) ∨
    (¬ V3Accepted payload ∧ parseV3 payload = .err ()) := by
  by_cases hheader : HasOspfHeader 3 16 payload
  case neg => exact .inr ⟨fun h => hheader h.1, parseV3_of_not_header hheader⟩
  rw [parseV3_of_header hheader]
  by_cases hcount : HasCount 16 payload
  · exact .inl ⟨⟨hheader, hcount⟩, withContents_eq reads_v3 (v3Header payload) rfl _ hcount⟩
  · exact .inr ⟨fun h => hcount h.2, withContents_cut _ hcount⟩

end Ospf

end Idnx
