import Idnx.Engine.Orchestrator
import Idnx.Net.DnsReplies

/-!
# Whose name it is

Hosts are enriched with reverse names in networks of a bounded size, so that one call asks for at most 4096 addresses
(`length_le_of_admitted`) and no two of its queries have one identifier (`txIds_nodup`). Of datagrams that are read as
meant each name goes to the address that was asked for with the identifier of the datagram
(`unicast_dns_ptrs`).
-/

namespace Idnx

open Outcome

variable {ε : Type}

/-! ## Identifiers -/

theorem toNat_txId (idx : Nat) : (txId idx).toNat = (0x5000 + idx) % 65536 := by
  rw [txId, UInt16.toNat_add, UInt16.toNat_ofNat']
  show (0x5000 + idx % 65536) % 65536 = _
  omega

/-- Up to 65536 queries have each an identifier of their own. -/
theorem txIds_nodup {n : Nat} (h : n ≤ 65536) : ((List.range n).map txId).Nodup := by
  refine List.nodup_range.map_on fun i hi j hj heq => ?_
  have hvalue := congrArg UInt16.toNat heq
  rw [toNat_txId, toNat_txId] at hvalue
  rw [List.mem_range] at hi hj
  omega

/-- The identifiers of the queries of a call are those of the places of the list. -/
theorem ids_queries (ips : List Ipv4Addr) :
    (queries ips).map (fun query => readU16 query 0) = (List.range ips.length).map (some ∘ txId) := by
  have hid : ∀ idx ip, readU16 (ptrQuery idx ip) 0 = some (txId idx) := by
    intro idx ip
    have hholds : Holds (ptrQuery idx ip) 0 (beBytes 2 (txId idx).toNat) := ⟨[], _, rfl, rfl⟩
    have hlen := hholds.length_le
    rw [length_beBytes] at hlen
    obtain ⟨hi, lo, hbytes, hword⟩ := beBytes_two (txId idx)
    rw [hbytes] at hholds
    have hread : (u16At (ptrQuery idx ip) 0 : Outcome Unit _) = .ok (word hi lo) :=
      u16At_of_getElem? hholds.getElem? (@Holds.right _ _ [hi] [lo] 0 hholds).getElem?
    rw [← hword]
    exact readU16_of_u16At hlen hread
  have hplaces : ips.zipIdx.map Prod.snd = List.range ips.length := by
    rw [List.zipIdx_map_snd, List.range_eq_range']
  rw [queries, List.map_map, ← hplaces, List.map_map]
  exact List.map_congr_left fun p _ => hid p.2 p.1

/-- The addresses a call asks for: different ones, of a network small enough to be swept. -/
structure AdmittedAddresses (scope : Ipv4Net) (ips : List Ipv4Addr) : Prop where
  swept : enumerableHostCount scope.toNet ≤ ({} : Budget).maxEnumerableHosts
  contained : ∀ ip ∈ ips, scope.toNet.contains (.v4 ip) = true
  nodup : ips.Nodup

theorem length_le_of_admitted {scope : Ipv4Net} {ips : List Ipv4Addr} (h : AdmittedAddresses scope ips) :
    ips.length ≤ 4096 := by
  have hbits : 32 - scope.prefixLen.val ≤ 12 := by
    have hswept : enumerableHostCount (.v4 scope.addr scope.prefixLen) ≤ 4096 := h.swept
    by_contra hmany
    have hpow : 2 ^ 13 ≤ 2 ^ (32 - scope.prefixLen.val) := Nat.pow_le_pow_right (by decide) (by omega)
    rw [enumerableHostCount, show scope.prefixLen.toNat = scope.prefixLen.val from rfl] at hswept
    split at hswept
    · exact absurd hswept (by decide)
    · omega
  have hsub : ips.map BitVec.toNat ⊆ List.range'
      (scope.addr.toNat / 2 ^ (32 - scope.prefixLen.val) * 2 ^ (32 - scope.prefixLen.val))
      (2 ^ (32 - scope.prefixLen.val)) := by
    intro v hv
    obtain ⟨ip, hip, rfl⟩ := List.mem_map.mp hv
    have hblock := IpNet.sameBlock_iff.mp (h.contained ip hip)
    exact List.mem_range'_1.mpr hblock
  have hnodup : (ips.map BitVec.toNat).Nodup := h.nodup.map fun a b hab => BitVec.eq_of_toNat_eq hab
  have hlen := (List.subperm_of_subset hnodup hsub).length_le
  rw [List.length_map, List.length_range'] at hlen
  exact Nat.le_trans hlen (Nat.pow_le_pow_right (by decide) hbits)

/-! ## Names -/

/-- The datagram says nothing, is for none of the addresses, or is read as meant. -/
def ReadAsMeantBy (ips : List Ipv4Addr) (data : Bytes) : Prop :=
  data.length ≤ 12 ∨ readU16 data 6 = some 0 ∨ ∃ id, readU16 data 0 = some id ∧
    (ips.length ≤ id.toNat - 0x5000 ∨ 0x5000 ≤ id.toNat ∧ ReadAsMeant data)

/-- **One datagram**: what is entered is the name it states for the identifier of the query for the address. -/
theorem handleReply_spec {ips : List Ipv4Addr} {data : Bytes} (h : ReadAsMeantBy ips data)
    (results : Map Ipv4Addr Text) :
    Returns (fun results' => results' = results ∨ ∃ idx ip name, ips[idx]? = some ip ∧ StatesName data (txId idx) name ∧
      results' = AList.insert ip name results) (handleReply ips results data : Outcome ε _) := by
  have hsilent : (answerName data : Outcome ε _) = .ok none → Returns (fun results' => results' = results ∨
      ∃ idx ip name, ips[idx]? = some ip ∧ StatesName data (txId idx) name ∧
        results' = AList.insert ip name results) (handleReply ips results data : Outcome ε _) := by
    intro hnone
    rw [handleReply, hnone, ok_bind]
    exact returns_ok (.inl rfl)
  rcases h with hshort | hnone | ⟨id, hid, h⟩
  · exact hsilent (answerName_eq_none (.inl hshort))
  · exact hsilent (answerName_eq_none (.inr hnone))
  · obtain ⟨found, hfound, -⟩ := returns_answerName (ε := ε) data
    cases found with
    | none => exact hsilent hfound
    | some name =>
      rw [handleReply, hfound, ok_bind]
      dsimp only
      rw [u16At_of_readU16 hid, ok_bind]
      rcases h with hforeign | ⟨hbase, hmeant⟩
      · rw [List.getElem?_eq_none hforeign]
        exact returns_ok (.inl rfl)
      · have htx : txId (id.toNat - 0x5000) = id := by
          rw [← UInt16.toNat_inj, toNat_txId, Nat.add_sub_of_le hbase]
          exact Nat.mod_eq_of_lt id.toNat_lt
        have hstates : StatesName data (txId (id.toNat - 0x5000)) name := by
          rw [htx]
          exact answerName_states hmeant hid hfound
        cases hip : ips[id.toNat - 0x5000]? with
        | none => exact returns_ok (.inl rfl)
        | some ip => exact returns_ok (.inr ⟨id.toNat - 0x5000, ip, name, hip, hstates, rfl⟩)

/-- **A call**: each name was stated for the identifier of the query for its address. -/
theorem resolve_spec {ips : List Ipv4Addr} {datagrams : List Bytes}
    (h : ∀ data ∈ datagrams, ReadAsMeantBy ips data) :
    Returns (fun results => ∀ ip name, AList.lookup ip results = some name →
      ∃ idx, ips[idx]? = some ip ∧ ∃ data ∈ datagrams, StatesName data (txId idx) name)
      (resolveUnicastDnsPtrs ips datagrams : Outcome ε _) := by
  have hrun : ∀ ds : List Bytes, ds ⊆ datagrams → ∀ results : Map Ipv4Addr Text,
      (∀ ip name, AList.lookup ip results = some name →
        ∃ idx, ips[idx]? = some ip ∧ ∃ data ∈ datagrams, StatesName data (txId idx) name) →
      Returns (fun results => ∀ ip name, AList.lookup ip results = some name →
        ∃ idx, ips[idx]? = some ip ∧ ∃ data ∈ datagrams, StatesName data (txId idx) name)
        (ds.foldlM (handleReply ips) results : Outcome ε _) := by
    intro ds
    induction ds with
    | nil => exact fun _ results hresults => returns_ok hresults
    | cons data ds ih =>
      intro hsub results hresults
      obtain ⟨hdata, hds⟩ := List.cons_subset.mp hsub
      rw [List.foldlM_cons]
      refine (handleReply_spec (h data hdata) results).bind fun results' hstep => ih hds results' ?_
      rcases hstep with rfl | ⟨idx, ip, name, hip, hstates, rfl⟩
      · exact hresults
      · intro ip' name' hlookup
        rw [Map.lookup_insert_ite] at hlookup
        split_ifs at hlookup with hsame
        · cases hlookup
          exact ⟨idx, hsame ▸ hip, data, hdata, hstates⟩
        · exact hresults ip' name' hlookup
  unfold resolveUnicastDnsPtrs
  split
  · exact returns_ok nofun
  · exact hrun datagrams (List.Subset.refl _) ∅ nofun

/-- **Reverse names go to the address that was asked**: no two queries of an admitted call have one identifier, and if
the datagrams that come in are read as meant, each address has a name that a PTR answer with the identifier of its query
stated. -/
theorem unicast_dns_ptrs (ips : List Ipv4Addr) :
    (∀ scope, AdmittedAddresses scope ips → ((queries ips).map fun query => readU16 query 0).Nodup) ∧
      ∀ datagrams : List Bytes, (∀ data ∈ datagrams, ReadAsMeantBy ips data) →
        ∃ results, (resolveUnicastDnsPtrs ips datagrams : Outcome ε _) = .ok results ∧
          ∀ ip name, AList.lookup ip results = some name →
            ∃ idx, ips[idx]? = some ip ∧ ∃ data ∈ datagrams, StatesName data (txId idx) name := by
  refine ⟨fun scope h => ?_, fun datagrams h => resolve_spec h⟩
  have hlen := length_le_of_admitted h
  rw [ids_queries, ← List.map_map]
  exact (txIds_nodup (by omega)).map (Option.some_injective _)

/-! ### A reply -/

/-- The reply with an identifier that says that `a` is `c`. -/
def sampleReply (hi lo : UInt8) : Bytes :=
  [hi, lo, 0x81, 0x80, 0, 1, 0, 1, 0, 0, 0, 0] ++ ([1, 97, 0, 0, 12, 0, 1] ++
    ([0xC0, 12, 0, 12, 0, 1, 0, 0, 0, 120, 0, 3] ++ [1, 99, 0]))

theorem isLabel_asked : ∀ l ∈ ([[97]] : List Bytes), IsLabel l := by decide

theorem isPointer_none : ∀ p ∈ (none : Option (UInt8 × UInt8)), isPointer p.1 = true := by
  intro p hp
  cases hp

def askedQuestion : Question where
  name := ⟨[[97]], none, isLabel_asked, isPointer_none⟩
  qtype := 12
  qclass := 1

theorem isLabel_nil : ∀ l ∈ ([] : List Bytes), IsLabel l := List.forall_mem_nil _

theorem isPointer_question : ∀ p ∈ (some (0xC0, 12) : Option (UInt8 × UInt8)), isPointer p.1 = true := by
  intro p hp
  cases hp
  decide

theorem length_repliedData : ([1, 99, 0] : Bytes).length < 65536 := by decide

def repliedAnswer : DnsRecord where
  name := ⟨[], some (0xC0, 12), isLabel_nil, isPointer_question⟩
  rtype := 12
  rclass := 1
  ttl := 120
  rdata := [1, 99, 0]
  rdata_lt := length_repliedData

theorem isResponse_sampleReply (hi lo : UInt8) : IsResponse (sampleReply hi lo) [askedQuestion] repliedAnswer := by
  have hbody : [askedQuestion].flatMap Question.toBytes ++ repliedAnswer.toBytes =
      [1, 97, 0, 0, 12, 0, 1] ++ ([0xC0, 12, 0, 12, 0, 1, 0, 0, 0, 120, 0, 3] ++ [1, 99, 0]) := by decide
  refine ⟨rfl, by decide, ⟨1, rfl, by decide⟩, [hi, lo, 0x81, 0x80, 0, 1, 0, 1, 0, 0, 0, 0], [], ?_, rfl⟩
  rw [hbody, List.append_nil]
  rfl

/-- The reply is read as meant. -/
theorem readAsMeant_sampleReply (hi lo : UInt8) : ReadAsMeant (sampleReply hi lo) := by
  refine readAsMeant_of_response (isResponse_sampleReply hi lo)
    ⟨List.forall_mem_singleton.mpr (.inl rfl), .inr rfl⟩ rfl fun b rest h => .inl ?_
  rw [← (List.cons.inj h).1]
  decide

theorem unicast_dns_ptrs_sample :
    ((queries [Ipv4Addr.new 10 0 0 9]).map fun query => readU16 query 0).Nodup ∧
      ∃ results, (resolveUnicastDnsPtrs [Ipv4Addr.new 10 0 0 9] [sampleReply 0x50 0] : Outcome Unit _) = .ok results ∧
        ∀ ip name, AList.lookup ip results = some name → ∃ idx, [Ipv4Addr.new 10 0 0 9][idx]? = some ip ∧
          ∃ data ∈ [sampleReply 0x50 0], StatesName data (txId idx) name := by
  have h := unicast_dns_ptrs (ε := Unit) [Ipv4Addr.new 10 0 0 9]
  have hadmitted : AdmittedAddresses ⟨.new 10 0 0 0, 24⟩ [.new 10 0 0 9] :=
    ⟨by simp [enumerableHostCount, Ipv4Net.toNet], List.forall_mem_singleton.mpr (by decide), List.nodup_singleton _⟩
  refine ⟨h.1 _ hadmitted, h.2 [sampleReply 0x50 0] ?_⟩
  exact List.forall_mem_singleton.mpr
    (.inr (.inr ⟨0x5000, rfl, .inr ⟨by simp, readAsMeant_sampleReply 0x50 0⟩⟩))

/-- The same reply with the identifier zero, which no query had, gives the first address a name. -/
theorem unicast_dns_ptrs_stray : ¬ ∀ (ips : List Ipv4Addr) (datagrams : List Bytes) (results : Map Ipv4Addr Text),
    (resolveUnicastDnsPtrs ips datagrams : Outcome Unit _) = .ok results →
      ∀ ip name, AList.lookup ip results = some name →
        ∃ idx, ips[idx]? = some ip ∧ ∃ data ∈ datagrams, StatesName data (txId idx) name := by
  intro h
  have hread : (answerName (sampleReply 0 0) : Outcome Unit _) = .ok (some "c") := by decide
  have hrun : (resolveUnicastDnsPtrs [Ipv4Addr.new 10 0 0 9] [sampleReply 0 0] : Outcome Unit _) =
      .ok (AList.insert (Ipv4Addr.new 10 0 0 9) "c".toList ∅) := by
    have hid : (u16At (sampleReply 0 0) 0 : Outcome Unit _) = .ok 0 := rfl
    have hzero : (0 : UInt16).toNat - 0x5000 = 0 := Nat.zero_sub _
    rw [resolveUnicastDnsPtrs, if_neg (List.cons_ne_nil _ _), List.foldlM_cons, handleReply, hread, ok_bind]
    dsimp only
    rw [hid, ok_bind, hzero]
    rfl
  obtain ⟨idx, hidx, data, hdata, hid, -⟩ := h _ _ _ hrun _ _ (AList.lookup_insert _)
  obtain rfl := List.mem_singleton.mp hdata
  have hfirst : idx = 0 := Nat.lt_one_iff.mp (List.getElem?_eq_some_iff.mp hidx).1
  rw [hfirst] at hid
  exact absurd hid (by decide)

end Idnx
