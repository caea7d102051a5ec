import Idnx.Engine.Enrich
import Idnx.Topology.Fresh
import Idnx.Topology.Marks

/-!
# What may be probed

An address of a device may be probed if a record of this machine ties it to the device, or to an identity that was
later merged into it (`Backed`). The queue is built from marks on the nodes, so the question is whether every local
mark is backed. It is, except for one slip: when a local record puts an address in dispute, the previous holder's node
is marked as if this machine had seen the address there (`Misfiles`).

* `marks_backed_iff`: the marks are right all along a run exactly when no step misfiles one;
* `queue_backed`: then whatever is queued, in any state of the run, is backed;
* `queue_names_local`: in any case a queued address is one that a local record names.
-/

namespace Idnx

/-- What becomes of an identity: a merge renames it. -/
def GraphOp.follow (g : TopologyGraph) (k : DeviceKey) : GraphOp → DeviceKey
  | .absorb _ => k
  | .merge => rename g.merges k
  | .finalize => rename g.merges k

/-- What becomes of an identity over a run that starts in `g`. -/
def followAll (g : TopologyGraph) (k : DeviceKey) : List GraphOp → DeviceKey
  | [] => k
  | op :: ops => followAll (op.apply g) (op.follow g k) ops

/-- A record of this machine claims `a` for `k`, in the run `ops`, or for an identity that the rest of the run merges
into `k`. -/
def Backed (ops : List GraphOp) (k : DeviceKey) (a : IpAddr) : Prop :=
  ∃ before ev after slot key, ops = before ++ .absorb ev :: after ∧ ev.origin = none ∧
    (build before).claimOf ev = some (slot, key) ∧ slot.address = a ∧
      followAll (build (before ++ [.absorb ev])) key after = k

/-- The operation absorbs a local record that puts an address in dispute whose holder, a node of the graph, no local
record has been about. -/
def Misfiles (h : List GraphOp) (g : TopologyGraph) : GraphOp → Prop
  | .absorb ev => ev.origin = none ∧ ∃ slot key holder, g.claimOf ev = some (slot, key) ∧
      g.contestedAddresses.lookup slot = none ∧ g.addressOwner.lookup slot = some holder ∧
        resolveClaim (some holder) (g.addressBinding.lookup slot) key ev.source = .contested ∧
          .device holder ∈ g.nodes ∧ ¬Backed h holder slot.address
  | .merge => False
  | .finalize => False

/-! ## Backing -/

theorem followAll_concat (g : TopologyGraph) (k : DeviceKey) (ops : List GraphOp) (op : GraphOp) :
    followAll g k (ops ++ [op]) = op.follow (run GraphOp.apply g ops) (followAll g k ops) := by
  induction ops generalizing g k with
  | nil => rfl
  | cons o ops ih => exact ih (o.apply g) (o.follow g k)

/-- Backing follows the identity through an operation. -/
theorem Backed.concat {ops : List GraphOp} {k : DeviceKey} {a : IpAddr} (h : Backed ops k a) (op : GraphOp) :
    Backed (ops ++ [op]) (op.follow (build ops) k) a := by
  obtain ⟨before, ev, after, slot, key, rfl, hl, hc, ha, hf⟩ := h
  refine ⟨before, ev, after ++ [op], slot, key, by simp, hl, hc, ha, ?_⟩
  rw [followAll_concat, hf]
  congr 1
  rw [build, build, ← run_append]
  simp

/-- After a record, an identity is backed if it was, or if the record is the backing. -/
theorem backed_absorb {ops : List GraphOp} {ev : TopologyEvidence} {k : DeviceKey} {a : IpAddr} :
    Backed (ops ++ [GraphOp.absorb ev]) k a ↔ Backed ops k a ∨ (ev.origin = none ∧ ∃ slot,
      (build ops).claimOf ev = some (slot, k) ∧ slot.address = a) := by
  constructor
  · rintro ⟨before, ev', after, slot, key, he, hl, hc, ha, hf⟩
    rcases List.eq_nil_or_concat after with rfl | ⟨after, last, rfl⟩
    · obtain ⟨rfl, h⟩ := List.append_inj' he rfl
      cases h
      cases hf
      exact .inr ⟨hl, slot, hc, ha⟩
    · rw [List.concat_eq_append, ← List.cons_append, ← List.append_assoc] at he
      obtain ⟨rfl, hlast⟩ := List.append_inj' he rfl
      cases hlast
      rw [List.concat_eq_append, followAll_concat] at hf
      exact .inl ⟨before, ev', after, slot, key, rfl, hl, hc, ha, hf⟩
  · rintro (h | ⟨hl, slot, hc, ha⟩)
    · exact h.concat (.absorb ev)
    · exact ⟨ops, ev, [], slot, k, rfl, hl, hc, ha, rfl⟩

/-! ## Runs -/

/-- Every local mark is backed. -/
def MarksBacked (h : List GraphOp) (g : TopologyGraph) : Prop := ∀ k a, LocalMark g k a → Backed h k a

/-- A merge moves marks and backing alike. -/
theorem marksBacked_merge {h : List GraphOp} {op : GraphOp}
    (hop : ∀ k, op.follow (build h) k = rename (build h).merges k)
    (hm : MarksBacked h (build h)) {k : DeviceKey} {a : IpAddr}
    (hk : LocalMark (build h).mergeAddressIdentities.1 k a) : Backed (h ++ [op]) k a := by
  obtain ⟨j, rfl, hj⟩ := localMark_merge.mp hk
  rw [← hop]
  exact (hm j a hj).concat op

/-- **One operation** keeps the marks backed exactly when it does not misfile one. -/
theorem marksBacked_apply_iff {h : List GraphOp} (hm : MarksBacked h (build h)) (op : GraphOp) :
    MarksBacked (h ++ [op]) (op.apply (build h)) ↔ ¬Misfiles h (build h) op := by
  cases op with
  | merge => exact iff_of_true (fun k a hk => marksBacked_merge (fun _ => rfl) hm hk) id
  | finalize =>
    refine iff_of_true (fun k a hk => marksBacked_merge (fun _ => rfl) hm ?_) id
    exact (localMark_rekind _).mp ((localMark_rekind _).mp hk)
  | absorb ev =>
    cases hc : (build h).claimOf ev with
    | none =>
      refine iff_of_true (fun k a hk => ?_) ?_
      · exact (hm k a ((localMark_absorb_of_none hc).mp hk)).concat (.absorb ev)
      · rintro ⟨-, slot, key, holder, he, -⟩
        rw [hc] at he
        cases he
    | some sk =>
      obtain ⟨slot, key⟩ := sk
      constructor
      · rintro hm' ⟨hl, slot', key', holder, he, hcon, ho, hr, hn, hback⟩
        rw [hc] at he
        cases he
        have hmark : LocalMark ((build h).absorb ev) holder slot.address := by
          rw [localMark_absorb_of_some hc, claimMark_of_contested hcon ho hr]
          exact .inr ⟨rfl, hl, .inr hn⟩
        rcases backed_absorb.mp (hm' holder slot.address hmark) with hb | ⟨-, slot', hc', -⟩
        · exact hback hb
        · rw [hc] at hc'
          cases hc'
          exact TopologyGraph.ne_of_resolveClaim (by rw [hr]; decide) rfl
      · intro hmis k a hk
        refine backed_absorb.mpr ?_
        change LocalMark ((build h).absorb ev) k a at hk
        rw [localMark_absorb_of_some hc] at hk
        -- a mark that was not there before is on the claimant's node, or on that of the holder in a new dispute
        have hnew : ∀ (hx : (build h).claimMark slot key ev.source k = .hold ∨
            (build h).claimMark slot key ev.source k = .contest),
            LocalMark (build h) k a ∨ (a = slot.address ∧ ev.origin = none ∧
              (k = key ∨ .device k ∈ (build h).nodes)) → Backed h k a ∨
              (ev.origin = none ∧ ∃ slot', some (slot, key) = some (slot', k) ∧ slot'.address = a) := by
          rintro hx (hold | ⟨rfl, hl, hn⟩)
          · exact .inl (hm k a hold)
          · by_cases hkey : k = key
            · subst hkey
              exact .inr ⟨hl, slot, rfl, rfl⟩
            · obtain ⟨hcon, ho, hr⟩ := claimMark_of_ne hkey hx
              by_contra hno
              simp only [not_or] at hno
              have hmem : .device k ∈ (build h).nodes := by
                rcases hn with hn | hn
                · exact absurd hn hkey
                · exact hn
              exact hmis ⟨hl, slot, key, k, hc, hcon, ho, hr, hmem, hno.1⟩
        rw [hc]
        cases hx : (build h).claimMark slot key ev.source k with
        | keep => rw [hx] at hk; exact .inl (hm k a hk)
        | hold => rw [hx] at hk; exact hnew (.inl hx) hk
        | contest => rw [hx] at hk; exact hnew (.inr hx) hk
        | setAside holder => rw [hx] at hk; exact .inl (hm k a hk.1)

/-- **The marks are backed in every state of a run if and only if no step misfiles one.** -/
theorem marks_backed_iff (ops : List GraphOp) :
    Always GraphOp.apply MarksBacked .new ops ↔ Along GraphOp.apply (fun h g op => ¬Misfiles h g op) .new ops := by
  constructor
  · exact fun hP => along_of_always (fun h op h₁ h₂ => (marksBacked_apply_iff h₁ op).mp h₂) hP
  · refine fun hC => always_of_along ?_ (fun h op h₁ hC => (marksBacked_apply_iff h₁ op).mpr hC) hC
    rintro k a ⟨n, hn, -⟩
    cases hn

/-! ## The queue -/

/-- A queued endpoint is a local mark. -/
theorem localMark_of_queued {ops : List GraphOp} {interrogated : Finset DeviceKey} {vantage : Text} {index : UInt32}
    {task : InterrogationTarget} (h : task ∈ queueFromGraph (build ops) interrogated vantage index) {ep : Endpoint}
    (hep : ep ∈ task.endpoints) : LocalMark (build ops) task.device ep.address := by
  obtain ⟨id, n, hn, hid, -, -, haddr⟩ := mem_queueFromGraph h
  have hkey : id = .device task.device := (nodesKeyed_build ops id n hn).symm.trans hid
  rw [hkey] at hn
  exact ⟨n, hn, haddr ep hep⟩

/-- A local record of the run names the address. -/
def NamedLocally (ops : List GraphOp) (a : IpAddr) : Prop :=
  ∃ before ev after slot key, ops = before ++ .absorb ev :: after ∧ ev.origin = none ∧
    (build before).claimOf ev = some (slot, key) ∧ slot.address = a

theorem NamedLocally.concat {ops : List GraphOp} {a : IpAddr} (h : NamedLocally ops a) (op : GraphOp) :
    NamedLocally (ops ++ [op]) a := by
  obtain ⟨before, ev, after, slot, key, rfl, hl, hc, ha⟩ := h
  exact ⟨before, ev, after ++ [op], slot, key, by simp, hl, hc, ha⟩

/-- A local mark is always of an address that a local record names, whatever device it is on. -/
theorem namedLocally_of_localMark (ops : List GraphOp) : ∀ k a, LocalMark (build ops) k a → NamedLocally ops a := by
  refine run_induction (P := fun h g => ∀ k a, LocalMark g k a → NamedLocally h a) GraphOp.apply ?_ ?_ ops
  · rintro k a ⟨n, hn, -⟩
    cases hn
  · intro h op ih k a hk
    have hmerge : LocalMark (run GraphOp.apply .new h).mergeAddressIdentities.1 k a → NamedLocally (h ++ [op]) a := by
      intro hm
      obtain ⟨j, -, hj⟩ := localMark_merge.mp hm
      exact (ih j a hj).concat op
    cases op with
    | merge => exact hmerge hk
    | finalize => exact hmerge ((localMark_rekind _).mp ((localMark_rekind _).mp hk))
    | absorb ev =>
      change LocalMark ((build h).absorb ev) k a at hk
      cases hc : (build h).claimOf ev with
      | none => exact (ih k a ((localMark_absorb_of_none hc).mp hk)).concat _
      | some sk =>
        obtain ⟨slot, key⟩ := sk
        rw [localMark_absorb_of_some hc] at hk
        have hnew : LocalMark (build h) k a ∨ (a = slot.address ∧ ev.origin = none ∧
            (k = key ∨ .device k ∈ (build h).nodes)) → NamedLocally (h ++ [GraphOp.absorb ev]) a := by
          rintro (hold | ⟨rfl, hl, -⟩)
          · exact (ih k a hold).concat _
          · exact ⟨h, ev, [], slot, key, rfl, hl, hc, rfl⟩
        cases hx : (build h).claimMark slot key ev.source k with
        | keep => rw [hx] at hk; exact hnew (.inl hk)
        | hold => rw [hx] at hk; exact hnew hk
        | contest => rw [hx] at hk; exact hnew hk
        | setAside holder => rw [hx] at hk; exact hnew (.inl hk.1)

/-- **Probing isolation.** In a run no step of which misfiles a mark, every endpoint queued in any state is backed by
a local record about the device; and an address known only from a peer is not queued for any device. -/
theorem queue_backed (ops : List GraphOp) (hC : Along GraphOp.apply (fun h g op => ¬Misfiles h g op) .new ops) :
    ∀ before after, ops = before ++ after → ∀ interrogated vantage index,
      ∀ task ∈ queueFromGraph (build before) interrogated vantage index, ∀ ep ∈ task.endpoints,
        Backed before task.device ep.address ∧ NamedLocally before ep.address := by
  intro before after he interrogated vantage index task htask ep hep
  have hmark := localMark_of_queued htask hep
  exact ⟨(marks_backed_iff ops).mpr hC before after he _ _ hmark, namedLocally_of_localMark before _ _ hmark⟩

/-- The answer of one machine makes it a target, at the address it answered for. -/
theorem queue_backed_answer :
    ∃ task ∈ queueFromGraph (build [.absorb (sighting hwA (ip 10 0 0 1) .arpProbe none)]) ∅ "eth0" 2,
      ∃ ep ∈ task.endpoints, task.device = hwA ∧ ep.address = ip 10 0 0 1 ∧
        Backed [.absorb (sighting hwA (ip 10 0 0 1) .arpProbe none)] task.device ep.address := by
  have hqueued : ∃ task ∈ queueFromGraph (build [.absorb (sighting hwA (ip 10 0 0 1) .arpProbe none)]) ∅ "eth0" 2,
      ∃ ep ∈ task.endpoints, task.device = hwA ∧ ep.address = ip 10 0 0 1 := by decide
  obtain ⟨task, htask, ep, hep, hd, ha⟩ := hqueued
  have hrun := queue_backed [.absorb (sighting hwA (ip 10 0 0 1) .arpProbe none)] ?_ _ [] (List.append_nil _).symm
  · exact ⟨task, htask, ep, hep, hd, ha, (hrun ∅ "eth0" 2 task htask ep hep).1⟩
  rw [along_cons]
  refine ⟨?_, along_nil⟩
  rintro ⟨-, slot, key, holder, -, -, ho, -⟩
  cases ho

/-- A machine here answers for an address that a peer's machine answered for, and the peer's machine is also known
here by name: it is queued at an address this machine never saw it at. -/
theorem peer_device_queued :
    ¬∀ (ops : List GraphOp) (interrogated : Finset DeviceKey) (vantage : Text) (index : UInt32),
      ∀ task ∈ queueFromGraph (build ops) interrogated vantage index, ∀ ep ∈ task.endpoints,
        Backed ops task.device ep.address := by
  intro h
  let reported := sighting hwB (ip 8 8 8 8) .arpProbe (some branch)
  let named : TopologyEvidence :=
    { fact := .deviceHostname hwB "printer", source := .mdns, confidence := .advertised, vantage := "eth0" }
  let answered := sighting hwA (ip 8 8 8 8) .arpProbe none
  let ops : List GraphOp := [.absorb reported, .absorb named, .absorb answered]
  have hqueued : ∃ task ∈ queueFromGraph (build ops) ∅ "eth0" 2,
      ∃ ep ∈ task.endpoints, task.device = hwB ∧ ep.address = ip 8 8 8 8 := by decide
  obtain ⟨task, htask, ep, hep, hd, ha⟩ := hqueued
  have hback : Backed ops hwB (ip 8 8 8 8) := by
    have := h ops ∅ "eth0" 2 task htask ep hep
    rwa [hd, ha] at this
  rcases (@backed_absorb [.absorb reported, .absorb named] _ _ _).mp hback with hback | ⟨-, slot, hc, -⟩
  · rcases (@backed_absorb [.absorb reported] _ _ _).mp hback with hback | ⟨-, slot, hc, -⟩
    · rcases (@backed_absorb [] _ _ _).mp hback with hback | ⟨hl, -⟩
      · obtain ⟨before, ev, after, slot, key, he, -⟩ := hback
        simp at he
      · cases hl
    · cases hc
  · have hown : ((build [.absorb reported, .absorb named]).claimOf answered).map Prod.snd = some hwA :=
      by decide
    rw [hc] at hown
    have hne : hwB ≠ hwA := by decide
    exact hne (Option.some.inj hown)

end Idnx
