import Idnx.Output.Clean
import Idnx.Output.Literal
import Idnx.Output.Names
import Mathlib.Tactic.IntervalCases

/-!
# The page and the graph

What the page shows is the graph it was built from, except for two things: a text that holds one of the page's own
placeholders is filled in like the page, and different identities can have one key, as a name runs into the suffix of
its domain. `page_shows_iff`: exactly when neither happens.
-/

namespace Idnx

/-! ## What devices and peers chose -/

/-- The texts of the domain of an identity. -/
def NodeId.domainCopied : NodeId → List Text
  | .interface _ realm | .network _ realm | .vlan _ realm | .service _ _ realm => realm.copied
  | .device _ => []

/-- Of the reachability of a network: why probes failed, and how it was found. -/
def reachabilityShown (report : RunReport) : NodeId → List Text
  | .network net realm =>
    (report.networkReachability.lookup ⟨net, realm⟩).toList.flatMap fun r => r.reasons ++ r.discovery
  | _ => []

/-- The texts that are drawn with a node: those of its identity as they are, the others made safe. -/
def Node.shown (report : RunReport) (n : Node) : List Text :=
  n.id.copied ++ n.id.domainCopied ++
    (n.hostnames.sort.head?.toList ++ n.vendor.toList ++ n.capabilities.sort ++ n.roleSignals.sort ++
      n.descriptions.sort ++ n.opaqueReason.toList ++ reachabilityShown report n.id).map Text.safeText

/-- The texts of a report that are drawn. -/
def RunReport.shown (report : RunReport) : List Text :=
  report.graph.drawn.flatMap (Node.shown report) ++ report.visibility.copied

/-! ## Where a placeholder is -/

/-- The text has no character of a placeholder. -/
def Markless (t : Text) : Prop := ∀ c ∈ t, isMark c = false

instance (t : Text) : Decidable (Markless t) := inferInstanceAs (Decidable (∀ c ∈ t, isMark c = false))

@[simp] theorem markless_append {t u : Text} : Markless (t ++ u) ↔ Markless t ∧ Markless u := List.forall_mem_append

@[simp] theorem markless_cons {c : Char} {t : Text} : Markless (c :: t) ↔ isMark c = false ∧ Markless t :=
  List.forall_mem_cons

@[simp] theorem markless_ofNat (n : Nat) : Markless (Text.ofNat n) := by
  have hchars : ∀ c ∈ addressChars, isMark c = false := by decide
  exact fun c hc => hchars c (forall_mem_ofNat n c hc).1

@[simp] theorem markless_address (a : IpAddr) : Markless a.toText := by
  have hchars : ∀ c ∈ addressChars, isMark c = false := by decide
  exact fun c hc => hchars c (a.forall_mem_toText c hc)

@[simp] theorem markless_net (net : IpNet) : Markless net.toText := by
  have hchars : ∀ c ∈ '/' :: addressChars, isMark c = false := by decide
  exact fun c hc => hchars c (net.forall_mem_toText c hc)

theorem Markless.not_isInfix {name t : Text} (h : Markless t) : ¬placeholder name <:+: t := fun hoccurs =>
  absurd (h '{' (hoccurs.subset List.mem_cons_self)) (by decide)

section Marked

variable {name : Text} (hname : ∀ c ∈ name, isMark c = true)

/-- One of the texts has the placeholder in it. -/
def Marked (name : Text) (ts : List Text) : Prop := ∃ t ∈ ts, placeholder name <:+: t

omit hname

@[simp] theorem marked_nil : ¬Marked name [] := fun ⟨_, h, _⟩ => nomatch h

@[simp] theorem marked_cons {t : Text} {ts : List Text} :
    Marked name (t :: ts) ↔ placeholder name <:+: t ∨ Marked name ts := by
  simp [Marked]

@[simp] theorem marked_append {ts us : List Text} : Marked name (ts ++ us) ↔ Marked name ts ∨ Marked name us := by
  simp [Marked, or_and_right, exists_or]

theorem marked_map {α : Type} {f : α → Text} {l : List α} :
    Marked name (l.map f) ↔ ∃ a ∈ l, placeholder name <:+: f a := by
  simp [Marked]

theorem marked_flatMap {α : Type} {f : α → List Text} {l : List α} :
    Marked name (l.flatMap f) ↔ ∃ a ∈ l, Marked name (f a) := by
  simp only [Marked, List.mem_flatMap]
  constructor
  · rintro ⟨t, ⟨a, ha, ht⟩, hoccurs⟩
    exact ⟨a, ha, t, ht, hoccurs⟩
  · rintro ⟨a, ha, t, ht, hoccurs⟩
    exact ⟨t, ⟨a, ha, ht⟩, hoccurs⟩

variable (name) in
/-- A remark of the program itself. -/
theorem not_marked_ite {p : Prop} [Decidable p] {t : Text} (h : '{' ∉ t) : ¬Marked name (if p then [t] else []) := by
  have hplain : ¬placeholder name <:+: t := not_placeholder_of_brace h
  split_ifs <;> simp [hplain]

include hname

/-- What comes before or after a text without marks in it does not matter. -/
theorem isInfix_append_left {a : Text} (ha : Markless a) {t : Text} :
    placeholder name <:+: a ++ t ↔ placeholder name <:+: t := by
  induction a with
  | nil => rfl
  | cons c a ih =>
    rw [markless_cons] at ha
    have hcut := isInfix_append_cons (a := []) (b := a ++ t) (not_mem_placeholder hname ha.1)
    rw [List.nil_append] at hcut
    rw [List.cons_append, hcut, ih ha.2]
    exact or_iff_right fun h => List.cons_ne_nil _ _ (List.eq_nil_of_infix_nil h)

theorem isInfix_suffix (t : Text) (realm : Realm) :
    placeholder name <:+: t ++ realm.suffix ↔ placeholder name <:+: t ∨ Marked name realm.copied := by
  cases realm with
  | localRealm => simp [Realm.suffix, Realm.copied]
  | peerRealm peer vantage =>
    rw [Realm.suffix, List.cons_append, isInfix_append_cons (not_mem_placeholder hname rfl),
      isInfix_append_cons (not_mem_placeholder hname rfl)]
    simp [Realm.copied]

/-! ### In the drawing of a node -/

theorem isInfix_key {key : DeviceKey} : placeholder name <:+: key.toText ↔ Marked name key.copied := by
  cases key with
  | mac m => simp [DeviceKey.toText, DeviceKey.copied]
  | address a => simp [DeviceKey.toText, DeviceKey.copied, (markless_address a).not_isInfix]
  | scopedAddress a zone =>
    rw [DeviceKey.toText, isInfix_append_cons (not_mem_placeholder hname rfl)]
    simp [DeviceKey.copied, (markless_address a).not_isInfix]

theorem isInfix_nodeKey {id : NodeId} :
    placeholder name <:+: nodeKey id ↔ Marked name (id.copied ++ id.domainCopied) := by
  cases id with
  | interface n realm =>
    rw [nodeKey_interface, isInfix_suffix hname _ realm, isInfix_append_left hname (by decide)]
    simp [NodeId.copied, NodeId.domainCopied]
  | network net realm =>
    rw [nodeKey_network, isInfix_suffix hname _ realm, isInfix_append_left hname (by decide)]
    simp [NodeId.copied, NodeId.domainCopied, (markless_net net).not_isInfix]
  | vlan tag realm =>
    rw [nodeKey_vlan, isInfix_suffix hname _ realm, isInfix_append_left hname (by decide)]
    simp [NodeId.copied, NodeId.domainCopied, (markless_ofNat _).not_isInfix]
  | device key =>
    rw [nodeKey_device, isInfix_append_left hname (by decide), isInfix_key hname]
    simp [NodeId.copied, NodeId.domainCopied]
  | service a port realm =>
    have hplain : Markless (a.toText ++ ':' :: Text.ofNat port.toNat) := by simp [show isMark ':' = false from rfl]
    rw [nodeKey_service, isInfix_suffix hname _ realm, List.append_assoc, isInfix_append_left hname (by decide)]
    simp [NodeId.copied, NodeId.domainCopied, hplain.not_isInfix]

/-- An identity is called by its own texts. -/
theorem isInfix_label {id : NodeId} (h : placeholder name <:+: id.label) : Marked name id.copied := by
  cases id with
  | interface n realm => simpa [NodeId.copied, NodeId.label_interface] using h
  | network net realm => exact absurd h (markless_net net).not_isInfix
  | vlan tag realm =>
    have hbrace : '{' ∉ Text.ofNat tag.toNat := fun hmem => absurd (markless_ofNat _ _ hmem) (by decide)
    refine absurd h (not_placeholder_of_brace ?_)
    simp [NodeId.label_vlan, hbrace]
  | device key => exact (isInfix_key hname).mp h
  | service a port realm =>
    refine absurd h (Markless.not_isInfix ?_)
    simp [NodeId.label_service, show isMark ':' = false from rfl]

/-- A node is called by the first of its hostnames, or else by nothing it has chosen but its identity. -/
theorem isInfix_displayName (n : Node) :
    placeholder name <:+: n.displayName ∨ Marked name n.id.copied ↔
      Marked name (n.hostnames.sort.head?.toList.map Text.safeText) ∨ Marked name n.id.copied := by
  unfold Node.displayName
  cases n.hostnames.sort.head? with
  | some hostname => simp
  | none =>
    cases n.addresses.sort.head? with
    | some a => simp [(markless_address a).not_isInfix]
    | none => simpa using isInfix_label hname

theorem marked_safeText {l : List Text} {lead : Text} (hlead : Markless lead) :
    Marked name (l.map fun t => lead ++ t.safeText) ↔ Marked name (l.map Text.safeText) := by
  simp only [marked_map, isInfix_append_left hname hlead]

/-- The short form of a domain says nothing that its suffix does not say. -/
theorem marked_observedIn {realm : Realm} (h : Marked name (observedIn realm)) : Marked name realm.copied := by
  cases realm with
  | localRealm => simp [observedIn, Realm.isLocal] at h
  | peerRealm peer vantage =>
    have hlabel : observedIn (.peerRealm peer vantage) =
        [("observed in " : Text) ++ (("peer " : Text) ++ peer.take 16 ++ (" via " : Text) ++ vantage)] := rfl
    rw [hlabel, marked_cons, or_iff_left marked_nil] at h
    rw [isInfix_append_left hname (by decide), List.append_assoc, List.append_assoc,
      isInfix_append_left hname (by decide), show (" via " : Text) ++
      vantage = ' ' :: (("via " : Text) ++ vantage) from rfl, isInfix_append_cons (not_mem_placeholder hname rfl),
      isInfix_append_left hname (by decide)] at h
    simp only [Realm.copied, marked_cons, marked_nil, or_false]
    exact h.imp_left fun h => h.trans (List.take_prefix 16 peer).isInfix

theorem marked_reachability (r : NetworkReachability) :
    Marked name (reachabilityDetail r) ↔ Marked name ((r.reasons ++ r.discovery).map Text.safeText) := by
  have hstate : Markless (("reachability: " : Text) ++ r.state.wire.safeText) := by
    cases r.state <;> decide
  have hcoverage : Markless (("coverage: " : Text) ++ Text.ofNat r.attempted ++ (" address(es) probed, " : Text) ++
      Text.ofNat r.responders.length ++ (" responder(s), " : Text) ++ Text.ofNat r.notSent ++
      (" probe(s) not sent" : Text)) := by
    simp only [markless_append, markless_ofNat, and_true]
    decide
  have hanswered : ¬Marked name (r.responders.map fun a => ("answered: " : Text) ++ a.toText) := by
    rw [marked_map]
    rintro ⟨a, -, h⟩
    exact (markless_address a).not_isInfix ((isInfix_append_left hname (by decide)).mp h)
  rw [reachabilityDetail, marked_append, marked_append, marked_append, marked_safeText hname (by decide),
    marked_safeText hname (by decide), List.map_append, marked_append]
  simp only [marked_cons, marked_nil, hstate.not_isInfix, hcoverage.not_isInfix, hanswered, false_or, or_false]

/-- What is said of an identity is how a network was reached, and its domain. -/
theorem marked_identityDetail (report : RunReport) (id : NodeId) :
    Marked name (identityDetail report id) ∨ Marked name id.domainCopied ↔
      Marked name ((reachabilityShown report id).map Text.safeText) ∨ Marked name id.domainCopied := by
  have hdomain : ∀ realm, Marked name (observedIn realm) ∨ Marked name realm.copied ↔
    Marked name realm.copied := fun realm =>
    or_iff_right_of_imp (marked_observedIn hname)
  cases id with
  | network net realm =>
    have hvirtual := not_marked_ite name
      (p := isVirtualNetwork (report.graph.interfacesForNetwork ⟨net, realm⟩) = true)
      (t := "virtual / VPN network".toList) (by decide)
    have hlarge := not_marked_ite name (p := net ∈ report.oversizedScopes)
      (t := "too large to enumerate address by address".toList) (by decide)
    have hreached : Marked name ((report.networkReachability.lookup ⟨net, realm⟩).toList.flatMap reachabilityDetail) ↔
        Marked name ((reachabilityShown report (.network net realm)).map Text.safeText) := by
      rw [reachabilityShown, List.map_flatMap, marked_flatMap, marked_flatMap]
      simp only [marked_reachability hname]
    rw [identityDetail, networkDetail, marked_append, marked_append, marked_append, NodeId.domainCopied, or_assoc,
      hdomain, hreached]
    simp only [hvirtual, hlarge, false_or]
  | interface n realm => simpa [identityDetail, reachabilityShown, NodeId.domainCopied] using marked_observedIn hname
  | vlan tag realm => simpa [identityDetail, reachabilityShown, NodeId.domainCopied] using marked_observedIn hname
  | service a port realm =>
    simpa [identityDetail, reachabilityShown, NodeId.domainCopied] using marked_observedIn hname
  | device key => simp [identityDetail, reachabilityShown]

theorem marked_nodeDetail (report : RunReport) (n : Node) :
    Marked name (nodeDetail report n) ↔ Marked name ((n.vendor.toList ++ n.capabilities.sort ++ n.roleSignals.sort ++
      n.descriptions.sort ++ n.opaqueReason.toList).map Text.safeText) ∨
      Marked name (identityDetail report n.id) := by
  have haddresses : ¬Marked name (n.addresses.sort.map IpAddr.toText) := by
    rw [marked_map]
    exact fun ⟨a, _, h⟩ => (markless_address a).not_isInfix h
  simp only [nodeDetail, List.map_append, marked_append, haddresses, or_false]
  rw [marked_safeText hname (by decide), marked_safeText hname (by decide), marked_safeText hname (by decide),
    marked_safeText hname (by decide)]

omit hname

theorem brace_not_mem_label :
    (∀ kind : NodeKind, '{' ∉ kind.label ∧ '{' ∉ colourFor kind) ∧ (∀ c : Confidence, '{' ∉ c.label) ∧
      (∀ source : EvidenceSource, '{' ∉ source.label) ∧ (∀ r : Relationship, '{' ∉ r.label) ∧
      ∀ kind : VantageKind, '{' ∉ kind.label := by
  refine ⟨fun kind => ?_, fun c => ?_, fun source => ?_, fun r => ?_, fun kind => ?_⟩
  · cases kind <;> decide
  · cases c <;> decide
  · cases source <;> decide
  · cases r <;> decide
  · cases kind <;> decide

theorem not_marked_nodeEvidence (n : Node) : ¬Marked name (nodeEvidence n) := by
  obtain ⟨-, hconfidence, hsource, -, -⟩ := brace_not_mem_label
  rintro ⟨t, ht, hoccurs⟩
  rw [nodeEvidence, mem_destutter_ne, List.mem_insertionSort, List.mem_map] at ht
  obtain ⟨p, -, rfl⟩ := ht
  refine not_placeholder_of_brace ?_ hoccurs
  simp [hconfidence, hsource]

theorem strings_texts (ts : List Text) : (Json.texts ts).strings = ts := by
  rw [Json.texts, Json.strings]
  induction ts with
  | nil => rfl
  | cons t ts ih => rw [List.map_cons, Json.itemStrings, Json.strings, ih, List.singleton_append]

theorem itemStrings_map {α : Type} (f : α → Json) (l : List α) :
    Json.itemStrings (l.map f) = l.flatMap fun a => (f a).strings := by
  induction l with
  | nil => rfl
  | cons a l ih => rw [List.map_cons, Json.itemStrings, ih, List.flatMap_cons]

include hname

omit hname in
/-- Two parts may be exchanged beside what they add nothing to. -/
theorem or_congr_beside {a b c d e c' d' : Prop} (hc : c ∨ a ↔ c' ∨ a) (hd : d ∨ b ↔ d' ∨ b) :
    (a ∨ b) ∨ c ∨ e ∨ d ↔ (a ∨ b) ∨ c' ∨ e ∨ d' := by
  grind

omit hname in
theorem marked_graphNode_fields (report : RunReport) (n : Node) :
    Marked name (graphNode report n).toJson.strings ↔
      placeholder name <:+: nodeKey n.id ∨ placeholder name <:+: n.displayName ∨
      Marked name (nodeDetail report n) := by
  obtain ⟨hkind, hconfidence, -⟩ := brace_not_mem_label
  have hnames : ∀ k ∈ (["id", "label", "kind", "confidence", "detail", "evidence", "color", "radius"] : List String),
      ¬placeholder name <:+: k.toList := fun k hk => not_placeholder_of_brace (by revert k; decide)
  simp only [List.forall_mem_cons] at hnames
  obtain ⟨h₁, h₂, h₃, h₄, h₅, h₆, h₇, h₈, -⟩ := hnames
  simp only [GraphNode.toJson, graphNode, Json.strings, Json.memberStrings, strings_texts, marked_cons, marked_append,
    marked_nil, h₁, h₂, h₃, h₄, h₅, h₆, h₇, h₈, not_marked_nodeEvidence, not_placeholder_of_brace (hkind n.kind).1,
    not_placeholder_of_brace (hkind n.kind).2, not_placeholder_of_brace (hconfidence n.confidence), false_or,
    or_false]

/-- The drawing of a node has the placeholder in it exactly if one of its texts has. -/
theorem marked_graphNode (report : RunReport) (n : Node) :
    Marked name (graphNode report n).toJson.strings ↔ Marked name (n.shown report) := by
  have hcalled := isInfix_displayName hname n
  have hidentity := marked_identityDetail hname report n.id
  have hshown : Marked name (n.shown report) ↔ (Marked name n.id.copied ∨ Marked name n.id.domainCopied) ∨
      Marked name (n.hostnames.sort.head?.toList.map Text.safeText) ∨
      Marked name ((n.vendor.toList ++ n.capabilities.sort ++ n.roleSignals.sort ++ n.descriptions.sort ++
        n.opaqueReason.toList).map Text.safeText) ∨ Marked name
        ((reachabilityShown report n.id).map Text.safeText) := by
    simp only [Node.shown, List.map_append, marked_append, or_assoc]
  rw [marked_graphNode_fields, isInfix_nodeKey hname, marked_nodeDetail hname, hshown, marked_append]
  exact or_congr_beside hcalled hidentity

omit hname in
theorem marked_graphLink {e : Edge} (h : Marked name (graphLink e).toJson.strings) :
    placeholder name <:+: nodeKey e.source ∨ placeholder name <:+: nodeKey e.target := by
  obtain ⟨-, hconfidence, -, hrelationship, -⟩ := brace_not_mem_label
  have hnames : ∀ k ∈ (["source", "target", "label", "confidence"] : List String), ¬placeholder name <:+: k.toList :=
    fun k hk => not_placeholder_of_brace (by revert k; decide)
  simp only [List.forall_mem_cons] at hnames
  obtain ⟨h₁, h₂, h₃, h₄, -⟩ := hnames
  simpa only [GraphLink.toJson, graphLink, Json.strings, Json.memberStrings, marked_cons, marked_append, marked_nil,
    h₁, h₂, h₃, h₄, not_placeholder_of_brace (hrelationship e.relationship),
    not_placeholder_of_brace (hconfidence e.confidence), false_or, or_false] using h

omit hname in
/-- A link adds nothing: its ends are keys of nodes that are drawn. -/
theorem marked_links {report : RunReport}
    (h : Marked name ((buildData report).links.flatMap fun l => l.toJson.strings)) :
    ∃ n ∈ report.graph.drawn, placeholder name <:+: nodeKey n.id := by
  obtain ⟨l, hl, hmarked⟩ := marked_flatMap.mp h
  obtain ⟨e, -, he⟩ := List.mem_filterMap.mp hl
  split_ifs at he with hknown
  cases he
  simp only [List.map_map, List.mem_map, Function.comp_apply] at hknown
  obtain ⟨⟨n, hn, hsource⟩, m, hm, htarget⟩ := hknown
  rcases marked_graphLink hmarked with h | h
  · rw [← hsource] at h
    exact ⟨n, hn, h⟩
  · rw [← htarget] at h
    exact ⟨m, hm, h⟩

/-- **What is drawn has the placeholder in it exactly if one of the texts that are drawn has.** -/
theorem marked_buildData (report : RunReport) :
    Marked name (buildData report).toJson.strings ↔ Marked name report.shown := by
  obtain ⟨-, -, -, -, hvantage⟩ := brace_not_mem_label
  have hnames : ∀ k ∈ (["nodes", "links", "vantage", "blind_to", "unavailable"] : List String),
      ¬placeholder name <:+: k.toList := fun k hk => not_placeholder_of_brace (by revert k; decide)
  simp only [List.forall_mem_cons] at hnames
  obtain ⟨h₁, h₂, h₃, h₄, h₅, -⟩ := hnames
  have hinterface : placeholder name <:+: (buildData report).vantage ↔
    placeholder name <:+: report.visibility.interface := by
    have hplain : '{' ∉ '(' :: (report.visibility.kind.label ++ [')']) := by simp [hvantage]
    have hvantage : (buildData report).vantage =
        report.visibility.interface ++ ' ' :: '(' :: (report.visibility.kind.label ++ [')']) := by
      simp [buildData]
    rw [hvantage, isInfix_append_cons (not_mem_placeholder hname rfl)]
    exact or_iff_left (not_placeholder_of_brace hplain)
  have hnodes : Marked name ((buildData report).nodes.flatMap fun n => n.toJson.strings) ↔
      Marked name (report.graph.drawn.flatMap (Node.shown report)) := by
    rw [buildData, List.flatMap_map, marked_flatMap, marked_flatMap]
    simp only [marked_graphNode hname]
  have hlinks : Marked name ((buildData report).links.flatMap fun l => l.toJson.strings) →
      Marked name (report.graph.drawn.flatMap (Node.shown report)) := by
    intro h
    obtain ⟨n, hn, hkey⟩ := marked_links h
    rw [marked_flatMap]
    exact ⟨n, hn, (marked_graphNode hname report n).mp (marked_graphNode_fields report n |>.mpr (.inl hkey))⟩
  have hfields : Marked name (buildData report).toJson.strings ↔
      (Marked name ((buildData report).nodes.flatMap fun n => n.toJson.strings) ∨
        Marked name ((buildData report).links.flatMap fun l => l.toJson.strings)) ∨
      placeholder name <:+: (buildData report).vantage ∨ Marked name (buildData report).blindTo ∨
        Marked name (buildData report).unavailable := by
    simp only [GraphData.toJson, Json.strings, Json.memberStrings, strings_texts, itemStrings_map, marked_cons,
      marked_append, marked_nil, h₁, h₂, h₃, h₄, h₅, false_or, or_false, or_assoc]
  rw [hfields, hnodes, or_iff_left_of_imp hlinks, hinterface, RunReport.shown, VisibilityReport.copied, marked_append,
    marked_cons, marked_append]
  rfl

end Marked

/-! ## Which identities share a key -/

/-- Two identities are drawn under one key: the name of an interface with the suffix of its domain reads the same, a
network or a VLAN is the same in domains of one suffix, the texts of two devices are the same. -/
def SameKey : NodeId → NodeId → Prop
  | .interface n r, .interface n' r' => n ++ r.suffix = n' ++ r'.suffix
  | .network net r, .network net' r' => net = net' ∧ r.suffix = r'.suffix
  | .vlan tag r, .vlan tag' r' => tag = tag' ∧ r.suffix = r'.suffix
  | .device k, .device k' => k.toText = k'.toText
  | .service a port r, .service a' port' r' => (a = a' ∧ port = port') ∧ r.suffix = r'.suffix
  | _, _ => False

/-- Where the text before it holds no `@`, the suffix of a domain can be taken off again. -/
theorem append_suffix_inj {a b : Text} (ha : '@' ∉ a) (hb : '@' ∉ b) {r r' : Realm} :
    a ++ r.suffix = b ++ r'.suffix ↔ a = b ∧ r.suffix = r'.suffix := by
  constructor
  · intro h
    cases r with
    | localRealm =>
      cases r' with
      | localRealm => simpa [Realm.suffix] using h
      | peerRealm peer vantage =>
        rw [Realm.suffix, List.append_nil] at h
        exact absurd (h ▸ List.mem_append_right b List.mem_cons_self) ha
    | peerRealm peer vantage =>
      cases r' with
      | localRealm =>
        rw [show (Realm.localRealm).suffix = [] from rfl, List.append_nil] at h
        exact absurd (h ▸ List.mem_append_right a List.mem_cons_self) hb
      | peerRealm peer' vantage' =>
        have hcut := congrArg (Text.splitOnce '@') h
        rw [Realm.suffix, List.cons_append, Realm.suffix, List.cons_append, Text.splitOnce_append ha,
          Text.splitOnce_append hb, Option.some.injEq, Prod.mk.injEq] at hcut
        rw [Realm.suffix, Realm.suffix, List.cons_append, List.cons_append, hcut.2]
        exact ⟨hcut.1, rfl⟩
  · rintro ⟨rfl, hsuffix⟩
    rw [hsuffix]

theorem nodeKey_eq_iff {a b : NodeId} : nodeKey a = nodeKey b ↔ SameKey a b := by
  have hnumber : ∀ n, '@' ∉ Text.ofNat n := fun n h => absurd (forall_mem_ofNat n _ h).1 (by decide)
  cases a <;> cases b
  case interface.interface n r n' r' =>
    rw [nodeKey_interface, nodeKey_interface, List.append_assoc, List.append_assoc, List.append_cancel_left_eq]
    rfl
  case network.network net r net' r' =>
    have hat : ∀ net : IpNet, '@' ∉ net.toText := fun net h => absurd (net.forall_mem_toText _ h) (by decide)
    rw [nodeKey_network, nodeKey_network, List.append_assoc, List.append_assoc, List.append_cancel_left_eq,
      append_suffix_inj (hat _) (hat _)]
    exact and_congr_left fun _ => ⟨IpNet.toText_inj, congrArg _⟩
  case vlan.vlan tag r tag' r' =>
    rw [nodeKey_vlan, nodeKey_vlan, List.append_assoc, List.append_assoc, List.append_cancel_left_eq,
      append_suffix_inj (hnumber _) (hnumber _)]
    exact and_congr_left fun _ => ⟨fun h => UInt16.toNat_inj.mp (Text.ofNat_inj h), fun h => by rw [h]⟩
  case device.device k k' =>
    rw [nodeKey_device, nodeKey_device, List.append_cancel_left_eq]
    rfl
  case service.service a port r a' port' r' =>
    have hat : ∀ (a : IpAddr) (port : UInt16), '@' ∉ (NodeId.service a port r).label := fun a port h =>
      absurd (forall_mem_service_label a port r _ h) (by decide)
    have hkey : ∀ (a : IpAddr) (port : UInt16) (s : Realm), nodeKey (.service a port s) =
        ("svc:" : Text) ++ ((NodeId.service a port r).label ++ s.suffix) := by
      intro a port s
      simp only [nodeKey_service, NodeId.label_service, List.append_assoc]
    rw [hkey, hkey, List.append_cancel_left_eq, append_suffix_inj (hat _ _) (hat _ _)]
    refine and_congr_left fun _ => ⟨service_label_inj, ?_⟩
    rintro ⟨rfl, rfl⟩
    rfl
  -- keys of different families begin with different letters
  all_goals
    simp [nodeKey_interface, nodeKey_network, nodeKey_vlan, nodeKey_device, nodeKey_service, SameKey]

/-! ## The page shows the graph -/

/-- The identity is a node, and not a service. -/
def TopologyGraph.IsDrawn (g : TopologyGraph) (id : NodeId) : Prop := ∃ n ∈ g.nodes.lookup id, n.kind ≠ .service

instance (g : TopologyGraph) (id : NodeId) : Decidable (g.IsDrawn id) :=
  inferInstanceAs (Decidable (∃ n ∈ g.nodes.lookup id, n.kind ≠ .service))

/-- The page is inert where the data stands, the data is read as what was drawn, and what was drawn are the nodes that
are no services, each once and under a key of its own, with the edges between them. -/
structure ShowsGraph (W : StringWriter) (T : PageTemplate) (report : RunReport) : Prop where
  literal : ∃ text, topologyHtml W T report =
      T.opening packageVersion (summaryLine report.graph) ++ (text ++ ';' :: T.tail) ∧
    (∀ c ∈ text, c ∉ markupChars) ∧ Json.parse text = some (buildData report).toJson
  nodes : List.Forall₂ (fun n node => node = graphNode report n) (report.graph.nodeList.filter (·.kind ≠ .service))
    (buildData report).nodes
  ids : ((buildData report).nodes.map (·.id)).Nodup
  links : (buildData report).links = (report.graph.edgeList.filter fun e =>
    report.graph.IsDrawn e.source ∧ report.graph.IsDrawn e.target).map graphLink

/-- No two nodes that are drawn share a key, and no edge that is left out has the keys of nodes that are drawn. -/
structure KeysApart (g : TopologyGraph) : Prop where
  nodes : ∀ a b, g.IsDrawn a → g.IsDrawn b → SameKey a b → a = b
  ends : ∀ e ∈ g.edgeList, (∃ a, g.IsDrawn a ∧ SameKey a e.source) → (∃ b, g.IsDrawn b ∧ SameKey b e.target) →
    g.IsDrawn e.source ∧ g.IsDrawn e.target

section Keys

variable {report : RunReport} (hsorted : Sorted report.graph)

include hsorted

theorem mem_map_drawn {id : NodeId} : id ∈ report.graph.drawn.map (·.id) ↔ report.graph.IsDrawn id := by
  simp only [TopologyGraph.drawn, List.mem_map, List.mem_filter, TopologyGraph.mem_nodeList, decide_eq_true_eq]
  constructor
  · rintro ⟨n, ⟨⟨j, hn⟩, hkind⟩, rfl⟩
    rw [hsorted.keyed j n hn]
    exact ⟨n, hn, hkind⟩
  · rintro ⟨n, hn, hkind⟩
    exact ⟨n, ⟨⟨id, hn⟩, hkind⟩, hsorted.keyed id n hn⟩

omit hsorted in
theorem map_id_buildData : (buildData report).nodes.map (·.id) = (report.graph.drawn.map (·.id)).map nodeKey := by
  simp only [buildData, List.map_map]
  rfl

theorem ids_nodup_iff : ((buildData report).nodes.map (·.id)).Nodup ↔
    ∀ a b, report.graph.IsDrawn a → report.graph.IsDrawn b → SameKey a b → a = b := by
  have hids : (report.graph.drawn.map (·.id)).Nodup :=
    (TopologyGraph.nodup_map_id_nodeList hsorted).sublist (List.Sublist.map _ List.filter_sublist)
  rw [map_id_buildData, List.nodup_map_iff_inj_on hids]
  simp only [mem_map_drawn hsorted, nodeKey_eq_iff]
  exact ⟨fun h a b ha hb => h a ha b hb, fun h a ha b hb => h a b ha hb⟩

theorem nodeKey_mem_iff {id : NodeId} : nodeKey id ∈ (buildData report).nodes.map (·.id) ↔
    ∃ a, report.graph.IsDrawn a ∧ SameKey a id := by
  rw [map_id_buildData, List.mem_map]
  simp only [mem_map_drawn hsorted, nodeKey_eq_iff]

omit hsorted in
/-- What is selected by a weaker condition is the same if nothing else meets it. -/
theorem map_filter_eq_iff {α β : Type} {f : α → β} {p q : α → Bool} {l : List α}
    (h : ∀ a ∈ l, q a = true → p a = true) :
    (l.filter p).map f = (l.filter q).map f ↔ ∀ a ∈ l, p a = true → q a = true := by
  have hsub : l.filter q = (l.filter p).filter q := by
    rw [List.filter_filter]
    refine List.filter_congr fun a ha => ?_
    cases hq : q a with
    | false => rfl
    | true => rw [h a ha hq, Bool.true_and]
  constructor
  · intro heq a ha hp
    have hlength := congrArg List.length heq
    rw [List.length_map, List.length_map, hsub] at hlength
    have hall := List.filter_sublist.eq_of_length hlength.symm
    have hmem : a ∈ (l.filter p).filter q := by
      rw [hall]
      exact List.mem_filter.mpr ⟨ha, hp⟩
    exact (List.mem_filter.mp hmem).2
  · intro hall
    rw [List.filter_congr fun a ha => Bool.eq_iff_iff.mpr ⟨hall a ha, h a ha⟩]

theorem links_iff : (buildData report).links = (report.graph.edgeList.filter fun e =>
      report.graph.IsDrawn e.source ∧ report.graph.IsDrawn e.target).map graphLink ↔
    ∀ e ∈ report.graph.edgeList, (∃ a, report.graph.IsDrawn a ∧ SameKey a e.source) →
      (∃ b, report.graph.IsDrawn b ∧ SameKey b e.target) → report.graph.IsDrawn e.source ∧
      report.graph.IsDrawn e.target := by
  have hself : ∀ id : NodeId, SameKey id id := fun id => nodeKey_eq_iff.mp rfl
  have hlinks : (buildData report).links = (report.graph.edgeList.filter fun e =>
      nodeKey e.source ∈ (buildData report).nodes.map (·.id) ∧
      nodeKey e.target ∈ (buildData report).nodes.map (·.id)).map
        graphLink := by
    have hfilter : ∀ (l : List Edge) (p : Edge → Prop) [DecidablePred p],
        l.filterMap (fun e => if p e then some (graphLink e) else none) = (l.filter fun e => p e).map graphLink := by
      intro l p _
      induction l with
      | nil => rfl
      | cons e l ih => by_cases h : p e <;> simp [h, ih]
    exact hfilter _ _
  rw [hlinks, map_filter_eq_iff]
  · simp only [decide_eq_true_eq, nodeKey_mem_iff hsorted, and_imp]
  · intro e _ hdrawn
    rw [decide_eq_true_eq] at hdrawn ⊢
    rw [nodeKey_mem_iff hsorted, nodeKey_mem_iff hsorted]
    exact ⟨⟨_, hdrawn.1, hself _⟩, ⟨_, hdrawn.2, hself _⟩⟩

end Keys

/-- **The page shows the graph it was built from exactly if no text that is drawn has the placeholder of the summary
or of the version in it, and no two identities run into one key.** -/
theorem page_shows_iff (W : StringWriter) (T : PageTemplate) (ops : List GraphOp) (report : RunReport)
    (hgraph : report.graph = build ops) :
    ShowsGraph W T report ↔
      (∀ t ∈ report.shown, ¬placeholder "SUMMARY" <:+: t ∧ ¬placeholder "VERSION" <:+: t) ∧
      KeysApart report.graph := by
  have hsorted : Sorted report.graph := hgraph ▸ sorted_build ops
  have hquiet : (∀ s ∈ (buildData report).toJson.strings, ¬placeholder "SUMMARY" <:+: s ∧
      ¬placeholder "VERSION" <:+: s) ↔ ∀ t ∈ report.shown, ¬placeholder "SUMMARY" <:+: t ∧
      ¬placeholder "VERSION" <:+: t := by
    have hnone : ∀ ts, (∀ t ∈ ts, ¬placeholder "SUMMARY" <:+: t ∧ ¬placeholder "VERSION" <:+: t) ↔
        ¬Marked "SUMMARY" ts ∧ ¬Marked "VERSION" ts := fun ts => by simp [Marked, forall_and]
    rw [hnone, hnone, marked_buildData isMark_summary, marked_buildData isMark_version]
  constructor
  · rintro ⟨⟨text, hpage, hsafe⟩, -, hids, hlinks⟩
    rw [topologyHtml_eq] at hpage
    obtain rfl : dataLiteral W report = text := List.append_cancel_right (List.append_cancel_left hpage)
    exact ⟨hquiet.mp ((literal_iff W report).mp hsafe), (ids_nodup_iff hsorted).mp hids,
      (links_iff hsorted).mp hlinks⟩
  · rintro ⟨hshown, hnodes, hends⟩
    refine ⟨⟨dataLiteral W report, topologyHtml_eq W T report, ?_⟩, ?_, ?_, ?_⟩
    · exact (literal_iff W report).mpr (hquiet.mpr hshown)
    · simp only [buildData, TopologyGraph.drawn, List.forall₂_map_right_iff]
      exact List.forall₂_same.mpr fun _ _ => rfl
    · exact (ids_nodup_iff hsorted).mpr hnodes
    · exact (links_iff hsorted).mpr hends

/-! ### An ordinary report, and two that are not shown -/

/-- The escapes of `serde_json`: the short ones where there is one, and lower-case hexadecimal for other control
characters. -/
def serdeCode (c : Char) : Text :=
  if c = '"' then ['\\', '"']
  else if c = '\\' then ['\\', '\\']
  else if c = '\x08' then ['\\', 'b']
  else if c = '\t' then ['\\', 't']
  else if c = '\n' then ['\\', 'n']
  else if c = '\x0c' then ['\\', 'f']
  else if c = '\r' then ['\\', 'r']
  else if c.toNat < 32 then ['\\', 'u', '0', '0', Nat.digitChar (c.toNat / 16), Nat.digitChar (c.toNat % 16)]
  else [c]

theorem serdeCode_plain (c : Char) (hquote : c ≠ '"') (hbackslash : c ≠ '\\') (hcontrol : 32 ≤ c.toNat) :
    serdeCode c = [c] := by
  have hne : ∀ d : Char, d.toNat < 32 → c ≠ d := by
    rintro d hd rfl
    omega
  simp [serdeCode, hquote, hbackslash, hne '\x08' (by decide), hne '\t' (by decide), hne '\n' (by decide),
    hne '\x0c' (by decide), hne '\r' (by decide), Nat.not_lt.mpr hcontrol]

/-- What holds of the quote, the backslash and the control characters. -/
theorem escaped_induction {P : Char → Prop} (quote : P '"') (backslash : P '\\')
    (control : ∀ n < 32, P (Char.ofNat n))
    (c : Char) (h : ¬(c ≠ '"' ∧ c ≠ '\\' ∧ 32 ≤ c.toNat)) : P c := by
  by_cases hquote : c = '"'
  · exact hquote ▸ quote
  by_cases hbackslash : c = '\\'
  · exact hbackslash ▸ backslash
  have hcontrol : c.toNat < 32 := by
    by_contra hle
    exact h ⟨hquote, hbackslash, Nat.not_lt.mp hle⟩
  have hc := control c.toNat hcontrol
  rwa [Char.ofNat_toNat] at hc

def serdeJson : StringWriter where
  code := serdeCode
  codes c rest := by
    by_cases hplain : c ≠ '"' ∧ c ≠ '\\' ∧ 32 ≤ c.toNat
    · rw [serdeCode_plain c hplain.1 hplain.2.1 hplain.2.2, List.singleton_append]
      simp [Json.unescape, hplain.1, hplain.2.1, hplain.2.2]
    · revert rest
      refine escaped_induction (P := fun c => ∀ rest, Json.unescape (serdeCode c ++ rest) = some (c, rest))
        (fun _ => rfl)
        (fun _ => rfl) (fun n hn rest => ?_) c hplain
      interval_cases n <;> rfl
  plain := serdeCode_plain
  escaped c h := by
    refine escaped_induction (P := fun c => ∀ d ∈ serdeCode c, d ∈ escapeChars) (by decide) (by decide)
      (fun n hn => ?_) c h
    interval_cases n <;> decide

/-- No placeholder stands in the rest of the page. -/
theorem excerpt_plain : ∀ part ∈ ["<span class=\"meta\">".toList, "/span>\n  <span class=\"meta\"".toList,
    "/span>\n</header>\n<script>\nconst DATA =".toList, "\n</script>".toList], ¬['{', '{'] <:+: part := by
  decide

/-- The lines of the page that have placeholders in them. -/
def excerpt : PageTemplate := ⟨_, _, _, _, excerpt_plain⟩

/-- An interface and its network are shown. -/
theorem page_shows_iff_one_site : ShowsGraph serdeJson excerpt (reportOf (build [attachment none])) := by
  have hdrawn : ∀ n ∈ (build [attachment none]).drawn, (n.hostnames = ∅ ∧ n.vendor = none ∧ n.capabilities = ∅ ∧
      n.roleSignals = ∅ ∧ n.descriptions = ∅ ∧ n.opaqueReason = none) ∧
      (n.id = .interface "eth0" .localRealm ∨ n.id = .network (.v4 (.new 10 0 0 0) 24) .localRealm) :=
      by decide
  have hid : ∀ id, (build [attachment none]).IsDrawn id →
      id = .interface "eth0" .localRealm ∨ id = .network (.v4 (.new 10 0 0 0) 24) .localRealm := by
    intro id h
    obtain ⟨n, hn, rfl⟩ := List.mem_map.mp ((@mem_map_drawn (reportOf (build [attachment none]))
      (sorted_build _) id).mpr h)
    exact (hdrawn n hn).2
  refine (page_shows_iff _ _ [attachment none] _ rfl).mpr ⟨?_, ?_, ?_⟩
  · have hshown : ∀ t ∈ (reportOf (build [attachment none])).shown, t = "eth0".toList := by
      intro t ht
      rcases List.mem_append.mp ht with ht | ht
      · obtain ⟨n, hn, ht⟩ := List.mem_flatMap.mp ht
        obtain ⟨⟨h₁, h₂, h₃, h₄, h₅, h₆⟩, hid⟩ := hdrawn n hn
        rcases hid with hid | hid
        · simpa [Node.shown, h₁, h₂, h₃, h₄, h₅, h₆, hid, NodeId.copied, NodeId.domainCopied, Realm.copied,
            reachabilityShown] using ht
        · simp [Node.shown, h₁, h₂, h₃, h₄, h₅, h₆, hid, NodeId.copied, NodeId.domainCopied, Realm.copied,
            reachabilityShown, reportOf] at ht
      · simpa [reportOf, VisibilityReport.copied] using ht
    intro t ht
    rw [hshown t ht]
    decide
  · intro a b ha hb hsame
    rcases hid a ha with rfl | rfl <;> rcases hid b hb with rfl | rfl
    · rfl
    · exact absurd hsame id
    · exact absurd hsame id
    · rfl
  · have hends : ∀ e ∈ (build [attachment none]).edgeList,
        (build [attachment none]).IsDrawn e.source ∧ (build [attachment none]).IsDrawn e.target := by decide
    exact fun e he _ _ => hends e he

theorem safeText_mem_shown {n : Node} {name : Text} (h : n.hostnames = {name}) (report : RunReport) :
    name.safeText ∈ n.shown report := by
  simp [Node.shown, h]

/-- A device that calls itself like a placeholder of the page. -/
def summaryHost : List GraphOp :=
  [.absorb { fact := .deviceHostname (.mac "00:11:22:33:44:55") (placeholder "SUMMARY"), source := .mdns,
             confidence := .advertised, vantage := "eth0", observedAt := 0 }]

/-- Two interfaces of one peer, seen from two vantages: the name of the one runs on like the vantage of the other. -/
def runningNames : List GraphOp :=
  let attached (name vantage : Text) : GraphOp :=
    .absorb { fact := .interfaceNetwork name (.v4 (.new 10 0 0 0) 24), source := .interfaceAddress, confidence := .observed,
              vantage := vantage, observedAt := 0, origin := some ⟨"0a", vantage, 1, 0⟩ }
  [attached "eth0@0a/a" "b", attached "eth0" "a@0a/b"]

/-- The summary is put into the data in the place of the device's name, and the two interfaces are drawn under one
key. -/
theorem placeholder_filled_in_data :
    ¬ShowsGraph serdeJson excerpt (reportOf (build summaryHost)) ∧
      ¬ShowsGraph serdeJson excerpt (reportOf (build runningNames)) := by
  constructor
  · intro h
    obtain ⟨text, hpage, hsafe⟩ := h.literal
    rw [topologyHtml_eq] at hpage
    obtain rfl : dataLiteral serdeJson (reportOf (build summaryHost)) = text :=
      List.append_cancel_right (List.append_cancel_left hpage)
    have hquiet := (literal_iff _ _).mp hsafe
    have hhost : ∃ n ∈ (build summaryHost).drawn, n.hostnames = {placeholder "SUMMARY"} := by decide
    obtain ⟨n, hn, hnames⟩ := hhost
    have hmarked : Marked "SUMMARY" (reportOf (build summaryHost)).shown := by
      have hsafe : Text.safeText (placeholder "SUMMARY") = placeholder "SUMMARY" := by decide
      refine marked_append.mpr (.inl (marked_flatMap.mpr ⟨n, hn, _, safeText_mem_shown hnames _, ?_⟩))
      rw [hsafe]
    obtain ⟨s, hs, hoccurs⟩ := (marked_buildData isMark_summary _).mpr hmarked
    exact (hquiet s hs).1 hoccurs
  · intro h
    have hkeys := (ids_nodup_iff (sorted_build runningNames)).mp h.ids (.interface "eth0@0a/a" (.peerRealm "0a" "b"))
      (.interface "eth0" (.peerRealm "0a" "a@0a/b")) (by decide) (by decide)
        (by unfold SameKey; decide)
    revert hkeys
    decide

end Idnx
