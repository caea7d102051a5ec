import Idnx.Lib.Excise
import Idnx.Lib.Keyed
import Idnx.Lib.Lines
import Idnx.Net.Parse
import Idnx.Net.Routes
import Idnx.Output.Safe
import Idnx.Providers.Snmp

/-!
# Networks a page states

A page of a device may state its addressing. The page is reduced to its visible content, taken apart into units (table
rows, objects, lines), and a prefix becomes a network only where a unit names it under a label of the device's own
addressing, or as a destination in a routing table, and does not speak of traffic rules or give an example.
-/

namespace Idnx

open Text

/-! ## Prefixes and what a page says about them -/

/-- What a page's own structure says a prefix is. -/
inductive PrefixSemantics where
  | interfaceAddress
  | routeDestination
  | unlabelled
  deriving DecidableEq, Repr

namespace PrefixSemantics

/-- Whether this is enough to create a network. -/
def establishesNetwork : PrefixSemantics → Bool
  | interfaceAddress => true
  | routeDestination => true
  | unlabelled => false

def label : PrefixSemantics → Text
  | interfaceAddress => "interface address and mask"
  | routeDestination => "route destination and mask"
  | unlabelled => "unlabelled prefix (candidate only)"

end PrefixSemantics

/-- A prefix found in a response, with the unit it was found in and the text that produced it. -/
structure PrefixCandidate where
  net : IpNet
  semantics : PrefixSemantics
  context : Text
  sourceText : Text
  deriving DecidableEq, Repr

/-- One line for the evidence trail. `debug` quotes a text. -/
def PrefixCandidate.evidence (debug : Text → Text) (candidate : PrefixCandidate) : Text :=
  candidate.semantics.label ++ (": " : Text) ++ debug (clip candidate.sourceText 60) ++ (" in " : Text) ++
    debug (clip candidate.context 160)

/-- Words a page uses when it is describing its own attached addressing. -/
def interfaceLabels : List Text :=
  ["lan subnet", "lan network", "lan ip", "lan address", "interface address", "ip address", "ipaddr", "inet addr",
    "local address"]

/-- Words that identify a mask field. -/
def maskLabels : List Text :=
  ["netmask", "subnet mask", "subnetmask", "subnet_mask", "prefix length", "prefixlen"]

/-- The field that names what a route is for. -/
def destinationLabels : List Text := ["destination", "dest network", "dest addr", "dest ip"]

/-- Words that place a destination in a routing table. -/
def routeContext : List Text :=
  ["routing table", "route table", "route entry", "static route", "next hop", "nexthop", "gateway", "metric"]

/-- Contexts in which a destination is a rule about traffic. -/
def policyContext : List Text :=
  ["acl", "access list", "access-list", "firewall", "policy", "filter", "nat", "port forward", "vpn", "tunnel", "deny",
    "permit", "allow", "block", "rule"]

/-- Words that mark text as illustrative. -/
def exampleMarkers : List Text :=
  ["example", "e g", "for instance", "such as", "placeholder", "default is", "defaults to", "sample",
    "must be in the form", "in the form", "format", "enter a", "enter the"]

/-! ## The content of a page -/

/-- Comments and the elements whose bodies are code. -/
def codeMarks : List (BlockMarks Char) :=
  [⟨"<!--".toList, "-->".toList⟩, ⟨"<script".toList, "</script>".toList⟩, ⟨"<style".toList, "</style>".toList⟩]

/-- Removes everything that is not rendered content. -/
def stripNonContent (body : Text) : Text := excise Char.toLower codeMarks '\n' body

/-- The table rows of a text, from its position `i` on. The first `skip` characters belong to a row. -/
def rowRegions : Nat → Nat → Text → List (Nat × Nat)
  | _, _, [] => []
  | i, skip + 1, _ :: t => rowRegions (i + 1) skip t
  | i, 0, c :: t =>
    let lowered := toAsciiLowercase (c :: t)
    if lowered.startsWith "<tr" then
      let len := ((findMark ("</tr>" : Text) lowered).map (· + 5)).getD (c :: t).length
      (i, i + len) :: rowRegions (i + 1) (len - 1) t
    else rowRegions (i + 1) 0 t

def slice (content : Text) (region : Nat × Nat) : Text := (content.take region.2).drop region.1

/-- The balanced regions between two delimiters that are not within another, up to 512 bytes. -/
def balancedRegions (content : Text) (opening closing : Char) : Nat → Option Nat → Nat → Text → List (Nat × Nat)
  | _, _, _, [] => []
  | i, start, depth, c :: t =>
    if c = opening then balancedRegions content opening closing (i + 1) (if depth = 0 then some i else start)
      (depth + 1) t
    else if c = closing ∧ 0 < depth then
      if depth - 1 = 0 then
        match start with
        | some first =>
          (if (slice content (first, i + 1)).asBytes.length ≤ 512 then [(first, i + 1)] else []) ++
            balancedRegions content opening closing (i + 1) none 0 t
        | none => balancedRegions content opening closing (i + 1) none 0 t
      else balancedRegions content opening closing (i + 1) start (depth - 1) t
    else balancedRegions content opening closing (i + 1) start depth t

/-- The lines of a text, each with its end (`split_inclusive`). -/
def splitInclusive : Text → List Text
  | [] => []
  | c :: t =>
    if c = '\n' then [c] :: splitInclusive t
    else
      match splitInclusive t with
      | [] => [[c]]
      | line :: lines => (c :: line) :: lines

def lineRegions : Nat → List Text → List (Nat × Nat)
  | _, [] => []
  | i, line :: lines => (i, i + line.length) :: lineRegions (i + line.length) lines

/-- Splits content into the units a value and its label can share: table rows, objects, and the lines none of these
touches. -/
def structuredUnits (content : Text) : List Text :=
  let claimed := rowRegions 0 0 content ++ balancedRegions content '{' '}' 0 none 0 content
  let free := (lineRegions 0 (splitInclusive content)).filter fun line =>
    !claimed.any fun region => region.1 < line.2 && line.1 < region.2
  (claimed ++ free).map (slice content)

/-! ## Labels -/

/-- The word is the label, or its plural. -/
def wordMatches (word target : Text) : Bool := word = target || word = target ++ ['s']

/-- Whether a sequence of whole words appears in order. -/
def containsPhrase (words : List Text) (phrase : Text) : Bool :=
  let needle := phrase.words
  !needle.isEmpty && words.tails.any fun window =>
    needle.length ≤ window.length && (window.zip needle).all fun (word, target) => wordMatches word target

/-- Letters and digits in words of lower case; markup and every other character separate them, and a capital letter
behind a small one or a digit begins a new word. -/
def labelFrom : Bool → Bool → Bool → Text → Text
  | _, _, _, [] => []
  | alnum, lower, tag, c :: t =>
    if tag || c = '<' then (if alnum then [' '] else []) ++ labelFrom false false (c ≠ '>') t
    else if !c.isAlphanum then (if alnum then [' '] else []) ++ labelFrom false false false t
    else (if c.isUpper && lower then [' '] else []) ++ c.toLower :: labelFrom true (c.isLower || c.isDigit) false t

def labelForm (t : Text) : Text := labelFrom false false false t

/-- Whether a unit illustrates a format. -/
def isIllustrative (unit : Text) : Bool := exampleMarkers.any (labelForm unit).contains

/-- The character an escape at the front stands for. -/
def escaped : Text → Option Char
  | '\\' :: 'x' :: a :: b :: _ => (parseHexU8 [a, b]).bind fun n => if n < 128 then some (Char.ofNat n) else none
  | _ => none

/-- Undoes hexadecimal escaping. The first `skip` characters belong to an escape. -/
def unescapeFrom : Nat → Text → Text
  | _, [] => []
  | skip + 1, _ :: t => unescapeFrom skip t
  | 0, c :: t =>
    match escaped (c :: t) with
    | some d => d :: unescapeFrom 3 t
    | none => c :: unescapeFrom 0 t

def unescapeHex (t : Text) : Text := unescapeFrom 0 t

def isTokenChar (c : Char) : Bool := (hexDigit c).isSome || c = '.' || c = ':' || c = '/'

/-- Splits text into address-shaped tokens. -/
def tokens (t : Text) : List Text := (t.splitOnP fun c => !isTokenChar c).filter (· ≠ [])

/-! ## Prefixes in a unit -/

/-- Whether a dotted quad is a contiguous netmask. -/
def isContiguousMask (address : Ipv4Addr) : Bool :=
  address ≠ 0 && leadingOnes address + trailingZeros address = 32

/-- `str::parse::<Ipv4Addr>`. -/
def parseIpv4 (t : Text) : Option Ipv4Addr :=
  match Ipv4Addr.readAddr t with
  | some (a, []) => some a
  | _ => none

/-- Pairs an address with a mask inside one unit. -/
def addressAndMask (text : Text) (semantics : PrefixSemantics) : Option PrefixCandidate := do
  let quads := (tokens text).filterMap parseIpv4
  let mask ← quads.find? isContiguousMask
  let address ← quads.find? fun a => !isContiguousMask a
  let network ← Ipv4Net.new address (leadingOnes mask)
  return ⟨network.trunc.toNet, semantics, text, address.toText ++ (" mask " : Text) ++ mask.toText⟩

/-- Whether the words hold one of some labels. -/
def hasLabel (words : List Text) (labels : List Text) : Bool := labels.any (containsPhrase words)

/-- What the words of a unit say about a prefix in it. -/
def wordsSemantics (words : List Text) : PrefixSemantics :=
  let policy := hasLabel words policyContext
  let interfaceLabelled := hasLabel words interfaceLabels && !policy
  let routeLabelled := hasLabel words destinationLabels && hasLabel words routeContext && !policy
  if interfaceLabelled then .interfaceAddress else if routeLabelled then .routeDestination else .unlabelled

section Units

variable (ipNet : Text → Option IpNet)

/-- The candidate of a prefix literal. -/
def tokenCandidate (text : Text) (semantics : PrefixSemantics) (token : Text) : Option PrefixCandidate :=
  if '/' ∈ token then
    match ipNet token with
    | some network =>
      if network.prefixLen = network.maxPrefixLen then none else some ⟨network.trunc, semantics, text, token⟩
    | none => none
  else none

/-- Finds prefixes inside one structured unit and decides what the unit says about them. -/
def candidatesInUnit (unit : Text) : List PrefixCandidate :=
  let text := unescapeHex unit
  let words := (labelForm text).words
  let semantics := wordsSemantics words
  (tokens text).filterMap (tokenCandidate ipNet text semantics) ++
    if hasLabel words maskLabels then (addressAndMask text semantics).toList else []

/-- The first statement about a prefix stays, unless a later one is the first that establishes it. -/
def pushUnique : List PrefixCandidate → PrefixCandidate → List PrefixCandidate
  | [], candidate => [candidate]
  | existing :: out, candidate =>
    if existing.net = candidate.net then
      if candidate.semantics.establishesNetwork && !existing.semantics.establishesNetwork then candidate :: out
      else existing :: out
    else existing :: pushUnique out candidate

/-- Extracts prefix candidates from a response body. -/
def prefixCandidates (body : Text) : List PrefixCandidate :=
  let units := (structuredUnits (stripNonContent body)).filter fun unit => !isIllustrative unit
  (units.flatMap (candidatesInUnit ipNet)).foldl pushUnique []

end Units

/-! ## Promotion -/

section Promotion

variable (debug : Text → Text) (vantage : Text) (now : Nat)

/-- Turns one page-stated prefix into topology, or records why it was not: the records, and the line of the coverage. -/
def promoteHttpPrefix (candidate : PrefixCandidate) (source : Text) (port : UInt16) (device : DeviceKey) :
    List TopologyEvidence × Text :=
  let place := ("http/" : Text) ++ Text.ofNat port.toNat
  if candidate.semantics.establishesNetwork then
    let origin := ("stated on " : Text) ++ source ++ (" -- " : Text) ++ candidate.evidence debug
    let stated := fun fact => seen vantage now .tcpProbe .advertised fact (some origin)
    let relationship :=
      match candidate.semantics with
      | .interfaceAddress => [stated (.attachedTo device candidate.net)]
      | .routeDestination => [stated (.routesTo device candidate.net none)]
      | .unlabelled => []
    (stated (.network candidate.net) :: relationship,
      place ++ (" stated " : Text) ++ candidate.net.toText ++ (" as " : Text) ++ candidate.semantics.label)
  else
    ([], place ++ (" prefix candidate " : Text) ++ candidate.net.toText ++ (" not promoted (" : Text) ++
      candidate.semantics.label ++ (")" : Text))

/-- The records a page of a device comes to. -/
def pageEvidence (ipNet : Text → Option IpNet) (source : Text) (port : UInt16) (device : DeviceKey) (body : Text) :
    List TopologyEvidence :=
  (prefixCandidates ipNet body).flatMap fun candidate =>
    (promoteHttpPrefix debug vantage now candidate source port device).1

end Promotion

/-! ## Units -/

section Regions

variable {content : Text}

theorem slice_isInfix (region : Nat × Nat) : slice content region <:+: content :=
  (List.drop_suffix _ _).isInfix.trans (List.take_prefix _ _).isInfix

/-- The units of a page are pieces of its content. -/
theorem isInfix_of_mem_structuredUnits {unit : Text} (h : unit ∈ structuredUnits content) : unit <:+: content := by
  obtain ⟨region, -, rfl⟩ := List.mem_map.mp h
  exact slice_isInfix region

end Regions

/-! ## Labels of a unit -/

section Labels

variable {words : List Text}

/-- What the words must hold for a prefix to become a network: no rule about traffic, and a label of the device's own
addressing, or a destination in a routing table. -/
def Establishing (words : List Text) : Prop :=
  hasLabel words policyContext = false ∧ (hasLabel words interfaceLabels = true ∨
    hasLabel words destinationLabels = true ∧ hasLabel words routeContext = true)

theorem establishesNetwork_wordsSemantics :
    (wordsSemantics words).establishesNetwork = true ↔ Establishing words := by
  unfold wordsSemantics Establishing
  cases hasLabel words policyContext <;> cases hasLabel words interfaceLabels <;>
    cases hasLabel words destinationLabels <;> cases hasLabel words routeContext <;> decide

theorem wordsSemantics_eq_interfaceAddress : wordsSemantics words = .interfaceAddress ↔
    hasLabel words policyContext = false ∧ hasLabel words interfaceLabels = true := by
  unfold wordsSemantics
  cases hasLabel words policyContext <;> cases hasLabel words interfaceLabels <;>
    cases hasLabel words destinationLabels <;> cases hasLabel words routeContext <;> decide

theorem wordsSemantics_eq_routeDestination (h : Establishing words) :
    wordsSemantics words = .routeDestination ↔ hasLabel words interfaceLabels = false := by
  obtain ⟨hpolicy, hlabels⟩ := h
  unfold wordsSemantics
  rw [hpolicy]
  cases hinterface : hasLabel words interfaceLabels with
  | true => simp
  | false =>
    obtain ⟨hdestination, hcontext⟩ := hlabels.resolve_left (by rw [hinterface]; decide)
    rw [hdestination, hcontext]
    decide

end Labels

/-! ## What a unit states -/

section Statements

variable {ipNet : Text → Option IpNet} {unit : Text} {net : IpNet} {candidate : PrefixCandidate}

/-- The words of a unit. -/
def unitWords (unit : Text) : List Text := (labelForm (unescapeHex unit)).words

/-- A unit names a network: by a prefix literal that is no host's, or, if it speaks of a mask, by its first address and
its first mask. -/
def NamesNet (ipNet : Text → Option IpNet) (unit : Text) (net : IpNet) : Prop :=
  (∃ token ∈ tokens (unescapeHex unit), '/' ∈ token ∧
    ∃ literal, ipNet token = some literal ∧ literal.prefixLen ≠ literal.maxPrefixLen ∧ net = literal.trunc) ∨
  hasLabel (unitWords unit) maskLabels = true ∧
    ∃ mask address block, ((tokens (unescapeHex unit)).filterMap parseIpv4).find? isContiguousMask = some mask ∧
      ((tokens (unescapeHex unit)).filterMap parseIpv4).find? (fun a => !isContiguousMask a) = some address ∧
      Ipv4Net.new address (leadingOnes mask) = some block ∧ net = block.trunc.toNet

/-- A unit states a network as the device's own or as a route, and not by way of example. -/
def StatesNet (ipNet : Text → Option IpNet) (unit : Text) (net : IpNet) : Prop :=
  isIllustrative unit = false ∧ NamesNet ipNet unit net ∧ Establishing (unitWords unit)

theorem tokenCandidate_eq_some {text token : Text} {semantics : PrefixSemantics} :
    tokenCandidate ipNet text semantics token = some candidate ↔
      '/' ∈ token ∧ ∃ literal, ipNet token = some literal ∧ literal.prefixLen ≠ literal.maxPrefixLen ∧
        candidate = ⟨literal.trunc, semantics, text, token⟩ := by
  unfold tokenCandidate
  split_ifs with hslash
  · cases hnet : ipNet token with
    | none => simp
    | some literal =>
      by_cases hhost : literal.prefixLen = literal.maxPrefixLen
      · simp [hhost]
      · simp [hslash, hhost, eq_comm (a := candidate)]
  · simp [hslash]

theorem addressAndMask_eq_some {text : Text} {semantics : PrefixSemantics} :
    addressAndMask text semantics = some candidate ↔
      ∃ mask address block, ((tokens text).filterMap parseIpv4).find? isContiguousMask = some mask ∧
        ((tokens text).filterMap parseIpv4).find? (fun a => !isContiguousMask a) = some address ∧
        Ipv4Net.new address (leadingOnes mask) = some block ∧
        candidate = ⟨block.trunc.toNet, semantics, text, address.toText ++ (" mask " : Text) ++ mask.toText⟩ := by
  unfold addressAndMask
  simp only [Option.bind_eq_bind, Option.bind_eq_some_iff, Option.pure_def, Option.some.injEq, exists_and_left,
    eq_comm (a := candidate)]

/-- All candidates of a unit come with what its words say. -/
theorem semantics_of_mem (h : candidate ∈ candidatesInUnit ipNet unit) :
    candidate.semantics = wordsSemantics (unitWords unit) := by
  unfold candidatesInUnit at h
  rcases List.mem_append.mp h with h | h
  · obtain ⟨token, -, hcandidate⟩ := List.mem_filterMap.mp h
    rw [tokenCandidate_eq_some] at hcandidate
    obtain ⟨-, literal, -, -, rfl⟩ := hcandidate
    rfl
  · split_ifs at h
    · rw [Option.mem_toList, addressAndMask_eq_some] at h
      obtain ⟨mask, address, block, -, -, -, rfl⟩ := h
      rfl
    · cases h

/-- The networks of the candidates of a unit are those it names. -/
theorem exists_mem_candidatesInUnit :
    (∃ candidate ∈ candidatesInUnit ipNet unit, candidate.net = net) ↔ NamesNet ipNet unit net := by
  unfold candidatesInUnit
  simp only [List.mem_append, or_and_right, exists_or]
  refine or_congr ?_ ?_
  · constructor
    · rintro ⟨candidate, hmem, rfl⟩
      obtain ⟨token, htoken, hcandidate⟩ := List.mem_filterMap.mp hmem
      rw [tokenCandidate_eq_some] at hcandidate
      obtain ⟨hslash, literal, hliteral, hlen, rfl⟩ := hcandidate
      exact ⟨token, htoken, hslash, literal, hliteral, hlen, rfl⟩
    · rintro ⟨token, htoken, hslash, literal, hliteral, hlen, rfl⟩
      exact ⟨_, List.mem_filterMap.mpr ⟨token, htoken,
        Iff.mpr tokenCandidate_eq_some ⟨hslash, literal, hliteral, hlen, rfl⟩⟩, rfl⟩
  · constructor
    · rintro ⟨candidate, hmem, rfl⟩
      split_ifs at hmem with hmask
      · rw [Option.mem_toList, addressAndMask_eq_some] at hmem
        obtain ⟨mask, address, block, hfirst, haddress, hblock, rfl⟩ := hmem
        exact ⟨hmask, mask, address, block, hfirst, haddress, hblock, rfl⟩
      · cases hmem
    · rintro ⟨hmask, mask, address, block, hfirst, haddress, hblock, rfl⟩
      unfold unitWords at hmask
      rw [if_pos hmask]
      exact ⟨_, Option.mem_toList.mpr (Iff.mpr addressAndMask_eq_some
        ⟨mask, address, block, hfirst, haddress, hblock, rfl⟩), rfl⟩

end Statements

/-! ## The candidates of a page -/

section Page

variable {ipNet : Text → Option IpNet} {body : Text} {net : IpNet}

theorem find?_pushUnique (out : List PrefixCandidate) (candidate : PrefixCandidate) (net : IpNet) :
    (pushUnique out candidate).find? (fun c => c.net = net) =
      if net = candidate.net then
        keepStrong (fun c => c.semantics.establishesNetwork) (out.find? fun c => c.net = net) candidate
      else out.find? fun c => c.net = net := by
  induction out with
  | nil =>
    by_cases h : net = candidate.net
    · simp [pushUnique, keepStrong, h]
    · simp [pushUnique, h, Ne.symm h]
  | cons existing out ih =>
    rw [pushUnique]
    by_cases hsame : existing.net = candidate.net
    · rw [if_pos hsame]
      by_cases h : net = candidate.net
      · subst h
        rw [if_pos rfl, List.find?_cons_of_pos (by simpa using hsame), keepStrong]
        split_ifs
        · exact List.find?_cons_of_pos (by simp)
        · exact List.find?_cons_of_pos (by simpa using hsame)
      · have hother : ¬existing.net = net := fun he => h (he.symm.trans hsame)
        rw [if_neg h, List.find?_cons_of_neg (by simpa using hother)]
        split_ifs
        · exact List.find?_cons_of_neg (by simpa using Ne.symm h)
        · exact List.find?_cons_of_neg (by simpa using hother)
    · rw [if_neg hsame, List.find?_cons, List.find?_cons, ih]
      by_cases h : net = candidate.net
      · subst h
        simp [hsame]
      · simp [h]

/-- The candidate of a prefix on a page: the first that establishes it, or the first. -/
theorem find?_foldl_pushUnique (candidates : List PrefixCandidate) (net : IpNet) :
    (candidates.foldl pushUnique []).find? (fun c => c.net = net) =
      (candidates.find? (fun c => decide (c.net = net) && c.semantics.establishesNetwork) <|>
        (candidates.filter fun c => c.net = net).head?) := by
  have hpush := find?_pushUnique
  have hkeyed := look_foldl_keyed (g := fun c kept => keepStrong (fun c => c.semantics.establishesNetwork) kept c)
    (fun (out : List PrefixCandidate) net => out.find? fun c => c.net = net) hpush candidates [] net
  have hboth : (fun c : PrefixCandidate => decide (decide (c.net = net) = true ∧
      c.semantics.establishesNetwork = true)) = fun c => decide (c.net = net) && c.semantics.establishesNetwork := by
    funext c
    simp
  rw [hkeyed, ← hboth, ← List.find?_filter]
  exact foldl_keepStrong _ _

/-- No prefix is listed twice. -/
theorem nodup_pushUnique {out : List PrefixCandidate} (h : (out.map PrefixCandidate.net).Nodup)
    (candidate : PrefixCandidate) : ((pushUnique out candidate).map PrefixCandidate.net).Nodup := by
  have hmem : ∀ (out : List PrefixCandidate) (net : IpNet), net ∈ (pushUnique out candidate).map PrefixCandidate.net →
      net = candidate.net ∨ net ∈ out.map PrefixCandidate.net := by
    intro out
    induction out with
    | nil => simp [pushUnique]
    | cons existing out ih =>
      intro net hnet
      rw [pushUnique] at hnet
      split_ifs at hnet with hsame
      · simp only [List.map_cons, List.mem_cons] at hnet ⊢
        exact hnet.imp_right .inr
      · exact .inr hnet
      · simp only [List.map_cons, List.mem_cons] at hnet ⊢
        rcases hnet with rfl | hnet
        · exact .inr (.inl rfl)
        · exact (ih net hnet).imp_right .inr
  induction out with
  | nil => simp [pushUnique]
  | cons existing out ih =>
    rw [List.map_cons, List.nodup_cons] at h
    rw [pushUnique]
    split_ifs with hsame
    · rw [List.map_cons, List.nodup_cons, ← hsame]
      exact h
    · exact List.nodup_cons.mpr h
    · rw [List.map_cons, List.nodup_cons]
      exact ⟨fun hnet => (hmem out _ hnet).elim hsame h.1, ih h.2⟩

theorem nodup_prefixCandidates (ipNet : Text → Option IpNet) (body : Text) :
    ((prefixCandidates ipNet body).map PrefixCandidate.net).Nodup := by
  unfold prefixCandidates
  have hstart : (([] : List PrefixCandidate).map PrefixCandidate.net).Nodup := List.nodup_nil
  refine List.foldlRecOn (motive := fun out => (out.map PrefixCandidate.net).Nodup) _ pushUnique hstart ?_
  intro out h candidate _
  exact nodup_pushUnique h candidate

/-- The units of a page. -/
def unitsOf (body : Text) : List Text := structuredUnits (stripNonContent body)

/-- The first unit to state a network. -/
def FirstStates (ipNet : Text → Option IpNet) (body : Text) (net : IpNet) (unit : Text) : Prop :=
  ∃ before after, unitsOf body = before ++ unit :: after ∧ (∀ u ∈ before, ¬StatesNet ipNet u net) ∧
    StatesNet ipNet unit net

/-- The candidates a unit contributes. -/
def shownCandidates (ipNet : Text → Option IpNet) (unit : Text) : List PrefixCandidate :=
  if isIllustrative unit then [] else candidatesInUnit ipNet unit

theorem prefixCandidates_eq (ipNet : Text → Option IpNet) (body : Text) :
    prefixCandidates ipNet body = ((unitsOf body).flatMap (shownCandidates ipNet)).foldl pushUnique [] := by
  have hflat : ∀ units : List Text, (units.filter fun unit => !isIllustrative unit).flatMap (candidatesInUnit ipNet) =
      units.flatMap (shownCandidates ipNet) := by
    intro units
    induction units with
    | nil => rfl
    | cons unit units ih =>
      rw [List.flatMap_cons, ← ih, shownCandidates]
      cases h : isIllustrative unit <;> simp [h]
  exact congrArg (List.foldl pushUnique []) (hflat _)

/-- A unit contributes an establishing candidate of a network exactly if it states the network. -/
theorem find?_shownCandidates_eq_none {unit : Text} :
    (shownCandidates ipNet unit).find? (fun c => decide (c.net = net) && c.semantics.establishesNetwork) = none ↔
      ¬StatesNet ipNet unit net := by
  unfold shownCandidates StatesNet
  rw [List.find?_eq_none, ← exists_mem_candidatesInUnit, ← establishesNetwork_wordsSemantics]
  cases hshown : isIllustrative unit with
  | true => simp
  | false =>
    rw [if_neg (by decide)]
    constructor
    · rintro hnone ⟨-, ⟨c, hc, hnet⟩, hestablishes⟩
      rw [← semantics_of_mem hc] at hestablishes
      exact hnone c hc (by rw [hnet, hestablishes]; simp)
    · intro hno c hc hboth
      obtain ⟨hnet, hestablishes⟩ := (Bool.and_eq_true _ _).mp hboth
      rw [semantics_of_mem hc] at hestablishes
      exact hno ⟨rfl, ⟨c, hc, of_decide_eq_true hnet⟩, hestablishes⟩

/-- The establishing candidate of a network is that of the first unit to state it. -/
theorem find?_candidates_eq_some {kept : PrefixSemantics} :
    (∃ c, ((unitsOf body).flatMap (shownCandidates ipNet)).find?
        (fun c => decide (c.net = net) && c.semantics.establishesNetwork) = some c ∧ c.semantics = kept) ↔
      ∃ unit, FirstStates ipNet body net unit ∧ wordsSemantics (unitWords unit) = kept := by
  have hsemantics : ∀ {unit : Text} {c : PrefixCandidate}, (shownCandidates ipNet unit).find?
      (fun c => decide (c.net = net) && c.semantics.establishesNetwork) = some c →
      c.semantics = wordsSemantics (unitWords unit) := by
    intro unit c hfind
    have hmem := List.mem_of_find?_eq_some hfind
    unfold shownCandidates at hmem
    split_ifs at hmem
    · cases hmem
    · exact semantics_of_mem hmem
  rw [List.find?_flatMap]
  constructor
  · rintro ⟨c, hfind, rfl⟩
    obtain ⟨before, unit, after, hunits, hc, hbefore⟩ := List.findSome?_eq_some_iff.mp hfind
    simp only [find?_shownCandidates_eq_none] at hbefore
    refine ⟨unit, ⟨before, after, hunits, hbefore, ?_⟩, (hsemantics hc).symm⟩
    by_contra hno
    rw [← find?_shownCandidates_eq_none, hc] at hno
    cases hno
  · rintro ⟨unit, ⟨before, after, hunits, hbefore, hstates⟩, rfl⟩
    cases hc : (shownCandidates ipNet unit).find?
        (fun c => decide (c.net = net) && c.semantics.establishesNetwork) with
    | none =>
      rw [find?_shownCandidates_eq_none] at hc
      exact absurd hstates hc
    | some c =>
      simp only [← find?_shownCandidates_eq_none] at hbefore
      exact ⟨c, List.findSome?_eq_some_iff.mpr ⟨before, unit, after, hunits, hc, hbefore⟩, hsemantics hc⟩

/-- Some unit states a network exactly if there is a first one. -/
theorem exists_firstStates :
    (∃ unit, FirstStates ipNet body net unit) ↔ ∃ unit ∈ unitsOf body, StatesNet ipNet unit net := by
  classical
  constructor
  · rintro ⟨unit, before, after, hunits, -, hstates⟩
    exact ⟨unit, by rw [hunits]; simp, hstates⟩
  · rintro ⟨unit, hunit, hstates⟩
    cases hfind : (unitsOf body).find? (fun u => decide (StatesNet ipNet u net)) with
    | none => exact absurd (decide_eq_true hstates) (List.find?_eq_none.mp hfind unit hunit)
    | some first =>
      obtain ⟨hfirst, before, after, hunits, hbefore⟩ := List.find?_eq_some_iff_append.mp hfind
      exact ⟨first, before, after, hunits, fun u hu => by simpa using hbefore u hu, of_decide_eq_true hfirst⟩

/-- A page lists an establishing candidate of a network with the meaning the first unit to state it gives. -/
theorem exists_mem_prefixCandidates {kept : PrefixSemantics} (hkept : kept.establishesNetwork = true) :
    (∃ c ∈ prefixCandidates ipNet body, c.net = net ∧ c.semantics = kept) ↔
      ∃ unit, FirstStates ipNet body net unit ∧ wordsSemantics (unitWords unit) = kept := by
  rw [← find?_candidates_eq_some]
  have hlisted := find?_foldl_pushUnique ((unitsOf body).flatMap (shownCandidates ipNet)) net
  rw [← prefixCandidates_eq] at hlisted
  have hmem := fun c => find?_key_eq_some (nodup_prefixCandidates ipNet body) (k := net) (e := c)
  constructor
  · rintro ⟨c, hc, hnet, rfl⟩
    refine ⟨c, ?_, rfl⟩
    rw [(hmem c).mpr ⟨hc, hnet⟩] at hlisted
    cases hstrong : ((unitsOf body).flatMap (shownCandidates ipNet)).find?
        (fun c => decide (c.net = net) && c.semantics.establishesNetwork) with
    | some strong =>
      rw [hstrong] at hlisted
      exact hlisted.symm
    | none =>
      rw [hstrong] at hlisted
      have hfirst := List.mem_filter.mp (List.mem_of_head? hlisted.symm)
      refine absurd ?_ (List.find?_eq_none.mp hstrong c hfirst.1)
      rw [hnet, hkept]
      simp
  · rintro ⟨c, hfind, rfl⟩
    rw [hfind] at hlisted
    obtain ⟨hc, hnet⟩ := (hmem c).mp hlisted
    exact ⟨c, hc, hnet, rfl⟩

/-! ## The records of a page -/

variable {debug : Text → Text} {vantage : Text} {now : Nat} {source : Text} {port : UInt16} {device : DeviceKey}
  {fact : Fact}

/-- What a record of a page states. -/
theorem stated_pageEvidence : Stated (pageEvidence debug vantage now ipNet source port device body) fact ↔
    ∃ c ∈ prefixCandidates ipNet body, c.semantics = .interfaceAddress ∧
        (fact = .network c.net ∨ fact = .attachedTo device c.net) ∨
      c.semantics = .routeDestination ∧ (fact = .network c.net ∨ fact = .routesTo device c.net none) := by
  unfold pageEvidence
  rw [stated_flatMap]
  refine exists_congr fun c => and_congr_right fun _ => ?_
  unfold promoteHttpPrefix
  cases c.semantics <;>
    simp [PrefixSemantics.establishesNetwork, stated_cons, stated_nil, seen, eq_comm]

/-- **The networks a page puts on the map**, for every page: those that some unit of its content states, as the device's
own or as a route and without speaking of traffic rules or giving an example. The device is attached to a network, or
routes to it, as the first unit to state it says. There are no other records, and every unit is a piece of the
content. -/
theorem pageEvidence_states (debug : Text → Text) (vantage : Text) (now : Nat) (ipNet : Text → Option IpNet)
    (source : Text) (port : UInt16) (device : DeviceKey) (body : Text) :
    let stated := Stated (pageEvidence debug vantage now ipNet source port device body)
    (∀ net, stated (.network net) ↔ ∃ unit ∈ unitsOf body, StatesNet ipNet unit net) ∧
    (∀ d net, stated (.attachedTo d net) ↔ d = device ∧ ∃ unit, FirstStates ipNet body net unit ∧
      hasLabel (unitWords unit) interfaceLabels = true) ∧
    (∀ d net hop, stated (.routesTo d net hop) ↔ (d = device ∧ hop = none) ∧ ∃ unit, FirstStates ipNet body net unit ∧
      hasLabel (unitWords unit) interfaceLabels = false) ∧
    (∀ fact, stated fact → ∃ net, fact = .network net ∨ fact = .attachedTo device net ∨
      fact = .routesTo device net none) ∧
    ∀ unit ∈ unitsOf body, unit <:+: stripNonContent body := by
  have hinterface : ∀ net, (∃ c ∈ prefixCandidates ipNet body, c.net = net ∧ c.semantics = .interfaceAddress) ↔
      ∃ unit, FirstStates ipNet body net unit ∧ hasLabel (unitWords unit) interfaceLabels = true := by
    intro net
    rw [exists_mem_prefixCandidates rfl]
    refine exists_congr fun unit => and_congr_right fun hfirst => ?_
    obtain ⟨-, -, -, -, -, -, hestablishing⟩ := hfirst
    rw [wordsSemantics_eq_interfaceAddress, and_iff_right hestablishing.1]
  have hroute : ∀ net, (∃ c ∈ prefixCandidates ipNet body, c.net = net ∧ c.semantics = .routeDestination) ↔
      ∃ unit, FirstStates ipNet body net unit ∧ hasLabel (unitWords unit) interfaceLabels = false := by
    intro net
    rw [exists_mem_prefixCandidates rfl]
    refine exists_congr fun unit => and_congr_right fun hfirst => ?_
    obtain ⟨-, -, -, -, -, -, hestablishing⟩ := hfirst
    exact wordsSemantics_eq_routeDestination hestablishing
  refine ⟨fun net => ?_, fun d net => ?_, fun d net hop => ?_, fun fact hfact => ?_, fun unit hunit =>
    isInfix_of_mem_structuredUnits hunit⟩
  · rw [← exists_firstStates, stated_pageEvidence]
    constructor
    · rintro ⟨c, hc, ⟨hkind, hfact⟩ | ⟨hkind, hfact⟩⟩
      · obtain rfl : net = c.net := by simpa using hfact
        obtain ⟨unit, hunit, -⟩ := (hinterface c.net).mp ⟨c, hc, rfl, hkind⟩
        exact ⟨unit, hunit⟩
      · obtain rfl : net = c.net := by simpa using hfact
        obtain ⟨unit, hunit, -⟩ := (hroute c.net).mp ⟨c, hc, rfl, hkind⟩
        exact ⟨unit, hunit⟩
    · rintro ⟨unit, hunit⟩
      cases hlabel : hasLabel (unitWords unit) interfaceLabels with
      | true =>
        obtain ⟨c, hc, rfl, hkind⟩ := (hinterface net).mpr ⟨unit, hunit, hlabel⟩
        exact ⟨c, hc, .inl ⟨hkind, .inl rfl⟩⟩
      | false =>
        obtain ⟨c, hc, rfl, hkind⟩ := (hroute net).mpr ⟨unit, hunit, hlabel⟩
        exact ⟨c, hc, .inr ⟨hkind, .inl rfl⟩⟩
  · rw [← hinterface, stated_pageEvidence]
    constructor
    · rintro ⟨c, hc, ⟨hkind, hfact⟩ | ⟨hkind, hfact⟩⟩
      · obtain ⟨rfl, rfl⟩ : d = device ∧ net = c.net := by simpa using hfact
        exact ⟨rfl, c, hc, rfl, hkind⟩
      · simp at hfact
    · rintro ⟨rfl, c, hc, rfl, hkind⟩
      exact ⟨c, hc, .inl ⟨hkind, .inr rfl⟩⟩
  · rw [← hroute, stated_pageEvidence]
    constructor
    · rintro ⟨c, hc, ⟨hkind, hfact⟩ | ⟨hkind, hfact⟩⟩
      · simp at hfact
      · obtain ⟨rfl, rfl, rfl⟩ : d = device ∧ net = c.net ∧ hop = none := by simpa using hfact
        exact ⟨⟨rfl, rfl⟩, c, hc, rfl, hkind⟩
    · rintro ⟨⟨rfl, rfl⟩, c, hc, rfl, hkind⟩
      exact ⟨c, hc, .inr ⟨hkind, .inr rfl⟩⟩
  · obtain ⟨c, -, ⟨-, hkind⟩ | ⟨-, hkind⟩⟩ := stated_pageEvidence.mp hfact
    · exact ⟨c.net, hkind.imp_right .inl⟩
    · exact ⟨c.net, hkind.imp_right .inr⟩

end Page

/-! ## Code on a page -/

theorem lexical_codeMarks : Lexical '<' codeMarks where
  led := by
    simp only [codeMarks, List.forall_mem_cons]
    exact ⟨⟨_, rfl, by decide⟩, ⟨_, rfl, by decide⟩, ⟨_, rfl, by decide⟩, List.forall_mem_nil _⟩
  apart := by
    simp only [codeMarks, List.forall_mem_cons]
    simp [List.cons_prefix_cons]

/-- **Code is not read.** Of a page that is laid out in content and in comments, scripts and styles, exactly the content
is left, with a line break for each of the others; so two pages with the same content come to the same records, whatever
their scripts, styles and comments hold. -/
theorem pageEvidence_ignores_code {laid laid' : Laid Char} (h : laid.Fits Char.toLower codeMarks)
    (h' : laid'.Fits Char.toLower codeMarks) :
    stripNonContent laid.toList = laid.plain '\n' ∧
      (laid.plain '\n' = laid'.plain '\n' → ∀ (debug : Text → Text) (vantage : Text) (now : Nat)
        (ipNet : Text → Option IpNet) (source : Text) (port : UInt16) (device : DeviceKey),
        pageEvidence debug vantage now ipNet source port device laid.toList =
          pageEvidence debug vantage now ipNet source port device laid'.toList) := by
  have hstrip : ∀ {page : Laid Char}, page.Fits Char.toLower codeMarks →
      stripNonContent page.toList = page.plain '\n' := fun hpage => excise_laid lexical_codeMarks hpage
  refine ⟨hstrip h, fun hsame debug vantage now ipNet source port device => ?_⟩
  unfold pageEvidence prefixCandidates
  rw [hstrip h, hstrip h', hsame]

/-- A status page with a script. -/
def statusPage (script : Text) : Laid Char :=
  ⟨[("<tr><td>LAN subnet</td><td>10.9.0.0/16</td></tr>".toList,
    ("<script>" : Text) ++ script ++ ("</SCRIPT>" : Text))], "end".toList⟩

/-- What the script says of the addressing is not read. -/
theorem pageEvidence_ignores_script :
    stripNonContent (statusPage "var lan = '10.0.0.0/8';").toList =
        ("<tr><td>LAN subnet</td><td>10.9.0.0/16</td></tr>\nend" : Text) ∧
      pageEvidence id "eth0" 0 (fun _ => none) "http://10.9.0.1:80/" 80 (.address (.v4 0))
          (statusPage "var lan = '10.0.0.0/8';").toList =
        pageEvidence id "eth0" 0 (fun _ => none) "http://10.9.0.1:80/" 80 (.address (.v4 0))
          (statusPage "").toList := by
  have hparts : Plain Char.toLower codeMarks "<tr><td>LAN subnet</td><td>10.9.0.0/16</td></tr>".toList ∧
      Plain Char.toLower codeMarks "end".toList := by decide
  have hfits : ∀ script n, findMark "</script>".toList ((("<script>" : Text) ++ script ++
      ("</SCRIPT>" : Text)).map Char.toLower) = some n → n = script.length + 8 →
      (statusPage script).Fits Char.toLower codeMarks := by
    intro script n hfind hlen
    refine ⟨fun part hpart => ?_, hparts.2⟩
    obtain rfl := List.mem_singleton.mp hpart
    refine ⟨hparts.1, ⟨"<script".toList, "</script>".toList⟩, List.mem_cons_of_mem _ List.mem_cons_self, ?_,
      n, hfind, ?_⟩
    · exact ⟨('>' :: script ++ "</script>".toList).map Char.toLower, by simp⟩
    · simp [hlen]
  obtain ⟨hstrip, hsame⟩ := pageEvidence_ignores_code (hfits "var lan = '10.0.0.0/8';" 31 (by decide) rfl)
    (hfits [] 8 (by decide) rfl)
  exact ⟨hstrip.trans (by decide), hsame (by decide) _ _ _ _ _ _ _⟩

end Idnx
