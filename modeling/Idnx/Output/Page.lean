import Idnx.Lib.Json
import Idnx.Output.Export

/-!
# The interactive page

`buildData` turns a report into the nodes and links of a drawing. `topologyHtml` writes them as JSON, makes the text
inert inside a script block (`embeddableJson`), and puts it into the page in the place of a placeholder; the summary
and the version are put in after it, in the same way. What the program takes from elsewhere are parameters: how a
character is written in a JSON string (`StringWriter`), and the page around the placeholders (`PageTemplate`).
-/

namespace Idnx

/-! ## The drawing -/

structure GraphNode where
  id : Text
  label : Text
  kind : Text
  confidence : Text
  detail : List Text
  evidence : List Text
  color : Text
  radius : JsonNumber

structure GraphLink where
  source : Text
  target : Text
  label : Text
  confidence : Text

structure GraphData where
  nodes : List GraphNode
  links : List GraphLink
  vantage : Text
  blindTo : List Text
  unavailable : List Text

/-- Colour by node kind. -/
def colourFor : NodeKind → Text
  | .router => "#38bdf8"
  | .switch => "#a78bfa"
  | .layer3Switch => "#c084fc"
  | .network => "#22c55e"
  | .vlan => "#eab308"
  | .opaqueBoundary => "#f97316"
  | .interface => "#64748b"
  | .service => "#94a3b8"
  | .host => "#e2e8f0"

def radiusFor : NodeKind → JsonNumber
  | .router | .opaqueBoundary => ⟨"24.0", rfl⟩
  | .layer3Switch => ⟨"22.0", rfl⟩
  | .switch | .network => ⟨"20.0", rfl⟩
  | .vlan => ⟨"16.0", rfl⟩
  | _ => ⟨"12.0", rfl⟩

/-- What links refer to a node by. -/
def nodeKey : NodeId → Text
  | .interface name realm => ("iface:" : Text) ++ name ++ realm.suffix
  | .network net realm => ("net:" : Text) ++ net.toText ++ realm.suffix
  | .vlan tag realm => ("vlan:" : Text) ++ Text.ofNat tag.toNat ++ realm.suffix
  | .device key => ("dev:" : Text) ++ key.toText
  | .service a port realm => ("svc:" : Text) ++ a.toText ++ ':' :: Text.ofNat port.toNat ++ realm.suffix

section NodeKey

variable (name : Text) (net : IpNet) (tag port : UInt16) (key : DeviceKey) (a : IpAddr) (realm : Realm)

theorem nodeKey_interface : nodeKey (.interface name realm) = ("iface:" : Text) ++ name ++ realm.suffix := rfl

theorem nodeKey_network : nodeKey (.network net realm) = ("net:" : Text) ++ net.toText ++ realm.suffix := rfl

theorem nodeKey_vlan : nodeKey (.vlan tag realm) = ("vlan:" : Text) ++ Text.ofNat tag.toNat ++ realm.suffix := rfl

theorem nodeKey_device : nodeKey (.device key) = ("dev:" : Text) ++ key.toText := rfl

theorem nodeKey_service : nodeKey (.service a port realm) =
    ("svc:" : Text) ++ a.toText ++ ':' :: Text.ofNat port.toNat ++ realm.suffix := rfl

end NodeKey

/-- Short form of a domain, for display. -/
def Realm.label : Realm → Text
  | .localRealm => "local"
  | .peerRealm peer vantage => ("peer " : Text) ++ peer.take 16 ++ (" via " : Text) ++ vantage

def observedIn (realm : Realm) : List Text := if realm.isLocal then [] else [("observed in " : Text) ++ realm.label]

/-- What the run established about reaching into a network, with the coverage that backs the claim. -/
def reachabilityDetail (r : NetworkReachability) : List Text :=
  [("reachability: " : Text) ++ r.state.wire.safeText,
    ("coverage: " : Text) ++ Text.ofNat r.attempted ++ (" address(es) probed, " : Text) ++
      Text.ofNat r.responders.length ++ (" responder(s), " : Text) ++ Text.ofNat r.notSent ++
      (" probe(s) not sent" : Text)] ++
    r.responders.map (fun a => ("answered: " : Text) ++ a.toText) ++
    r.reasons.map (fun reason => ("probe: " : Text) ++ reason.safeText) ++
    r.discovery.map fun how => ("discovered: " : Text) ++ how.safeText

def networkDetail (report : RunReport) (ref : NetworkRef) : List Text :=
  (if isVirtualNetwork (report.graph.interfacesForNetwork ref) then ["virtual / VPN network".toList] else []) ++
    (if ref.net ∈ report.oversizedScopes then ["too large to enumerate address by address".toList] else []) ++
    (report.networkReachability.lookup ref).toList.flatMap reachabilityDetail ++ observedIn ref.realm

/-- What is said of an identity beyond its name: of a network what is known of it, of the others their domain. -/
def identityDetail (report : RunReport) : NodeId → List Text
  | .network net realm => networkDetail report ⟨net, realm⟩
  | .interface _ realm | .vlan _ realm | .service _ _ realm => observedIn realm
  | .device _ => []

def nodeDetail (report : RunReport) (n : Node) : List Text :=
  n.vendor.toList.map (fun vendor => ("vendor: " : Text) ++ vendor.safeText) ++ n.addresses.sort.map IpAddr.toText ++
    n.capabilities.sort.map (fun capability => ("capability: " : Text) ++ capability.safeText) ++
    n.roleSignals.sort.map (fun signal => ("role: " : Text) ++ signal.safeText) ++
    n.descriptions.sort.map Text.safeText ++ n.opaqueReason.toList.map
    (fun reason => ("boundary: " : Text) ++ reason.safeText) ++ identityDetail report n.id

/-- The sources of what is known of a node, with their grades. -/
def nodeEvidence (n : Node) : List Text :=
  ((n.provenance.map fun p => p.source.label ++ (" (" : Text) ++ p.confidence.label ++ (")" : Text)).insertionSort
    (· ≤ ·)).destutter (· ≠ ·)

def graphNode (report : RunReport) (n : Node) : GraphNode where
  id := nodeKey n.id
  label := n.displayName
  kind := n.kind.label
  confidence := n.confidence.label
  detail := nodeDetail report n
  evidence := nodeEvidence n
  color := colourFor n.kind
  radius := radiusFor n.kind

def graphLink (e : Edge) : GraphLink where
  source := nodeKey e.source
  target := nodeKey e.target
  label := e.relationship.label
  confidence := e.confidence.label

/-- The nodes that are drawn. Services are attributes of a host rather than topology. -/
def TopologyGraph.drawn (g : TopologyGraph) : List Node := g.nodeList.filter (·.kind ≠ .service)

def buildData (report : RunReport) : GraphData :=
  let nodes := report.graph.drawn.map (graphNode report)
  let known := nodes.map (·.id)
  { nodes
    -- edges to nodes that were not rendered are skipped
    links := report.graph.edgeList.filterMap fun e =>
      if nodeKey e.source ∈ known ∧ nodeKey e.target ∈ known then some (graphLink e) else none
    vantage := report.visibility.interface ++ (" (" : Text) ++ report.visibility.kind.label ++ (")" : Text)
    blindTo := report.visibility.blindTo
    unavailable := report.visibility.unavailable }

/-! ## Its JSON -/

def Json.texts (ts : List Text) : Json := .array (ts.map .string)

def GraphNode.toJson (n : GraphNode) : Json :=
  .object [("id", .string n.id), ("label", .string n.label), ("kind", .string n.kind),
    ("confidence", .string n.confidence), ("detail", .texts n.detail), ("evidence", .texts n.evidence),
    ("color", .string n.color), ("radius", .number n.radius)]

def GraphLink.toJson (l : GraphLink) : Json :=
  .object [("source", .string l.source), ("target", .string l.target), ("label", .string l.label),
    ("confidence", .string l.confidence)]

def GraphData.toJson (d : GraphData) : Json :=
  .object [("nodes", .array (d.nodes.map GraphNode.toJson)), ("links", .array (d.links.map GraphLink.toJson)),
    ("vantage", .string d.vantage), ("blind_to", .texts d.blindTo), ("unavailable", .texts d.unavailable)]

/-- The characters that can end a script block or a line of script. -/
def markupChars : List Char := ['<', '>', '&', '\u2028', '\u2029']

def embedChar : Char → Text
  | '<' => "\\u003c"
  | '>' => "\\u003e"
  | '&' => "\\u0026"
  | '\u2028' => "\\u2028"
  | '\u2029' => "\\u2029"
  | c => [c]

/-- Makes serialised JSON safe to embed inside an HTML script block. -/
def embeddableJson (json : Text) : Text := json.flatMap embedChar

/-- What escapes are made of. -/
def escapeChars : Text := "\\\"abcdefghijklmnopqrstuvwxyz0123456789"

/-- How the serialiser (`serde_json`) writes a character in a string: by a code that a parser reads as the character;
quotes, backslashes and control characters are escaped, and all others are written as they are. -/
structure StringWriter where
  code : Char → Text
  codes : Json.Codes code
  plain : ∀ c, c ≠ '"' → c ≠ '\\' → 32 ≤ c.toNat → code c = [c]
  escaped : ∀ c, ¬(c ≠ '"' ∧ c ≠ '\\' ∧ 32 ≤ c.toNat) → ∀ d ∈ code c, d ∈ escapeChars

/-! ## The page -/

def placeholder (name : Text) : Text := '{' :: '{' :: (name ++ ['}', '}'])

/-- The page around its placeholders. -/
structure PageTemplate where
  head : Text
  middle : Text
  script : Text
  tail : Text
  plain : ∀ part ∈ [head, middle, script, tail], ¬['{', '{'] <:+: part

/-- The page up to the data. -/
def PageTemplate.opening (T : PageTemplate) (version summary : Text) : Text :=
  T.head ++ 'v' :: (version ++ '<' :: (T.middle ++ '>' :: (summary ++ '<' :: (T.script ++ [' ']))))

/-- The page with its three parts in their places. -/
def PageTemplate.page (T : PageTemplate) (version summary data : Text) : Text :=
  T.opening version summary ++ (data ++ ';' :: T.tail)

/-- `PAGE_TEMPLATE`. -/
def PageTemplate.text (T : PageTemplate) : Text :=
  T.page (placeholder "VERSION") (placeholder "SUMMARY") (placeholder "DATA")

def packageVersion : Text := "0.3.2"

def summaryLine (g : TopologyGraph) : Text :=
  let graded (c : Confidence) := Text.ofNat (g.nodeList.countP (·.confidence = c))
  graded .observed ++ (" observed &middot; " : Text) ++ graded .advertised ++ (" advertised &middot; " : Text) ++
    graded .inferred ++ (" inferred" : Text)

/-- The page itself, as a string. -/
def topologyHtml (W : StringWriter) (T : PageTemplate) (report : RunReport) : Text :=
  let json := (buildData report).toJson.render W.code
  let html := replace (placeholder "DATA") (embeddableJson json) T.text
  let html := replace (placeholder "SUMMARY") (summaryLine report.graph) html
  replace (placeholder "VERSION") packageVersion html

end Idnx
