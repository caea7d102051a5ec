import Idnx.Federation.Limits
import Idnx.Net.Display
import Idnx.Topology.Networks
import Mathlib.Data.Char
import Mathlib.Data.Finset.Sort
import Mathlib.Data.List.Lex
import Mathlib.Data.Prod.Lex

/-!
# Text on its way out

Names, vendors, descriptions and banners are chosen by the devices they describe, or by a peer. `safeText` replaces
the control characters of such a text and bounds it; a name is displayed that way (`Node.displayName`), an identity is
not.
-/

namespace Idnx

namespace Text

/-- `char::is_control`: the general category Cc. -/
def isControl (c : Char) : Bool := c.toNat < 32 || (127 ≤ c.toNat && c.toNat ≤ 159)

/-- No character of the text is a control character. -/
def Clean (t : Text) : Prop := ∀ c ∈ t, isControl c = false

instance (t : Text) : Decidable (Clean t) := inferInstanceAs (Decidable (∀ c ∈ t, isControl c = false))

/-- Replaces control characters, leaving the text visibly changed. -/
def sanitize (t : Text) : Text := t.map fun c => if c = '\t' then ' ' else if isControl c then '\ufffd' else c

/-- Truncates to a number of characters, marking that it happened. -/
def clip (t : Text) (limit : Nat) : Text := if t.length ≤ limit then t else t.take (limit - 1) ++ ['…']

/-- Text safe to print to a terminal or write into a structured export (`safe::text`). -/
def safeText (t : Text) : Text := clip (sanitize t) maxTextBytes

section Clean

variable {t u : Text}

@[simp] theorem clean_nil : Clean [] := fun _ h => nomatch h

@[simp] theorem clean_append : Clean (t ++ u) ↔ Clean t ∧ Clean u := List.forall_mem_append

@[simp] theorem clean_cons {c : Char} : Clean (c :: t) ↔ isControl c = false ∧ Clean t := List.forall_mem_cons

theorem clean_sanitize (t : Text) : Clean (sanitize t) := by
  intro c hc
  obtain ⟨d, -, rfl⟩ := List.mem_map.mp hc
  split_ifs with htab hcontrol
  · rfl
  · rfl
  · simpa using hcontrol

/-- Whatever a device chose, what is shown of it holds no control character. -/
theorem clean_safeText (t : Text) : Clean (safeText t) := by
  unfold safeText clip
  split_ifs
  · exact clean_sanitize t
  · rw [clean_append]
    exact ⟨fun c hc => clean_sanitize t c (List.mem_of_mem_take hc), by decide⟩

theorem clean_toDigits {base : Nat} (hbase : 1 < base) (hsmall : base ≤ 16) (n : Nat) :
    Clean (Nat.toDigits base n) := by
  have hdigit : ∀ d < 16, isControl (Nat.digitChar d) = false := by decide
  exact forall_mem_toDigits hbase (fun d hd => hdigit d (by omega)) n

theorem clean_ofNat (n : Nat) : Clean (ofNat n) := clean_toDigits (by decide) (by decide) n

theorem clean_address (a : IpAddr) : Clean a.toText := by
  have hchars : ∀ c ∈ addressChars, isControl c = false := by decide
  exact fun c hc => hchars c (a.forall_mem_toText c hc)

theorem clean_net (net : IpNet) : Clean net.toText := by
  have hchars : ∀ c ∈ '/' :: addressChars, isControl c = false := by decide
  exact fun c hc => hchars c (net.forall_mem_toText c hc)

end Clean

end Text

/-! ## Names -/

/-- The order of addresses: the families in order, then the addresses as numbers. -/
def IpAddr.rank : IpAddr → Nat ×ₗ Nat
  | .v4 a => toLex (0, a.toNat)
  | .v6 a => toLex (1, a.toNat)

theorem IpAddr.rank_injective : Function.Injective IpAddr.rank := by
  intro a b h
  cases a <;> cases b <;> simp_all [IpAddr.rank, BitVec.toNat_inj]

instance : LinearOrder IpAddr := LinearOrder.lift' IpAddr.rank IpAddr.rank_injective

-- the laws of the two orders, by name, for `sort`
instance isTrans_address : IsTrans IpAddr (fun a b => a ≤ b) := inferInstance

instance antisymm_address : Std.Antisymm (fun a b : IpAddr => a ≤ b) := inferInstance

instance total_address : Std.Total (fun a b : IpAddr => a ≤ b) := inferInstance

instance isTrans_text : IsTrans Text (fun a b => a ≤ b) := inferInstance

instance antisymm_text : Std.Antisymm (fun a b : Text => a ≤ b) := inferInstance

instance total_text : Std.Total (fun a b : Text => a ≤ b) := inferInstance

/-- The text of a device identity (`Display`). -/
def DeviceKey.toText : DeviceKey → Text
  | .mac m => m
  | .address a => a.toText
  | .scopedAddress a zone => a.toText ++ '%' :: zone

/-- What an identity is called when the node has no better name; its domain is left out. -/
def NodeId.label : NodeId → Text
  | .interface name _ => name
  | .network net _ => net.toText
  | .vlan tag _ => ("VLAN " : Text) ++ Text.ofNat tag.toNat
  | .device key => key.toText
  | .service a port _ => a.toText ++ ':' :: Text.ofNat port.toNat

section Label

variable (name : Text) (net : IpNet) (tag port : UInt16) (key : DeviceKey) (a : IpAddr) (realm : Realm)

theorem NodeId.label_interface : (NodeId.interface name realm).label = name := rfl

theorem NodeId.label_network : (NodeId.network net realm).label = net.toText := rfl

theorem NodeId.label_vlan : (NodeId.vlan tag realm).label = ("VLAN " : Text) ++ Text.ofNat tag.toNat := rfl

theorem NodeId.label_device : (NodeId.device key).label = key.toText := rfl

theorem NodeId.label_service : (NodeId.service a port realm).label = a.toText ++ ':' :: Text.ofNat port.toNat := rfl

end Label

/-- Best display name available, preferring what the device called itself: of its hostnames the first in their order,
else the first of its addresses, else what its identity is called. -/
def Node.displayName (n : Node) : Text :=
  match n.hostnames.sort.head? with
  | some name => name.safeText
  | none =>
    match n.addresses.sort.head? with
    | some address => address.toText
    | none => n.id.label

/-- What an end of an edge is called, also if the graph has no node for it. -/
def nodeLabel (g : TopologyGraph) (id : NodeId) : Text :=
  match g.nodes.lookup id with
  | some n => n.displayName
  | none => id.label

end Idnx
