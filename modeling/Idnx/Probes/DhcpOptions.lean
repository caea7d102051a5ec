import Idnx.Probes.ClasslessRoutes
import Idnx.Probes.Datagrams
import Idnx.Probes.Layers

/-!
# The options of a DHCP message

An option block is a sequence of items, bytes of padding and options, up to a place where none can be read: its end,
an End option, or an option that is cut short. The walk of `decodeDhcp` takes the items up one by one
(`walk_options`), so of the mask and of the message type the last one counts.
-/

namespace Idnx

open Outcome

/-- One item of an option block. The codes 0 and 255 are padding and the end. -/
inductive DhcpItem where
  | pad
  | option (code : UInt8) (value : Bytes) (named : code ≠ 0 ∧ code ≠ 255) (short : value.length < 256)

namespace DhcpItem

def bytes : DhcpItem → Bytes
  | .pad => [0]
  | .option code value _ _ => code :: UInt8.ofNat value.length :: value

theorem bytes_pos (item : DhcpItem) : 0 < item.bytes.length := by
  cases item with
  | pad => decide
  | option code value _ _ => exact Nat.succ_pos _

/-- The value of the item, if it is an option of the given code and length. -/
def valueOf (code : UInt8) (len : Nat) : DhcpItem → Option Bytes
  | .pad => none
  | .option c value _ _ => if c = code ∧ value.length = len then some value else none

end DhcpItem

/-- The last value of an option among the items. -/
def lastValue (code : UInt8) (len : Nat) (items : List DhcpItem) : Option Bytes :=
  (items.filterMap (DhcpItem.valueOf code len)).getLast?

/-- Where no item can be read: nothing is left, an End option follows, or an option is cut short. -/
inductive OptionsStop : Bytes → Prop where
  | none : OptionsStop []
  | marked (rest : Bytes) : OptionsStop (255 :: rest)
  | noLength (code : UInt8) (named : code ≠ 0 ∧ code ≠ 255) : OptionsStop [code]
  | short (code len : UInt8) (rest : Bytes) (named : code ≠ 0 ∧ code ≠ 255) (cut : rest.length < len.toNat) :
      OptionsStop (code :: len :: rest)

/-- The block is these items, and then no more can be read. -/
def OptionBlock (block : Bytes) (items : List DhcpItem) : Prop :=
  ∃ rest, block = items.flatMap DhcpItem.bytes ++ rest ∧ OptionsStop rest

/-- Every byte string is an option block. -/
theorem exists_optionBlock (block : Bytes) : ∃ items, OptionBlock block items := by
  obtain ⟨items, rest, hblock, hrest⟩ := exists_records DhcpItem.bytes_pos block
  refine ⟨items, rest, hblock, ?_⟩
  match rest with
  | [] => exact .none
  | code :: tail =>
    by_cases hend : code = 255
    · subst hend
      exact .marked tail
    by_cases hpad : code = 0
    · subst hpad
      exact absurd rfl (hrest .pad tail)
    match tail with
    | [] => exact .noLength code ⟨hpad, hend⟩
    | len :: tail =>
      by_cases hcut : tail.length < len.toNat
      · exact .short code len tail ⟨hpad, hend⟩ hcut
      have hlen : (tail.take len.toNat).length = len.toNat := List.length_take_of_le (by omega)
      have hlt := len.toNat_lt
      refine absurd ?_ (hrest (.option code (tail.take len.toNat) ⟨hpad, hend⟩ (by omega)) (tail.drop len.toNat))
      rw [DhcpItem.bytes, hlen, UInt8.ofNat_toNat, List.cons_append, List.cons_append, List.take_append_drop]

/-! ## What the items say -/

/-- The routes the passive decoder reads from the value of option 121. -/
def heardRoutes (value : Bytes) : List (Ipv4Addr × Nat × Ipv4Addr) :=
  match (decodeClasslessRoutes value : Outcome Unit _) with
  | .ok routes => routes
  | _ => []

/-- What an option adds. -/
def DhcpOptions.add (o : DhcpOptions) (code : UInt8) (value : Bytes) : DhcpOptions where
  subnetMask := if code = 1 ∧ value.length = 4 then some (addressOfBytes value) else o.subnetMask
  routers := if code = 3 then o.routers ++ (asChunks 4 value).map addressOfBytes else o.routers
  classlessRoutes := if code = 121 then o.classlessRoutes ++ heardRoutes value else o.classlessRoutes
  messageType := if code = 53 ∧ value.length = 1 then some (value.getD 0 0) else o.messageType

/-- What an item adds; padding adds nothing. -/
def DhcpOptions.take (o : DhcpOptions) : DhcpItem → DhcpOptions
  | .pad => o
  | .option code value _ _ => o.add code value

/-- The addresses of whole chunks are read. -/
theorem chunkAddresses_eq (value : Bytes) :
    (filterMapM (fun chunk => some <$> ipv4At chunk 0) (asChunks 4 value) : Outcome ε _) =
      .ok ((asChunks 4 value).map addressOfBytes) := by
  refine filterMapM_eq_map fun chunk hchunk => ?_
  rw [ipv4At_of_holds (Holds.self chunk) (length_of_mem_asChunks hchunk)]
  rfl

theorem heardRoutes_eq (value : Bytes) : (decodeClasslessRoutes value : Outcome Unit _) = .ok (heardRoutes value) := by
  obtain ⟨entries, rest, rfl, hend⟩ := exists_entries value
  unfold heardRoutes
  rw [decodeClasslessRoutes_eq entries hend]

theorem read_eq (o : DhcpOptions) (code : UInt8) (value : Bytes) :
    (o.read code value : Outcome Unit _) = .ok (o.add code value) := by
  unfold DhcpOptions.read
  split
  case h_1 hcode =>
    obtain rfl : code = 1 := UInt8.toNat_inj.mp hcode
    split
    case isTrue hlen =>
      rw [ipv4At_of_holds (Holds.self value) hlen]
      simp [DhcpOptions.add, hlen, addressOfBytes]
    case isFalse hlen => simp [DhcpOptions.add, hlen]
  case h_2 hcode =>
    obtain rfl : code = 3 := UInt8.toNat_inj.mp hcode
    rw [chunkAddresses_eq]
    simp [DhcpOptions.add]
  case h_3 hcode =>
    obtain rfl : code = 53 := UInt8.toNat_inj.mp hcode
    split
    case isTrue hlen =>
      rw [index_eq (by omega)]
      simp [DhcpOptions.add, hlen]
    case isFalse hlen => simp [DhcpOptions.add, hlen]
  case h_4 hcode =>
    obtain rfl : code = 121 := UInt8.toNat_inj.mp hcode
    rw [heardRoutes_eq]
    simp [DhcpOptions.add]
  case h_5 h₁ h₃ h₅₃ h₁₂₁ =>
    have hne : code ≠ 1 ∧ code ≠ 3 ∧ code ≠ 53 ∧ code ≠ 121 := by
      refine ⟨?_, ?_, ?_, ?_⟩
      · rintro rfl
        exact h₁ rfl
      · rintro rfl
        exact h₃ rfl
      · rintro rfl
        exact h₅₃ rfl
      · rintro rfl
        exact h₁₂₁ rfl
    simp [DhcpOptions.add, hne]

/-! ## The walk -/

section Walk

variable {body : Bytes} {k : Nat}

theorem nextDhcpOption_of_holds (item : DhcpItem) (o : DhcpOptions) (h : Holds body k item.bytes) :
    (nextDhcpOption body (k, o) : Outcome Unit _) = .ok (.next (k + item.bytes.length, o.take item)) := by
  have hlen := h.length_le
  have hpos := item.bytes_pos
  rw [nextDhcpOption, if_pos (by omega)]
  cases item with
  | pad =>
    rw [h.index, ok_bind, if_neg (by decide), if_pos rfl]
    rfl
  | option code value named short =>
    have hheader : Holds body k ([code] ++ ([UInt8.ofNat value.length] ++ value)) := h
    have hslice : (slice body (k + 2) (k + 2 + value.length) : Outcome Unit _) = .ok value := hheader.right.right.slice
    have hsecond : (index body (k + 1) : Outcome Unit _) = .ok (UInt8.ofNat value.length) := hheader.right.index
    have hlength : (UInt8.ofNat value.length).toNat = value.length := by
      rw [UInt8.toNat_ofNat']
      omega
    have hsize : DhcpItem.bytes (.option code value named short) = code :: UInt8.ofNat value.length :: value := rfl
    rw [hsize, List.length_cons, List.length_cons] at hlen
    rw [Holds.index h, ok_bind, if_neg named.2, if_neg named.1, if_neg (by omega), hsecond, ok_bind]
    dsimp only
    rw [hlength, if_neg (by omega)]
    rw [hslice, ok_bind, read_eq, ok_bind, hsize, List.length_cons, List.length_cons]
    rw [show k + 2 + value.length = k + (value.length + 1 + 1) by omega]
    rfl

theorem nextDhcpOption_of_stop {rest : Bytes} (hstop : OptionsStop rest) (h : body.drop k = rest) (o : DhcpOptions) :
    (nextDhcpOption body (k, o) : Outcome Unit _) = .ok (.done o) := by
  have hlen := congrArg List.length h
  rw [List.length_drop] at hlen
  cases hstop with
  | none =>
    rw [List.length_nil] at hlen
    rw [nextDhcpOption, if_neg (by omega)]
  | marked rest =>
    rw [List.length_cons] at hlen
    rw [nextDhcpOption, if_pos (by omega), index_of_drop h, ok_bind, if_pos rfl]
    rfl
  | noLength code named =>
    rw [List.length_singleton] at hlen
    rw [nextDhcpOption, if_pos (by omega), index_of_drop h, ok_bind, if_neg named.2, if_neg named.1, if_pos (by omega)]
    rfl
  | short code len rest named cut =>
    rw [List.length_cons, List.length_cons] at hlen
    rw [nextDhcpOption, if_pos (by omega), index_of_drop h, ok_bind, if_neg named.2, if_neg named.1, if_neg (by omega),
      index_add, h, show (index (code :: len :: rest) 1 : Outcome Unit _) = .ok len from rfl, ok_bind]
    dsimp only
    rw [if_pos (by omega)]
    rfl

/-- **The walk over an option block** takes up its items one by one. -/
theorem walk_options {items : List DhcpItem} (hk : k ≤ body.length) (h : OptionBlock (body.drop k) items)
    (o : DhcpOptions) :
    (loop (nextDhcpOption body) (body.length + 1) (k, o) : Outcome Unit _) = .ok (items.foldl DhcpOptions.take o) := by
  obtain ⟨rest, hblock, hstop⟩ := h
  obtain ⟨fuel, k', hloop, -, hdrop⟩ := loop_records_rest DhcpItem.bytes_pos
    (fun k item o h => nextDhcpOption_of_holds item o h) hk hblock o
  rw [hloop, loop, nextDhcpOption_of_stop hstop hdrop]
  rfl

end Walk

/-! ## The last of its kind counts -/

theorem subnetMask_take (o : DhcpOptions) (item : DhcpItem) :
    (o.take item).subnetMask = ((item.valueOf 1 4).map addressOfBytes <|> o.subnetMask) := by
  cases item with
  | pad => rfl
  | option code value _ _ =>
    unfold DhcpOptions.take DhcpOptions.add DhcpItem.valueOf
    dsimp only
    split <;> rfl

theorem messageType_take (o : DhcpOptions) (item : DhcpItem) :
    (o.take item).messageType = ((item.valueOf 53 1).map (fun value => value.getD 0 0) <|> o.messageType) := by
  cases item with
  | pad => rfl
  | option code value _ _ =>
    unfold DhcpOptions.take DhcpOptions.add DhcpItem.valueOf
    dsimp only
    split <;> rfl

/-- The mask of a message is its last one. -/
theorem subnetMask_items (items : List DhcpItem) :
    (items.foldl DhcpOptions.take {}).subnetMask = (lastValue 1 4 items).map addressOfBytes := by
  rw [foldl_getLast subnetMask_take]
  unfold lastValue
  cases (items.filterMap (DhcpItem.valueOf 1 4)).getLast? <;> rfl

theorem messageType_items (items : List DhcpItem) :
    (items.foldl DhcpOptions.take {}).messageType = (lastValue 53 1 items).map fun value => value.getD 0 0 := by
  rw [foldl_getLast messageType_take]
  unfold lastValue
  cases (items.filterMap (DhcpItem.valueOf 53 1)).getLast? <;> rfl

/-! ## DHCP messages -/

/-- The body is a server's reply over Ethernet, with an option block. -/
structure IsReply (body : Bytes) : Prop where
  long : 240 ≤ body.length
  op : body.getD 0 0 = 2
  hardware : body.getD 1 0 = 1 ∧ body.getD 2 0 = 6
  cookie : (body.drop 236).take 4 = [0x63, 0x82, 0x53, 0x63]

/-- What the options of a reply say, as a fact: nothing, if there is neither a mask nor a router nor a route. -/
def replyFact (serverMac : Text) (body : Bytes) (o : DhcpOptions) : Option FrameFact :=
  let yiaddr := addressOfBytes ((body.drop 16).take 4)
  let giaddr := addressOfBytes ((body.drop 24).take 4)
  if o.subnetMask = none ∧ o.routers = [] ∧ o.classlessRoutes = [] then none
  else some (.dhcp serverMac (if yiaddr.isUnspecified then none else some yiaddr) o.subnetMask o.routers
    o.classlessRoutes o.messageType (!giaddr.isUnspecified))

/-- **What is decoded from a reply**: the fact of its items. -/
theorem decodeDhcp_eq {ε : Type} (serverMac : Text) {body : Bytes} (h : IsReply body) {items : List DhcpItem}
    (hitems : OptionBlock (body.drop 240) items) :
    ((decodeDhcp serverMac body).toOption : Outcome ε _) =
      .ok (replyFact serverMac body (items.foldl DhcpOptions.take {})) := by
  have hlen := h.long
  have hcookie : (slice body 236 240 : Outcome Unit _) = .ok ((body.drop 236).take 4) :=
    slice_eq (show 236 + 4 ≤ body.length by omega)
  unfold decodeDhcp
  rw [require_of hlen, ok_bind, index_eq (by omega), ok_bind, require_of h.op, ok_bind, index_eq (by omega), ok_bind,
    index_eq (by omega), ok_bind, require_of h.hardware, ok_bind, hcookie, ok_bind, require_of h.cookie, ok_bind,
    ipv4At_eq (by omega), ok_bind, walk_options hlen hitems, ok_bind]
  generalize items.foldl DhcpOptions.take {} = o
  unfold replyFact
  dsimp only
  by_cases hnothing : o.subnetMask = none ∧ o.routers = [] ∧ o.classlessRoutes = []
  · rw [require, if_neg (not_not.mpr hnothing), err_bind, if_pos hnothing]
    rfl
  · rw [require_of hnothing, ok_bind, ipv4At_eq (by omega), ok_bind, if_neg hnothing]
    rfl

/-- A body that is not a reply gives nothing. -/
theorem decodeDhcp_of_not_reply {ε : Type} (serverMac : Text) {body : Bytes} (h : ¬ IsReply body) :
    ((decodeDhcp serverMac body).toOption : Outcome ε _) = .ok none := by
  unfold decodeDhcp
  by_cases hlen : 240 ≤ body.length
  case neg =>
    rw [require, if_neg hlen, err_bind]
    rfl
  have hcookie : (slice body 236 240 : Outcome Unit _) = .ok ((body.drop 236).take 4) :=
    slice_eq (show 236 + 4 ≤ body.length by omega)
  rw [require_of hlen, ok_bind, index_eq (by omega), ok_bind]
  by_cases hop : body.getD 0 0 = 2
  case neg =>
    rw [require, if_neg hop, err_bind]
    rfl
  rw [require_of hop, ok_bind, index_eq (by omega), ok_bind, index_eq (by omega), ok_bind]
  by_cases hhardware : body.getD 1 0 = 1 ∧ body.getD 2 0 = 6
  case neg =>
    rw [require, if_neg hhardware, err_bind]
    rfl
  rw [require_of hhardware, ok_bind, hcookie, ok_bind, require,
    if_neg fun hcookie => h ⟨hlen, hop, hhardware, hcookie⟩, err_bind]
  rfl

end Idnx
