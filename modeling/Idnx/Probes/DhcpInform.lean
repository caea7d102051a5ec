import Idnx.Probes.DhcpOptions
import Idnx.Probes.IsisReach

/-!
# Replies to a DHCPINFORM

A reply is taken for the answer by its transaction, its client and its cookie, and its options are walked to the End
option or to the end of the datagram. An option that is cut short, or that lists routes and is not whole entries,
refuses the reply. What is left is all or nothing (`parseReply_iff`).
-/

namespace Idnx

open Outcome

/-- What a server disclosed in reply to the INFORM. -/
@[ext] structure DhcpDisclosure where
  server : Ipv4Addr
  subnetMask : Option Ipv4Addr
  routers : List Ipv4Addr
  classlessRoutes : List ClasslessRoute
  raw : Bytes
  deriving DecidableEq, Repr

/-- The prefix this interface is attached to, from the mask of the disclosure and our own address. -/
def DhcpDisclosure.attachedPrefix (disclosure : DhcpDisclosure) (address : Ipv4Addr) : Option Ipv4Net := do
  let mask ← disclosure.subnetMask
  if leadingOnes mask + trailingZeros mask ≠ 32 then none
  else (Ipv4Net.new address (leadingOnes mask)).map Ipv4Net.trunc

/-- What an option adds to the disclosure and to the message type. -/
def DhcpDisclosure.read (disclosure : DhcpDisclosure) (messageType : Option UInt8) (code length : UInt8)
    (value : Bytes) : Outcome Unit (DhcpDisclosure × Option UInt8) :=
  match code.toNat with
  | 53 =>
    if length = 1 then do
      let type ← index value 0
      return (disclosure, some type)
    else .ok (disclosure, messageType)
  | 1 =>
    if length = 4 then do
      let mask ← ipv4At value 0
      return ({ disclosure with subnetMask := some mask }, messageType)
    else .ok (disclosure, messageType)
  | 3 => do
    let routers ← filterMapM (fun router => do
      let address ← ipv4At router 0
      return if address.isUnspecified then none else some address) (asChunks 4 value)
    return ({ disclosure with routers := disclosure.routers ++ routers }, messageType)
  | 121 | 249 => do
    let routes ← parseClasslessRoutes value code
    return ({ disclosure with classlessRoutes := disclosure.classlessRoutes ++ routes }, messageType)
  | _ => .ok (disclosure, messageType)

/-- The next option: 255 ends them, and 0 is padding, which carries no length byte. -/
def nextReplyOption (options : Bytes) : Nat × (DhcpDisclosure × Option UInt8) →
    Outcome Unit (Turn (Nat × (DhcpDisclosure × Option UInt8)) (DhcpDisclosure × Option UInt8))
  | (cursor, disclosure, messageType) =>
    if cursor < options.length then do
      let code ← index options cursor
      if code = 255 then return .done (disclosure, messageType)
      if code = 0 then return .next (cursor + 1, disclosure, messageType)
      let length ← okOr options[cursor + 1]? ()
      let start := cursor + 2
      let stop := start + length.toNat
      require (stop ≤ options.length) ()
      let value ← slice options start stop
      let read ← disclosure.read messageType code length value
      return .next (stop, read)
    else .ok (.done (disclosure, messageType))

/-- Validates a reply as the answer to our INFORM and decodes what it disclosed. -/
def parseReply (datagram : Bytes) (transaction : UInt32) (mac : Bytes) (server : Ipv4Addr) :
    Outcome Unit DhcpDisclosure := do
  require (236 + 4 ≤ datagram.length) ()
  let op ← index datagram 0
  require (op = 2) ()
  let xid ← u32At datagram 4
  require (xid = transaction) ()
  let chaddr ← slice datagram 28 34
  require (chaddr = mac) ()
  let cookie ← slice datagram 236 (236 + 4)
  require (cookie = [99, 130, 83, 99]) ()
  let options ← sliceFrom datagram (236 + 4)
  let (disclosure, messageType) ← loop (nextReplyOption options) (options.length + 1)
    (0, { server, subnetMask := none, routers := [], classlessRoutes := [], raw := datagram }, none)
  require (messageType = some 5) ()
  return disclosure

/-! ## What an intact option says -/

namespace DhcpItem

/-- The routers of option 3. -/
def routers : DhcpItem → List Ipv4Addr
  | .pad => []
  | .option code value _ _ =>
    if code = 3 then ((asChunks 4 value).map addressOfBytes).filter (!·.isUnspecified) else []

/-- The routes of the options 121 and 249. -/
def routes : DhcpItem → List ClasslessRoute
  | .pad => []
  | .option code value _ _ => if code = 121 ∨ code = 249 then (parseClasslessRoutes value code).getD [] else []

/-- An option of routes is whole entries. -/
def Intact : DhcpItem → Prop
  | .pad => True
  | .option code value _ _ => code = 121 ∨ code = 249 → WholeEntries value

/-- The routes are those of the entries. -/
theorem routes_entries {code : UInt8} (hcode : code = 121 ∨ code = 249) (entries : List ClasslessEntry) {named short} :
    (DhcpItem.option code (entries.flatMap ClasslessEntry.bytes) named short).routes = entries.map (·.route code) := by
  rw [routes, if_pos hcode, parseClasslessRoutes_eq, getD_ok]

end DhcpItem

/-- A reply with one item more. -/
def takeItem : DhcpDisclosure × Option UInt8 → DhcpItem → DhcpDisclosure × Option UInt8
  | (disclosure, messageType), item =>
    ({ disclosure with
        subnetMask := (item.valueOf 1 4).map addressOfBytes <|> disclosure.subnetMask
        routers := disclosure.routers ++ item.routers
        classlessRoutes := disclosure.classlessRoutes ++ item.routes },
      (item.valueOf 53 1).map (fun value => value.getD 0 0) <|> messageType)

/-- The addresses of option 3 that name a router. -/
theorem routerAddresses_eq (value : Bytes) :
    (filterMapM (fun router => do
      let address ← ipv4At router 0
      return if address.isUnspecified then none else some address) (asChunks 4 value) : Outcome Unit _) =
      .ok (((asChunks 4 value).map addressOfBytes).filter (!·.isUnspecified)) := by
  rw [filterMapM_eq_filterMap (g := fun chunk =>
    if (addressOfBytes chunk).isUnspecified then none else some (addressOfBytes chunk))]
  · rw [List.filter_map, ← List.filterMap_eq_filter, List.map_filterMap]
    refine congrArg _ (List.filterMap_congr fun chunk _ => ?_)
    by_cases h : (addressOfBytes chunk).isUnspecified = true
    · simp [Option.guard, h]
    · simp [Option.guard, h]
  · intro chunk hchunk
    rw [ipv4At_of_holds (Holds.self chunk) (length_of_mem_asChunks hchunk), ok_bind]
    rfl

/-- An intact option is read. -/
theorem reply_read_of_intact (disclosure : DhcpDisclosure) (messageType : Option UInt8) {code : UInt8} {value : Bytes}
    {named : code ≠ 0 ∧ code ≠ 255} {short : value.length < 256}
    (h : (DhcpItem.option code value named short).Intact) :
    disclosure.read messageType code (UInt8.ofNat value.length) value =
      .ok (takeItem (disclosure, messageType) (.option code value named short)) := by
  have hlength : ∀ n < 256, (UInt8.ofNat value.length = UInt8.ofNat n ↔ value.length = n) := by
    intro n hn
    rw [← UInt8.toNat_inj, UInt8.toNat_ofNat', UInt8.toNat_ofNat']
    omega
  unfold DhcpDisclosure.read
  split
  case h_1 hcode =>
    obtain rfl : code = 53 := UInt8.toNat_inj.mp hcode
    have hone := hlength 1 (by decide)
    split
    case isTrue hlen =>
      have hlen := hone.mp hlen
      rw [index_eq (by omega)]
      simp [takeItem, DhcpItem.valueOf, DhcpItem.routers, DhcpItem.routes, hlen]
    case isFalse hlen =>
      have hlen := mt hone.mpr hlen
      simp [takeItem, DhcpItem.valueOf, DhcpItem.routers, DhcpItem.routes, hlen]
  case h_2 hcode =>
    obtain rfl : code = 1 := UInt8.toNat_inj.mp hcode
    have hfour := hlength 4 (by decide)
    split
    case isTrue hlen =>
      have hlen := hfour.mp hlen
      rw [ipv4At_of_holds (Holds.self value) hlen]
      simp [takeItem, DhcpItem.valueOf, DhcpItem.routers, DhcpItem.routes, hlen, addressOfBytes]
    case isFalse hlen =>
      have hlen := mt hfour.mpr hlen
      simp [takeItem, DhcpItem.valueOf, DhcpItem.routers, DhcpItem.routes, hlen]
  case h_3 hcode =>
    obtain rfl : code = 3 := UInt8.toNat_inj.mp hcode
    rw [routerAddresses_eq]
    simp [takeItem, DhcpItem.valueOf, DhcpItem.routers, DhcpItem.routes]
  case h_4 hcode =>
    obtain rfl : code = 121 := UInt8.toNat_inj.mp hcode
    obtain ⟨entries, rfl⟩ := h (.inl rfl)
    rw [parseClasslessRoutes_eq]
    simp [takeItem, DhcpItem.valueOf, DhcpItem.routers, DhcpItem.routes_entries]
  case h_5 hcode =>
    obtain rfl : code = 249 := UInt8.toNat_inj.mp hcode
    obtain ⟨entries, rfl⟩ := h (.inr rfl)
    rw [parseClasslessRoutes_eq]
    simp [takeItem, DhcpItem.valueOf, DhcpItem.routers, DhcpItem.routes_entries]
  case h_6 h₅₃ h₁ h₃ h₁₂₁ h₂₄₉ =>
    have hne : code ≠ 53 ∧ code ≠ 1 ∧ code ≠ 3 ∧ code ≠ 121 ∧ code ≠ 249 := by
      refine ⟨?_, ?_, ?_, ?_, ?_⟩
      · rintro rfl
        exact h₅₃ rfl
      · rintro rfl
        exact h₁ rfl
      · rintro rfl
        exact h₃ rfl
      · rintro rfl
        exact h₁₂₁ rfl
      · rintro rfl
        exact h₂₄₉ rfl
    simp [takeItem, DhcpItem.valueOf, DhcpItem.routers, DhcpItem.routes, hne]

/-- An option of routes that is not whole entries refuses the reply. -/
theorem reply_read_of_broken (disclosure : DhcpDisclosure) (messageType : Option UInt8) {code : UInt8} {value : Bytes}
    {named : code ≠ 0 ∧ code ≠ 255} {short : value.length < 256}
    (h : ¬ (DhcpItem.option code value named short).Intact) :
    disclosure.read messageType code (UInt8.ofNat value.length) value = .err () := by
  obtain ⟨hcode, hbroken⟩ : (code = 121 ∨ code = 249) ∧ ¬ WholeEntries value := Classical.not_imp.mp h
  obtain ⟨entries, rest, rfl, hrest⟩ := exists_entries value
  have hbad : Malformed rest := by
    refine hrest.resolve_left ?_
    rintro rfl
    exact hbroken ⟨entries, List.append_nil _⟩
  unfold DhcpDisclosure.read
  rcases hcode with rfl | rfl
  · rw [parseClasslessRoutes_of_malformed entries hbad]
    rfl
  · rw [parseClasslessRoutes_of_malformed entries hbad]
    rfl

/-! ## The walk -/

/-- An item of which nothing is missing. -/
structure IntactItem where
  item : DhcpItem
  intact : item.Intact

namespace IntactItem

def bytes (i : IntactItem) : Bytes := i.item.bytes

theorem bytes_pos (i : IntactItem) : 0 < i.bytes.length := i.item.bytes_pos

end IntactItem

/-- Nothing more is to be read: the datagram ends, or an End option stands in it. -/
def OptionsEnd (rest : Bytes) : Prop := rest = [] ∨ ∃ more, rest = 255 :: more

section Walk

variable {options rest : Bytes} {k : Nat}

theorem nextReplyOption_of_holds {i : IntactItem} (h : Holds options k i.bytes)
    (s : DhcpDisclosure × Option UInt8) :
    nextReplyOption options (k, s) = .ok (.next (k + i.bytes.length, takeItem s i.item)) := by
  have hlen := h.length_le
  have hpos := i.bytes_pos
  obtain ⟨disclosure, messageType⟩ := s
  obtain ⟨item, hintact⟩ := i
  rw [nextReplyOption, if_pos (by omega)]
  cases item with
  | pad =>
    rw [Holds.index h, ok_bind, if_neg (by decide), if_pos rfl]
    simp only [takeItem, DhcpItem.valueOf, DhcpItem.routers, DhcpItem.routes, List.append_nil, Option.map_none]
    rfl
  | option code value named short =>
    have hheader : Holds options k ([code] ++ ([UInt8.ofNat value.length] ++ value)) := h
    have hslice : (slice options (k + 2) (k + 2 + value.length) : Outcome Unit _) = .ok value :=
      hheader.right.right.slice
    have hsecond : options[k + 1]? = some (UInt8.ofNat value.length) := hheader.right.getElem?
    have hlength : (UInt8.ofNat value.length).toNat = value.length := by
      rw [UInt8.toNat_ofNat']
      omega
    have hsize : (IntactItem.bytes ⟨.option code value named short, hintact⟩).length = value.length + 2 := rfl
    rw [hsize] at hlen ⊢
    rw [Holds.index h, ok_bind, if_neg named.2, if_neg named.1, hsecond, okOr_some, ok_bind]
    dsimp only
    rw [hlength, require_of (by omega), ok_bind, hslice, ok_bind, reply_read_of_intact _ _ hintact, ok_bind,
      Nat.add_comm value.length, ← Nat.add_assoc]
    rfl

/-- Where the options end, the walk does. -/
theorem nextReplyOption_of_end (hend : OptionsEnd rest) (hk : k ≤ options.length) (h : options.drop k = rest)
    (s : DhcpDisclosure × Option UInt8) : nextReplyOption options (k, s) = .ok (.done s) := by
  have hlen : rest.length = options.length - k := by rw [← h, List.length_drop]
  rw [nextReplyOption]
  rcases hend with rfl | ⟨more, rfl⟩
  · rw [List.length_nil] at hlen
    rw [if_neg (by omega)]
  · rw [List.length_cons] at hlen
    rw [if_pos (by omega), index_of_drop h, ok_bind, if_pos rfl]
    rfl

/-- Where an option stands that is not intact, the reply is refused. -/
theorem nextReplyOption_of_broken (hend : ¬ OptionsEnd rest) (hk : k ≤ options.length) (h : options.drop k = rest)
    (hrest : ∀ (i : IntactItem) more, rest ≠ i.bytes ++ more) (s : DhcpDisclosure × Option UInt8) :
    nextReplyOption options (k, s) = .err () := by
  have hlen : rest.length = options.length - k := by rw [← h, List.length_drop]
  have hat : ∀ i, options[k + i]? = rest[i]? := fun i => by rw [← h, List.getElem?_drop]
  match rest with
  | [] => exact absurd (.inl rfl) hend
  | code :: tail =>
    have hcode : (index options k : Outcome Unit _) = .ok code := index_of_drop h
    have hnotEnd : code ≠ 255 := by
      rintro rfl
      exact hend (.inr ⟨tail, rfl⟩)
    have hnotPad : code ≠ 0 := by
      rintro rfl
      exact hrest ⟨.pad, trivial⟩ tail rfl
    rw [List.length_cons] at hlen
    rw [nextReplyOption, if_pos (by omega), hcode, ok_bind, if_neg hnotEnd, if_neg hnotPad, hat]
    match tail with
    | [] => rfl
    | length :: value =>
      rw [List.length_cons] at hlen
      show (okOr (some length) () >>= _) = _
      rw [okOr_some, ok_bind]
      dsimp only
      by_cases hcut : k + 2 + length.toNat ≤ options.length
      case neg =>
        rw [require, if_neg hcut]
        rfl
      have htake : (value.take length.toNat).length = length.toNat := List.length_take_of_le (by omega)
      have hlt := length.toNat_lt
      have hholds : Holds options (k + 2) (value.take length.toNat) := by
        have hdrop : options.drop (k + 2) = value.take length.toNat ++ value.drop length.toNat := by
          rw [List.take_append_drop, ← List.drop_drop, h]
          rfl
        exact holds_of_drop (by omega) hdrop
      have hslice := hholds.slice (ε := Unit)
      have hbroken : ¬ (DhcpItem.option code (value.take length.toNat) ⟨hnotPad, hnotEnd⟩ (by omega)).Intact := by
        intro hintact
        refine hrest ⟨_, hintact⟩ (value.drop length.toNat) ?_
        show code :: length :: value =
          code :: UInt8.ofNat (value.take length.toNat).length :: (value.take length.toNat ++ value.drop length.toNat)
        rw [htake, UInt8.ofNat_toNat, List.take_append_drop]
      have hread := reply_read_of_broken s.1 s.2 hbroken
      rw [htake] at hslice
      rw [htake, UInt8.ofNat_toNat] at hread
      rw [require_of hcut, ok_bind, hslice, ok_bind, hread, err_bind]

/-- **The walk over the options of a reply** takes up its intact items, and ends or refuses the reply where there are
no more. -/
theorem walk_reply {items : List IntactItem} (h : options = items.flatMap IntactItem.bytes ++ rest)
    (s : DhcpDisclosure × Option UInt8) :
    (OptionsEnd rest → loop (nextReplyOption options) (options.length + 1) (0, s) =
        .ok ((items.map IntactItem.item).foldl takeItem s)) ∧
      ((∀ (i : IntactItem) more, rest ≠ i.bytes ++ more) → ¬ OptionsEnd rest →
        loop (nextReplyOption options) (options.length + 1) (0, s) = .err ()) := by
  obtain ⟨fuel, k, hloop, hk, hdrop⟩ := loop_records_rest IntactItem.bytes_pos
    (fun k i s hi => nextReplyOption_of_holds hi s) (Nat.zero_le _) h s
  rw [hloop, loop]
  constructor
  · intro hend
    rw [nextReplyOption_of_end hend hk hdrop, List.foldl_map]
    rfl
  · intro hrest hend
    rw [nextReplyOption_of_broken hend hk hdrop hrest]
    rfl

end Walk

/-! ## The reply -/

/-- The datagram answers the exchange: a server's reply to this transaction of this client. -/
structure IsAnswer (datagram : Bytes) (transaction : UInt32) (mac : Bytes) : Prop where
  long : 240 ≤ datagram.length
  op : datagram.getD 0 0 = 2
  transaction : (datagram.drop 4).take 4 = beBytes 4 transaction.toNat
  mac : (datagram.drop 28).take 6 = mac
  cookie : (datagram.drop 236).take 4 = [99, 130, 83, 99]

/-- What is disclosed by these items: the last mask, the routers and the routes in their order. -/
def disclosedBy (server : Ipv4Addr) (datagram : Bytes) (items : List DhcpItem) : DhcpDisclosure where
  server := server
  subnetMask := (lastValue 1 4 items).map addressOfBytes
  routers := items.flatMap DhcpItem.routers
  classlessRoutes := items.flatMap DhcpItem.routes
  raw := datagram

theorem foldl_takeItem (server : Ipv4Addr) (datagram : Bytes) (items : List DhcpItem) :
    items.foldl takeItem ({ server, subnetMask := none, routers := [], classlessRoutes := [], raw := datagram }, none) =
      (disclosedBy server datagram items, (lastValue 53 1 items).map fun value => value.getD 0 0) := by
  generalize hs : ((({ server, subnetMask := none, routers := [], classlessRoutes := [], raw := datagram } :
    DhcpDisclosure), (none : Option UInt8))) = s
  have hserver := foldl_unchanged (g := takeItem) (p := fun s => s.1.server) (fun _ _ => rfl) items s
  have hraw := foldl_unchanged (g := takeItem) (p := fun s => s.1.raw) (fun _ _ => rfl) items s
  have hmask := foldl_getLast (g := takeItem) (p := fun s => s.1.subnetMask) (f := addressOfBytes)
    (v := DhcpItem.valueOf 1 4) (fun _ _ => rfl) items s
  have hrouters := foldl_flatMap (g := takeItem) (p := fun s => s.1.routers) (v := DhcpItem.routers) (fun _ _ => rfl)
    items s
  have hroutes := foldl_flatMap (g := takeItem) (p := fun s => s.1.classlessRoutes) (v := DhcpItem.routes)
    (fun _ _ => rfl) items s
  have htype := foldl_getLast (g := takeItem) (p := fun s => s.2) (f := fun value => value.getD 0 0)
    (v := DhcpItem.valueOf 53 1) (fun _ _ => rfl) items s
  subst hs
  rw [Option.orElse_eq_orElse, Option.orElse_eq_or, Option.or_none] at hmask htype
  rw [List.nil_append] at hrouters hroutes
  exact Prod.ext (DhcpDisclosure.ext hserver hmask hrouters hroutes hraw) htype

theorem lastValue_length {code : UInt8} {len : Nat} {items : List DhcpItem} {value : Bytes}
    (h : lastValue code len items = some value) : value.length = len := by
  obtain ⟨item, -, hvalue⟩ := List.mem_filterMap.mp (List.mem_of_getLast? h)
  cases item with
  | pad => cases hvalue
  | option c v named short =>
    unfold DhcpItem.valueOf at hvalue
    dsimp only at hvalue
    split at hvalue
    case isTrue hlen =>
      obtain rfl := Option.some.inj hvalue
      exact hlen.2
    case isFalse => cases hvalue

/-- The message type is the byte of the last option 53 that has one byte. -/
theorem messageType_iff {items : List DhcpItem} {type : UInt8} :
    (lastValue 53 1 items).map (fun value => value.getD 0 0) = some type ↔ lastValue 53 1 items = some [type] := by
  constructor
  · intro h
    obtain ⟨value, hvalue, rfl⟩ := Option.map_eq_some_iff.mp h
    obtain ⟨b, rfl⟩ := List.length_eq_one_iff.mp (lastValue_length hvalue)
    exact hvalue
  · intro h
    rw [h]
    rfl

section Reply

variable {datagram mac : Bytes} {transaction : UInt32}

/-- An answer is what its options make of it. -/
theorem parseReply_of_answer (h : IsAnswer datagram transaction mac) (server : Ipv4Addr) :
    parseReply datagram transaction mac server =
      loop (nextReplyOption (datagram.drop 240)) ((datagram.drop 240).length + 1)
        (0, { server, subnetMask := none, routers := [], classlessRoutes := [], raw := datagram }, none) >>= fun read =>
      require (read.2 = some 5) () >>= fun _ => .ok read.1 := by
  have hlen := h.long
  have hfour : ((datagram.drop 4).take 4).length = 4 := by
    rw [List.length_take, List.length_drop]
    omega
  have hxid : UInt32.ofNat (beNat ((datagram.drop 4).take 4)) = transaction := by
    rw [h.transaction, u32OfNat_beBytes]
  have hchaddr : (slice datagram 28 34 : Outcome Unit _) = .ok ((datagram.drop 28).take 6) :=
    slice_eq (show 28 + 6 ≤ datagram.length by omega)
  have hcookie : (slice datagram 236 (236 + 4) : Outcome Unit _) = .ok ((datagram.drop 236).take 4) := slice_eq hlen
  unfold parseReply
  rw [require_of hlen, ok_bind, index_eq (by omega), ok_bind, require_of h.op, ok_bind, u32At_eq (by omega), ok_bind,
    require_of hxid, ok_bind, hchaddr, ok_bind, require_of h.mac, ok_bind, hcookie, ok_bind, require_of h.cookie,
    ok_bind, sliceFrom_eq hlen, ok_bind]
  rfl

/-- What answers another exchange, or none, is refused. -/
theorem parseReply_of_not_answer (h : ¬ IsAnswer datagram transaction mac) (server : Ipv4Addr) :
    parseReply datagram transaction mac server = .err () := by
  unfold parseReply
  by_cases hlen : 240 ≤ datagram.length
  case neg => rw [require, if_neg hlen, err_bind]
  have hfour : ((datagram.drop 4).take 4).length = 4 := by
    rw [List.length_take, List.length_drop]
    omega
  have hchaddr : (slice datagram 28 34 : Outcome Unit _) = .ok ((datagram.drop 28).take 6) :=
    slice_eq (show 28 + 6 ≤ datagram.length by omega)
  have hcookie : (slice datagram 236 (236 + 4) : Outcome Unit _) = .ok ((datagram.drop 236).take 4) := slice_eq hlen
  rw [require_of hlen, ok_bind, index_eq (by omega), ok_bind]
  by_cases hop : datagram.getD 0 0 = 2
  case neg => rw [require, if_neg hop, err_bind]
  rw [require_of hop, ok_bind, u32At_eq (by omega), ok_bind]
  by_cases hxid : UInt32.ofNat (beNat ((datagram.drop 4).take 4)) = transaction
  case neg => rw [require, if_neg hxid, err_bind]
  rw [require_of hxid, ok_bind, hchaddr, ok_bind]
  by_cases hmac : (datagram.drop 28).take 6 = mac
  case neg => rw [require, if_neg hmac, err_bind]
  rw [require_of hmac, ok_bind, hcookie, ok_bind, require, if_neg fun hcookie => h ⟨hlen, hop, ?_, hmac, hcookie⟩,
    err_bind]
  rw [← hxid, beBytes_u32OfNat hfour]

/-- The options of an answer are its intact items, and the reply is refused if there is more before their end. -/
theorem parseReply_items (h : IsAnswer datagram transaction mac) (server : Ipv4Addr) {items : List IntactItem}
    {rest : Bytes} (hitems : datagram.drop 240 = items.flatMap IntactItem.bytes ++ rest) (hend : OptionsEnd rest) :
    parseReply datagram transaction mac server =
      if lastValue 53 1 (items.map IntactItem.item) = some [5] then
        .ok (disclosedBy server datagram (items.map IntactItem.item))
      else .err () := by
  rw [parseReply_of_answer h, (walk_reply hitems _).1 hend, foldl_takeItem, ok_bind]
  dsimp only
  by_cases hack : lastValue 53 1 (items.map IntactItem.item) = some [5]
  · rw [if_pos hack, require_of (messageType_iff.mpr hack)]
    rfl
  · rw [if_neg hack, require, if_neg (mt messageType_iff.mp hack)]
    rfl

end Reply

/-- **A reply is read whole or not at all**: it is read exactly if it answers the exchange, its options are intact up to
their end and the last message type among them is an acknowledgement, and what is disclosed is what they say, the
routes entry by entry. Any other datagram is refused, without a result. -/
theorem parseReply_spec (datagram : Bytes) (transaction : UInt32) (mac : Bytes) (server : Ipv4Addr) :
    (∀ d, parseReply datagram transaction mac server = .ok d ↔
      IsAnswer datagram transaction mac ∧ ∃ (items : List IntactItem) (rest : Bytes),
        datagram.drop 240 = items.flatMap IntactItem.bytes ++ rest ∧ OptionsEnd rest ∧
        lastValue 53 1 (items.map IntactItem.item) = some [5] ∧
        d = disclosedBy server datagram (items.map IntactItem.item)) ∧
    ((∃ d, parseReply datagram transaction mac server = .ok d) ∨
      parseReply datagram transaction mac server = .err ()) ∧
    ∀ (code : UInt8) (entries : List ClasslessEntry) (named : code ≠ 0 ∧ code ≠ 255)
      (short : (entries.flatMap ClasslessEntry.bytes).length < 256), code = 121 ∨ code = 249 →
      (DhcpItem.option code (entries.flatMap ClasslessEntry.bytes) named short).routes =
        entries.map (·.route code) := by
  refine ⟨fun d => ⟨fun h => ?_, ?_⟩, ?_, fun code entries named short hcode => DhcpItem.routes_entries hcode entries⟩
  case refine_2 =>
    rintro ⟨hanswer, items, rest, hitems, hend, hack, rfl⟩
    rw [parseReply_items hanswer server hitems hend, if_pos hack]
  · by_cases hanswer : IsAnswer datagram transaction mac
    case neg =>
      rw [parseReply_of_not_answer hanswer] at h
      cases h
    obtain ⟨items, rest, hitems, hrest⟩ := exists_records IntactItem.bytes_pos (datagram.drop 240)
    by_cases hend : OptionsEnd rest
    case neg =>
      rw [parseReply_of_answer hanswer, (walk_reply hitems _).2 hrest hend] at h
      cases h
    rw [parseReply_items hanswer server hitems hend] at h
    split at h
    case isTrue hack => exact ⟨hanswer, items, rest, hitems, hend, hack, (Outcome.ok.inj h).symm⟩
    case isFalse => cases h
  · by_cases hanswer : IsAnswer datagram transaction mac
    case neg => exact .inr (parseReply_of_not_answer hanswer server)
    obtain ⟨items, rest, hitems, hrest⟩ := exists_records IntactItem.bytes_pos (datagram.drop 240)
    by_cases hend : OptionsEnd rest
    case neg =>
      rw [parseReply_of_answer hanswer, (walk_reply hitems _).2 hrest hend]
      exact .inr rfl
    rw [parseReply_items hanswer server hitems hend]
    split
    · exact .inl ⟨_, rfl⟩
    · exact .inr rfl

end Idnx
