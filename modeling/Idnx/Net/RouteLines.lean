import Idnx.Net.Routes

/-!
# Which routes are read back

A line is read as the route it was printed from exactly if the route is `Legible` (`parseLine_words`), and so the table
is read back exactly if all its routes are (`linux_routes`): a route to a single host is printed without a length, and
no line of one is read; a next hop of the other family is not found behind its family; a default route of IPv6 without
a next hop is taken for one of IPv4; and a device that is called `dev` is itself taken for the keyword. The reader of
BSD destinations does read a single host (`parseNetstatDestination_host`).
-/

namespace Idnx

open Text

/-! ## Addresses -/

theorem fromStr_ntop (a : IpAddr) : IpAddr.fromStr (ntop a) = some a := by
  cases a with
  | v4 a => exact IpAddr.fromStr_toText (.v4 a)
  | v6 a =>
    rw [ntop]
    split_ifs with h
    · exact IpAddr.fromStr_compatible h.1
    · exact IpAddr.fromStr_toText (.v6 a)

theorem forall_mem_ntop (a : IpAddr) : ∀ c ∈ ntop a, c ∈ addressChars := by
  cases a with
  | v4 a => exact IpAddr.forall_mem_toText (.v4 a)
  | v6 a =>
    rw [ntop]
    split_ifs
    · exact List.forall_mem_append.mpr ⟨by decide, IpAddr.forall_mem_toText (.v4 _)⟩
    · exact IpAddr.forall_mem_toText (.v6 a)

theorem not_mem_ntop {c : Char} (hc : c ∉ addressChars) (a : IpAddr) : c ∉ ntop a :=
  fun hmem => hc (forall_mem_ntop a c hmem)

theorem ntop_ne_nil (a : IpAddr) : ntop a ≠ [] := by
  intro hnil
  have hread := fromStr_ntop a
  rw [hnil, show IpAddr.fromStr [] = none by decide] at hread
  cases hread

theorem isWord_ntop (a : IpAddr) : IsWord (ntop a) := by
  have hblank : ∀ c ∈ addressChars, isWhitespace c = false := by decide
  exact ⟨ntop_ne_nil a, fun c hc => hblank c (forall_mem_ntop a c hc)⟩

/-- An address is no keyword. -/
theorem plainWord_of_address {t : Text} {a : IpAddr} {zone : Option Text} (hword : IsWord t)
    (h : parseScopedAddress t = some (a, zone)) : PlainWord t := by
  have hno : parseScopedAddress "via" = none ∧ parseScopedAddress "dev" = none := by decide
  refine ⟨hword, ?_, ?_⟩ <;> rintro rfl
  · rw [hno.1] at h
    cases h
  · rw [hno.2] at h
    cases h

namespace UnicastRoute

theorem parseScopedAddress_scopedText (a : IpAddr) (zone : Option Text) :
    parseScopedAddress (scopedText a zone) = some (a, zone) := by
  have hmark : '%' ∉ ntop a := not_mem_ntop (by decide) a
  cases zone with
  | none => rw [scopedText, parseScopedAddress, splitOnce_eq_none.mpr hmark, fromStr_ntop, Option.map_some]
  | some zone =>
    rw [scopedText, parseScopedAddress, splitOnce_append hmark]
    dsimp only
    rw [fromStr_ntop, Option.map_some]

theorem plainWord_scopedText (a : IpAddr) {zone : Option Text}
    (hzone : ∀ z ∈ zone, ∀ c ∈ z, isWhitespace c = false) : PlainWord (scopedText a zone) := by
  refine plainWord_of_address ?_ (parseScopedAddress_scopedText a zone)
  cases zone with
  | none => exact isWord_ntop a
  | some zone =>
    refine ⟨List.append_ne_nil_of_left_ne_nil (ntop_ne_nil a) _, ?_⟩
    exact List.forall_mem_append.mpr ⟨(isWord_ntop a).2, List.forall_mem_cons.mpr ⟨by decide, hzone zone rfl⟩⟩

/-- The name of a family is neither an address nor a keyword. -/
theorem family_spec (a : IpAddr) : parseScopedAddress a.family = none ∧ PlainWord a.family := by
  have hnames : ∀ t ∈ [("inet" : Text), "inet6"], parseScopedAddress t = none ∧ (t ≠ [] ∧
      ∀ c ∈ t, isWhitespace c = false) ∧ t ≠ "via" ∧ t ≠ "dev" := by decide
  have hmem : a.family ∈ [("inet" : Text), "inet6"] := by
    cases a
    · exact List.mem_cons_self
    · exact List.mem_cons_of_mem _ List.mem_cons_self
  obtain ⟨hparse, hword, hvia, hdev⟩ := hnames _ hmem
  exact ⟨hparse, hword, hvia, hdev⟩

end UnicastRoute

/-! ## Scanning -/

namespace RouteScan

variable (scan : RouteScan)

theorem read_plain {w : Text} (h : PlainWord w) (next : Option Text) : scan.read w next = scan := by
  rw [read, if_neg h.ne_via]
  dsimp only
  rw [if_neg h.ne_dev]

theorem words_plain {ws : List Text} (h : ∀ w ∈ ws, PlainWord w) (rest : List Text) :
    scan.words (ws ++ rest) = scan.words rest := by
  induction ws with
  | nil => rfl
  | cons w ws ih =>
    obtain ⟨hw, hws⟩ := List.forall_mem_cons.mp h
    rw [List.cons_append, words, read_plain scan hw, ih hws]

theorem read_via (next : Option Text) : scan.read "via" next =
    match next.bind parseScopedAddress with
    | some (addr, zone) => { scan with gateway := some addr, gatewayZone := zone }
    | none => scan := by
  rw [read, if_pos rfl]
  cases next.bind parseScopedAddress with
  | none => rfl
  | some via => rfl

theorem read_dev (next : Option Text) : scan.read "dev" next =
    match next with
    | some name => { scan with interface := some name }
    | none => scan := rfl

end RouteScan

namespace UnicastRoute

variable (r : UnicastRoute)

/-- The next hop that is read: not one behind its family. -/
def readGateway : Option (IpAddr × Option Text) := r.gateway.filter fun via => via.1.family = r.destination.family

/-- The device that is read: not one called `dev`, if a word follows. -/
def readDevice : Option Text :=
  match r.device, r.after with
  | some name, w :: _ => if name = "dev" then some w else some name
  | device, _ => device

theorem scan_viaWords (scan : RouteScan) (hscan : scan.gateway = none ∧ scan.gatewayZone = none) (rest : List Text) :
    scan.words (r.viaWords ++ rest) =
      ({ scan with gateway := r.readGateway.map Prod.fst,
                   gatewayZone := r.readGateway.bind Prod.snd } : RouteScan).words rest := by
  have hzone := r.zone_word
  unfold viaWords readGateway
  cases hgateway : r.gateway with
  | none =>
    obtain ⟨gateway, zone, interface⟩ := scan
    obtain ⟨rfl, rfl⟩ := hscan
    rfl
  | some via =>
    obtain ⟨addr, zone⟩ := via
    have hplain := plainWord_scopedText addr (hzone (addr, zone) hgateway)
    dsimp only
    split_ifs with hfamily
    · rw [Option.filter_some, if_pos (by simpa using hfamily), List.cons_append, List.cons_append, List.nil_append,
        RouteScan.words, RouteScan.read_via, List.head?_cons, Option.bind_some, parseScopedAddress_scopedText]
      dsimp only
      exact RouteScan.words_plain _ (List.forall_mem_singleton.mpr hplain) rest
    · have hname := family_spec addr
      rw [Option.filter_some, if_neg (by simpa using hfamily), List.cons_append, RouteScan.words, RouteScan.read_via,
        List.cons_append, List.head?_cons, Option.bind_some, hname.1]
      dsimp only
      have hboth : ∀ w ∈ [addr.family, scopedText addr zone], PlainWord w :=
        List.forall_mem_cons.mpr ⟨hname.2, List.forall_mem_singleton.mpr hplain⟩
      obtain ⟨gateway, gatewayZone, interface⟩ := scan
      obtain ⟨rfl, rfl⟩ := hscan
      exact RouteScan.words_plain _ hboth rest

theorem scan_devWords (scan : RouteScan) (hscan : scan.interface = none) :
    scan.words (r.devWords ++ r.after) = { scan with interface := r.readDevice } := by
  have hafter : ∀ scan : RouteScan, scan.words r.after = scan := by
    intro scan
    have h := scan.words_plain r.after_plain []
    rw [List.append_nil] at h
    exact h
  have hkeyword := r.after_keyword
  unfold devWords readDevice
  cases hdevice : r.device with
  | none =>
    obtain ⟨gateway, zone, interface⟩ := scan
    cases hscan
    exact hafter _
  | some name =>
    rw [List.cons_append, List.singleton_append, RouteScan.words, RouteScan.read_dev, List.head?_cons, RouteScan.words,
      hafter]
    dsimp only
    -- the name of the device is scanned like every other word
    by_cases hdev : name = "dev"
    · subst hdev
      rw [RouteScan.read_dev]
      cases r.after with
      | nil => rfl
      | cons w after => rfl
    · have hname : ∀ next, (∀ w ∈ next, parseScopedAddress w = none) →
          ({ scan with interface := some name } : RouteScan).read name next = { scan with interface := some name } := by
        intro next hnext
        by_cases hvia : name = "via"
        · rw [hvia, RouteScan.read_via]
          cases next with
          | none => rfl
          | some w => rw [Option.bind_some, hnext w rfl]
        · exact RouteScan.read_plain _ ⟨r.device_word name hdevice, hvia, hdev⟩ next
      rw [hname _ hkeyword]
      cases r.after with
      | nil => rfl
      | cons w after =>
        dsimp only
        rw [if_neg hdev]

/-- The text of a destination: the word for all addresses, an address, or a prefix. -/
theorem plainWord_destinationText : PlainWord r.destinationText := by
  have hslash : ∀ n, IsWord ('/' :: Text.ofNat n) := by
    have hblank : ∀ c ∈ addressChars, isWhitespace c = false := by decide
    exact fun n => ⟨nofun, List.forall_mem_cons.mpr ⟨by decide, fun c hc => hblank c (forall_mem_ofNat n c hc).1⟩⟩
  unfold destinationText
  split_ifs
  · exact ⟨⟨by decide, by decide⟩, by decide, by decide⟩
  · exact @plainWord_scopedText r.destination.addr none nofun
  · have hword := isWord_ntop r.destination.addr
    have hmem : '/' ∈ ntop r.destination.addr ++ '/' :: Text.ofNat r.destination.prefixLen :=
      List.mem_append_right _ List.mem_cons_self
    refine ⟨⟨List.append_ne_nil_of_left_ne_nil hword.1 _, List.forall_mem_append.mpr ⟨hword.2, (hslash _).2⟩⟩,
      ?_, ?_⟩ <;> intro heq <;> rw [heq] at hmem <;> revert hmem <;> decide

/-- **What the words of a line say.** -/
theorem scan_words : RouteScan.words ⟨none, none, none⟩ r.words =
    ⟨r.readGateway.map Prod.fst, r.readGateway.bind Prod.snd, r.readDevice⟩ := by
  rw [words, RouteScan.words, RouteScan.read_plain _ r.plainWord_destinationText,
    RouteScan.words_plain _ r.before_plain, scan_viaWords r _ ⟨rfl, rfl⟩, scan_devWords r _ rfl]

/-! ## One line -/

/-- The routes whose lines are read. -/
structure Legible : Prop where
  not_host : r.destination.prefixLen ≠ r.destination.maxPrefixLen
  same_family : ∀ via ∈ r.gateway, via.1.family = r.destination.family
  default_via : r.destination = .v6 0 0 → r.gateway ≠ none
  device_last : r.device = some "dev" → r.after = []

theorem readGateway_eq_iff : r.readGateway.map Prod.fst = r.gateway.map Prod.fst ↔
    ∀ via ∈ r.gateway, via.1.family = r.destination.family := by
  unfold readGateway
  cases r.gateway with
  | none => simp
  | some via =>
    rw [Option.filter_some]
    by_cases h : via.1.family = r.destination.family
    · simp [h]
    · simp [h]

theorem readDevice_eq_iff : r.readDevice = r.device ↔ (r.device = some "dev" → r.after = []) := by
  have hplain := r.after_plain
  unfold readDevice
  cases hdevice : r.device with
  | none => simp
  | some name =>
    cases hafter : r.after with
    | nil => simp
    | cons w after =>
      rw [hafter] at hplain
      have hw := (hplain w List.mem_cons_self).ne_dev
      dsimp only
      by_cases hname : name = "dev"
      · rw [if_pos hname, hname]
        exact iff_of_false (fun h => hw (Option.some.inj h)) fun h => nomatch h rfl
      · rw [if_neg hname]
        exact iff_of_true rfl fun h => absurd (Option.some.inj h) hname

/-- A network of no bits is that of all addresses of its family. -/
theorem destination_of_prefixLen_zero (h : r.destination.prefixLen = 0) :
    r.destination = .v4 0 0 ∨ r.destination = .v6 0 0 := by
  have hall : ∀ {w : Nat} {a : BitVec w}, IpNet.clearBits w a = a → a = 0 := by
    intro w a ha
    apply BitVec.eq_of_toNat_eq
    rw [← ha, IpNet.toNat_clearBits, Nat.div_eq_of_lt a.isLt, Nat.zero_mul]
    rfl
  have hnetwork := r.network
  cases hdest : r.destination with
  | v4 a n =>
    rw [hdest] at h hnetwork
    obtain rfl : n = 0 := Fin.ext h
    exact .inl (by rw [hall (IpNet.v4.inj hnetwork).1])
  | v6 a n =>
    rw [hdest] at h hnetwork
    obtain rfl : n = 0 := Fin.ext h
    exact .inr (by rw [hall (IpNet.v6.inj hnetwork).1])

section Reader

/-- How the library reads prefixes: an address, a slash and the length. -/
structure ReadsPrefixes (ipNet : Text → Option IpNet) : Prop where
  read : ∀ (net : IpNet) (t : Text), '/' ∉ t → IpAddr.fromStr t = some net.addr →
    ipNet (t ++ '/' :: Text.ofNat net.prefixLen) = some net
  no_slash : ∀ t, '/' ∉ t → ipNet t = none

variable {ipNet : Text → Option IpNet} (hnet : ReadsPrefixes ipNet)

include hnet

/-- The destination is read, unless it is a single host. -/
theorem linuxDestination_text (gateway : Option IpAddr) : linuxDestination ipNet r.destinationText gateway =
    if r.destination.prefixLen = 0 then
      match gateway with
      | some (.v6 _) => some (.v6 0 0)
      | _ => some (.v4 0 0)
    else if r.destination.prefixLen = r.destination.maxPrefixLen then none
    else some r.destination := by
  have hslash : '/' ∉ ntop r.destination.addr := not_mem_ntop (by decide) _
  have hletter : 'u' ∉ ntop r.destination.addr ++ '/' :: Text.ofNat r.destination.prefixLen := by
    have hdigits : 'u' ∉ Text.ofNat r.destination.prefixLen := fun hmem =>
      absurd (forall_mem_ofNat _ _ hmem).1 (by decide)
    simpa [not_mem_ntop (show 'u' ∉ addressChars by decide)] using hdigits
  unfold destinationText
  split_ifs with hzero hhost
  · exact if_pos rfl
  · have hword : ntop r.destination.addr ≠ "default" := fun hdefault =>
      hletter (List.mem_append_left _ (hdefault ▸ by decide))
    unfold linuxDestination
    rw [if_neg hword, hnet.no_slash _ hslash, Option.map_none]
  · have hword : ntop r.destination.addr ++ '/' :: Text.ofNat r.destination.prefixLen ≠ "default" := fun hdefault =>
      hletter (hdefault ▸ by decide)
    unfold linuxDestination
    rw [if_neg hword, hnet.read _ _ hslash (fromStr_ntop _), Option.map_some, r.network]

omit hnet in
/-- The gateway of a legible route tells the family of a default route. -/
theorem defaultOf_gateway (h : r.Legible) : (if r.destination.prefixLen = 0 then
      match r.gateway.map Prod.fst with
      | some (.v6 _) => some (IpNet.v6 0 0)
      | _ => some (.v4 0 0)
    else if r.destination.prefixLen = r.destination.maxPrefixLen then none
    else some r.destination) = some r.destination := by
  split_ifs with hzero hhost
  · have hfamily := h.same_family
    have hvia := h.default_via
    have hne : ("inet" : Text) ≠ "inet6" := by decide
    rcases r.destination_of_prefixLen_zero hzero with hdest | hdest <;> rw [hdest] at hfamily hvia ⊢
    · match hgateway : r.gateway with
      | none => rfl
      | some (.v4 _, _) => rfl
      | some (.v6 _, _) => exact absurd (hfamily _ hgateway).symm hne
    · match hgateway : r.gateway with
      | none => exact absurd hgateway (hvia rfl)
      | some (.v4 _, _) => exact absurd (hfamily _ hgateway) hne
      | some (.v6 _, _) => rfl
  · exact absurd hhost h.not_host
  · rfl

/-- **A line is read as its route exactly if the route is legible.** -/
theorem parseLine_words : parseLine ipNet r.words = some r.kernelRoute ↔ r.Legible := by
  have hline : parseLine ipNet r.words =
      (linuxDestination ipNet r.destinationText (r.readGateway.map Prod.fst)).map fun destination =>
        ⟨destination, r.readGateway.map Prod.fst,
          RouteScan.zone ⟨r.readGateway.map Prod.fst, r.readGateway.bind Prod.snd, r.readDevice⟩, r.readDevice⟩ := by
    have hscan := r.scan_words
    rw [words] at hscan ⊢
    rw [parseLine, hscan]
  rw [hline, r.linuxDestination_text hnet]
  constructor
  · intro h
    obtain ⟨destination, hdestination, hroute⟩ := Option.map_eq_some_iff.mp h
    have hgateway := r.readGateway_eq_iff.mp (congrArg KernelRoute.gateway hroute)
    have hdevice := r.readDevice_eq_iff.mp (congrArg KernelRoute.interface hroute)
    have hsame : destination = r.destination := congrArg KernelRoute.destination hroute
    subst hsame
    refine ⟨?_, hgateway, ?_, hdevice⟩
    · intro hhost
      have hpos : ∀ net : IpNet, net.maxPrefixLen ≠ 0 := by
        intro net
        cases net
        · exact Nat.succ_ne_zero 31
        · exact Nat.succ_ne_zero 127
      rw [if_neg (hhost ▸ hpos _), if_pos hhost] at hdestination
      cases hdestination
    · intro hdefault hnone
      rw [hdefault, if_pos (show (IpNet.v6 0 0).prefixLen = 0 from rfl), readGateway, hnone] at hdestination
      cases hdestination
  · intro hlegible
    have hgateway : r.readGateway = r.gateway := by
      unfold readGateway
      cases hvia : r.gateway with
      | none => rfl
      | some via => exact if_pos (by simpa using hlegible.same_family via hvia)
    have hzone : RouteScan.zone ⟨r.gateway.map Prod.fst, r.gateway.bind Prod.snd, r.device⟩ =
        r.kernelRoute.gatewayZone := by
      unfold kernelRoute
      match r.gateway with
      | none => rfl
      | some (.v4 _, none) => rfl
      | some (.v6 _, none) => rfl
      | some (.v4 _, some _) => rfl
      | some (.v6 _, some _) => rfl
    rw [hgateway, r.readDevice_eq_iff.mpr hlegible.device_last, hzone, r.defaultOf_gateway hlegible]
    rfl

end Reader

theorem isWord_of_mem_words : ∀ w ∈ r.words, IsWord w := by
  have hvia : ∀ w ∈ r.viaWords, IsWord w := by
    have hkeyword : IsWord ("via" : Text) := ⟨by decide, by decide⟩
    unfold viaWords
    cases hgateway : r.gateway with
    | none => exact nofun
    | some via =>
      have htext := plainWord_scopedText via.1 (r.zone_word via hgateway)
      dsimp only
      split_ifs
      · exact List.forall_mem_cons.mpr ⟨hkeyword, List.forall_mem_singleton.mpr htext.word⟩
      · exact List.forall_mem_cons.mpr
          ⟨hkeyword, List.forall_mem_cons.mpr ⟨(family_spec via.1).2.word, List.forall_mem_singleton.mpr htext.word⟩⟩
  have hdev : ∀ w ∈ r.devWords, IsWord w := by
    unfold devWords
    cases hdevice : r.device with
    | none => exact nofun
    | some name =>
      exact List.forall_mem_cons.mpr
        ⟨⟨by decide, by decide⟩, List.forall_mem_singleton.mpr (r.device_word name hdevice)⟩
  refine List.forall_mem_cons.mpr ⟨r.plainWord_destinationText.word, ?_⟩
  simp only [List.forall_mem_append]
  exact ⟨fun w hw => (r.before_plain w hw).word, hvia, hdev, fun w hw => (r.after_plain w hw).word⟩

end UnicastRoute

/-! ## The table -/

/-- The printed table has the words of each route on a line of its own. -/
theorem lines_printRoutes (blanks : Nat) (rs : List UnicastRoute) :
    (printRoutes blanks rs).lines.map Text.words = rs.map UnicastRoute.words := by
  have hline : ∀ r : UnicastRoute, ∀ c ∈ List.intercalate [' '] r.words ++ List.replicate blanks ' ',
      c = ' ' ∨ isWhitespace c = false := by
    intro r
    refine List.forall_mem_append.mpr ⟨?_, fun c hc => .inl (List.eq_of_mem_replicate hc)⟩
    exact forall_mem_intercalate (.inl rfl) fun w hw c hc => .inr ((r.isWord_of_mem_words w hw).2 c hc)
  have hone : ∀ line ∈ rs.map fun r => List.intercalate [' '] r.words ++ List.replicate blanks ' ',
      '\n' ∉ line ∧ '\r' ∉ line := by
    rintro _ hline'
    obtain ⟨r, -, rfl⟩ := List.mem_map.mp hline'
    exact ⟨fun hmem => absurd (hline r _ hmem) (by decide), fun hmem => absurd (hline r _ hmem) (by decide)⟩
  have hlines := lines_flatMap .lf hone
  rw [List.flatMap_map] at hlines
  rw [printRoutes, hlines, List.map_map]
  refine List.map_congr_left fun r _ => ?_
  exact (words_append_replicate (by decide) blanks _).trans (words_intercalate r.isWord_of_mem_words)

/-- **The table is read back exactly if every route in it is legible.** -/
theorem linux_routes {ipNet : Text → Option IpNet} (hnet : UnicastRoute.ReadsPrefixes ipNet) (blanks : Nat)
    (rs : List UnicastRoute) :
    parseLinuxIpRoute ipNet (printRoutes blanks rs) = rs.map UnicastRoute.kernelRoute ↔ ∀ r ∈ rs, r.Legible := by
  have hread : parseLinuxIpRoute ipNet (printRoutes blanks rs) = rs.filterMap fun r => parseLine ipNet r.words := by
    have hwords := congrArg (List.filterMap (parseLine ipNet)) (lines_printRoutes blanks rs)
    rw [List.filterMap_map, List.filterMap_map] at hwords
    exact hwords
  rw [hread, List.filterMap_eq_map_iff_forall_eq_some]
  exact forall₂_congr fun r _ => r.parseLine_words hnet

/-! ## A reader of prefixes -/

/-- An address, a slash and a length that fits it. -/
def ipNetFromStr (t : Text) : Option IpNet :=
  match splitOnce '/' t with
  | some (addr, len) =>
    match IpAddr.fromStr addr, readNumber 10 3 true 256 len with
    | some (.v4 a), some (n, []) => (Ipv4Net.new a n).map Ipv4Net.toNet
    | some (.v6 a), some (n, []) => (Ipv6Net.new a n).map Ipv6Net.toNet
    | _, _ => none
  | none => none

theorem readsPrefixes_ipNetFromStr : UnicastRoute.ReadsPrefixes ipNetFromStr where
  read net t hslash haddr := by
    have hlen : net.prefixLen < 129 := by
      cases net with
      | v4 a n => exact Nat.lt_trans n.isLt (by decide)
      | v6 a n => exact n.isLt
    have hnumber := @readNumber_toDigits 10 3 256 net.prefixLen (by decide) (by decide) (by decide)
      (Nat.lt_trans hlen (by decide)) (Nat.lt_trans hlen (by decide)) true [] (ends_nil 10)
    rw [List.append_nil] at hnumber
    unfold ipNetFromStr
    rw [splitOnce_append hslash]
    dsimp only
    rw [haddr, show Text.ofNat net.prefixLen = Nat.toDigits 10 net.prefixLen from rfl, hnumber]
    cases net with
    | v4 a n => exact congrArg (Option.map Ipv4Net.toNet) (dif_pos n.isLt)
    | v6 a n => exact congrArg (Option.map Ipv6Net.toNet) (dif_pos n.isLt)
  no_slash t hslash := by
    unfold ipNetFromStr
    rw [splitOnce_eq_none.mpr hslash]

/-- `default via fe80::1 dev eth0 proto ra`. -/
def routerRoute : UnicastRoute where
  destination := .v6 0 0
  gateway := some (.v6 (.new [0xfe80, 0, 0, 0, 0, 0, 0, 1]), none)
  device := some "eth0"
  before := []
  after := ["proto", "ra"]
  network := by decide
  zone_word := fun _ h _ hzone => by cases h; cases hzone
  device_word := fun _ h => by cases h; exact ⟨by decide, by decide⟩
  before_plain := nofun
  after_plain := List.forall_mem_cons.mpr
    ⟨⟨⟨by decide, by decide⟩, by decide, by decide⟩,
      List.forall_mem_singleton.mpr ⟨⟨by decide, by decide⟩, by decide, by decide⟩⟩
  after_keyword := fun _ h => by cases h; decide

/-- `10.0.0.5 dev wg0`. -/
def hostRoute : UnicastRoute where
  destination := .v4 (.new 10 0 0 5) 32
  gateway := none
  device := some "wg0"
  before := []
  after := []
  network := by decide
  zone_word := nofun
  device_word := fun _ h => by cases h; exact ⟨by decide, by decide⟩
  before_plain := nofun
  after_plain := nofun
  after_keyword := nofun

theorem linux_routes_router :
    parseLinuxIpRoute ipNetFromStr (printRoutes 1 [routerRoute]) = [routerRoute].map UnicastRoute.kernelRoute ↔
      ∀ r ∈ [routerRoute], r.Legible :=
  linux_routes readsPrefixes_ipNetFromStr 1 [routerRoute]

/-- The line of a host is dropped. -/
theorem linux_hostRoute_lost : parseLinuxIpRoute ipNetFromStr (printRoutes 0 [hostRoute]) = [] ∧
    ¬ ∀ rs, parseLinuxIpRoute ipNetFromStr (printRoutes 0 rs) = rs.map UnicastRoute.kernelRoute := by
  have hlost : parseLinuxIpRoute ipNetFromStr (printRoutes 0 [hostRoute]) = [] := by decide
  exact ⟨hlost, fun h => absurd (hlost.symm.trans (h [hostRoute])) nofun⟩

/-- The reader of BSD destinations reads the address of a host. -/
theorem parseNetstatDestination_host {ipNet : Text → Option IpNet} (hnet : UnicastRoute.ReadsPrefixes ipNet)
    (a : IpAddr) : parseNetstatDestination ipNet (ntop a) = some (.host a) := by
  have hclean : stripZone (ntop a) = ntop a := by
    unfold stripZone
    rw [splitOnce_eq_none.mpr (not_mem_ntop (by decide) a)]
  unfold parseNetstatDestination
  dsimp only
  rw [hclean, hnet.no_slash _ (not_mem_ntop (by decide) a), fromStr_ntop]

end Idnx
