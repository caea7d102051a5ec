import Idnx.Probes.Reach

/-!
# The order in which candidates are listed

The `/24`s are looked into in the order of `tour`, and each adds its gateway addresses that are neither known nor
listed. The listing ends with the tour (`Listing.Taken`), or within the `/24` that fills the list (`Listing.CutAt`):
`listing_spec`. So the candidates are gateways in the block of an observed address, none of them known and none listed
twice (`candidates_sound`).
-/

namespace Idnx

/-! ## What a listing holds -/

/-- The gateway addresses of these `/24`s that are not known. -/
def unknownGateways (known : Finset Ipv4Addr) (nets : List Ipv4Net) : Finset Ipv4Addr :=
  (nets.flatMap fun subnet => gatewayHosts.map (hostIn subnet)).toFinset \ known

/-- One listing after another, with hosts of a `/24` added to it. -/
structure Listing.Grows (known : Finset Ipv4Addr) (limit : Nat) (subnet : Ipv4Net) (hosts : List Nat) (l : Listing)
    (r : Bool × Listing) : Prop where
  nodup : r.2.ordered.Nodup
  seen : r.2.seen = r.2.ordered.toFinset
  subnets : r.2.subnets = l.subnets
  lower : ∀ a ∈ l.ordered, a ∈ r.2.ordered
  upper : ∀ a ∈ r.2.ordered, a ∈ l.ordered ∨ a ∉ known ∧ ∃ host ∈ hosts, a = hostIn subnet host
  goesOn : r.1 = false → r.2.ordered.length < max limit 1 ∧
    ∀ host ∈ hosts, hostIn subnet host ∉ known → hostIn subnet host ∈ r.2.ordered
  stops : r.1 = true → r.2.ordered.length = max limit 1 ∧ ∃ host ∈ hosts, hostIn subnet host ∈ r.2.ordered

/-- Every `/24` so far was looked into, and there is room for more. -/
structure Listing.Taken (known : Finset Ipv4Addr) (limit : Nat) (nets : List Ipv4Net) (l : Listing) : Prop where
  nodup : l.ordered.Nodup
  seen : l.seen = l.ordered.toFinset
  subnets : l.subnets = (nets.map Ipv4Net.network).toFinset
  mem : ∀ a, a ∈ l.ordered ↔ a ∈ unknownGateways known nets
  short : l.ordered.length < max limit 1

/-- The list was filled by a gateway address of this `/24`, after those of the ones before it. -/
structure Listing.CutAt (known : Finset Ipv4Addr) (limit : Nat) (before : List Ipv4Net) (subnet : Ipv4Net)
    (l : Listing) : Prop where
  nodup : l.ordered.Nodup
  full : l.ordered.length = max limit 1
  subnets : l.subnets = ((before ++ [subnet]).map Ipv4Net.network).toFinset
  short : (unknownGateways known before).card < max limit 1
  lower : ∀ a ∈ unknownGateways known before, a ∈ l.ordered
  upper : ∀ a ∈ l.ordered, a ∈ unknownGateways known (before ++ [subnet])
  gives : ∃ host ∈ gatewayHosts, hostIn subnet host ∈ l.ordered

section Listing

variable {known : Finset Ipv4Addr} {limit : Nat} {nets before : List Ipv4Net} {subnet : Ipv4Net} {l : Listing}

theorem mem_unknownGateways {a : Ipv4Addr} :
    a ∈ unknownGateways known nets ↔ a ∉ known ∧ ∃ subnet ∈ nets, ∃ host ∈ gatewayHosts, a = hostIn subnet host := by
  simp only [unknownGateways, Finset.mem_sdiff, List.mem_toFinset, List.mem_flatMap, List.mem_map, eq_comm, and_comm]

theorem Listing.grows_takeHosts (hnodup : l.ordered.Nodup) (hseen : l.seen = l.ordered.toFinset)
    (hshort : l.ordered.length < max limit 1) (hosts : List Nat) :
    l.Grows known limit subnet hosts (Listing.takeHosts known limit subnet hosts l) := by
  induction hosts generalizing l with
  | nil => exact ⟨hnodup, hseen, rfl, fun _ h => h, fun _ h => .inl h, fun _ => ⟨hshort, nofun⟩, nofun⟩
  | cons host hosts ih =>
    rw [Listing.takeHosts]
    split
    case isTrue hold =>
      have h := ih hnodup hseen hshort
      refine ⟨h.nodup, h.seen, h.subnets, h.lower, fun a ha => ?_, fun hr => ⟨(h.goesOn hr).1, ?_⟩, fun hr => ?_⟩
      · refine (h.upper a ha).imp_right fun ⟨hknown, other, hother, heq⟩ => ?_
        exact ⟨hknown, other, List.mem_cons_of_mem _ hother, heq⟩
      · intro other hother hunknown
        rcases List.mem_cons.mp hother with rfl | hother
        · have hin := hold.resolve_left hunknown
          rw [hseen, List.mem_toFinset] at hin
          exact h.lower _ hin
        · exact (h.goesOn hr).2 other hother hunknown
      · obtain ⟨hfull, other, hother, hin⟩ := h.stops hr
        exact ⟨hfull, other, List.mem_cons_of_mem _ hother, hin⟩
    case isFalse hnew =>
      rw [not_or, hseen, List.mem_toFinset] at hnew
      obtain ⟨hunknown, hnew⟩ := hnew
      have hnodup' : (l.ordered ++ [hostIn subnet host]).Nodup :=
        List.nodup_append'.mpr ⟨hnodup, List.nodup_singleton _, by simpa using hnew⟩
      have hseen' : insert (hostIn subnet host) l.seen = (l.ordered ++ [hostIn subnet host]).toFinset := by
        ext a
        simp only [hseen, Finset.mem_insert, List.mem_toFinset, List.mem_append, List.mem_singleton, or_comm]
      have hself : hostIn subnet host ∈ l.ordered ++ [hostIn subnet host] :=
        List.mem_append_right _ (List.mem_singleton.mpr rfl)
      have hupper : ∀ a ∈ l.ordered ++ [hostIn subnet host],
          a ∈ l.ordered ∨ a ∉ known ∧ ∃ other ∈ host :: hosts, a = hostIn subnet other := by
        intro a ha
        refine (List.mem_append.mp ha).imp_right fun ha => ?_
        obtain rfl := List.mem_singleton.mp ha
        exact ⟨hunknown, host, List.mem_cons_self, rfl⟩
      dsimp only
      split
      case isTrue hfull =>
        refine ⟨hnodup', hseen', rfl, fun a ha => List.mem_append_left _ ha, hupper, nofun, fun _ => ⟨?_, ?_⟩⟩
        · rw [List.length_append, List.length_singleton] at hfull
          show (l.ordered ++ [hostIn subnet host]).length = max limit 1
          rw [List.length_append, List.length_singleton]
          omega
        · exact ⟨host, List.mem_cons_self, hself⟩
      case isFalse hroom =>
        have h := @ih ⟨l.ordered ++ [hostIn subnet host], insert (hostIn subnet host) l.seen, l.subnets⟩ hnodup' hseen'
          (by dsimp only at hroom ⊢; omega)
        refine ⟨h.nodup, h.seen, h.subnets, fun a ha => h.lower a (List.mem_append_left _ ha), fun a ha => ?_,
          fun hr => ⟨(h.goesOn hr).1, ?_⟩, fun hr => ?_⟩
        · rcases h.upper a ha with ha | ⟨hknown, other, hother, heq⟩
          · exact hupper a ha
          · exact .inr ⟨hknown, other, List.mem_cons_of_mem _ hother, heq⟩
        · intro other hother hunknown'
          rcases List.mem_cons.mp hother with rfl | hother
          · exact h.lower _ hself
          · exact (h.goesOn hr).2 other hother hunknown'
        · obtain ⟨hfull, other, hother, hin⟩ := h.stops hr
          exact ⟨hfull, other, List.mem_cons_of_mem _ hother, hin⟩

theorem Listing.Taken.card (h : l.Taken known limit nets) : (unknownGateways known nets).card = l.ordered.length := by
  rw [← List.toFinset_card_of_nodup h.nodup]
  congr 1
  ext a
  rw [List.mem_toFinset, h.mem]

theorem Listing.taken_new : Listing.Taken known limit [] {} := by
  refine ⟨List.nodup_nil, rfl, rfl, fun a => ⟨nofun, fun ha => ?_⟩, ?_⟩
  · obtain ⟨-, subnet, hsubnet, -⟩ := mem_unknownGateways.mp ha
    cases hsubnet
  · show 0 < max limit 1
    omega

/-- **One `/24`.** -/
theorem Listing.Taken.take (h : l.Taken known limit before) (subnet : Ipv4Net) :
    ∃ l', (l.take known limit subnet = (false, l') ∧ l'.Taken known limit (before ++ [subnet])) ∨
      l.take known limit subnet = (true, l') ∧ l'.CutAt known limit before subnet := by
  have hgrows : Listing.Grows known limit subnet gatewayHosts { l with subnets := insert subnet.network l.subnets }
      (l.take known limit subnet) :=
    @Listing.grows_takeHosts known limit subnet ⟨l.ordered, l.seen, insert subnet.network l.subnets⟩ h.nodup h.seen
      h.short gatewayHosts
  obtain ⟨stopped, l', hr⟩ : ∃ stopped l', l.take known limit subnet = (stopped, l') := ⟨_, _, rfl⟩
  rw [hr] at hgrows ⊢
  have hsubnets : l'.subnets = ((before ++ [subnet]).map Ipv4Net.network).toFinset := by
    rw [hgrows.subnets]
    ext a
    simp only [h.subnets, Finset.mem_insert, List.mem_toFinset, List.map_append, List.map_cons, List.map_nil,
      List.mem_append, List.mem_singleton, or_comm]
  have hupper : ∀ a ∈ l'.ordered, a ∈ unknownGateways known (before ++ [subnet]) := by
    intro a ha
    rw [mem_unknownGateways]
    rcases hgrows.upper a ha with ha | ⟨hknown, host, hhost, heq⟩
    · obtain ⟨hknown, other, hother, hex⟩ := mem_unknownGateways.mp ((h.mem a).mp ha)
      exact ⟨hknown, other, List.mem_append_left _ hother, hex⟩
    · exact ⟨hknown, subnet, List.mem_append_right _ (List.mem_singleton.mpr rfl), host, hhost, heq⟩
  have hlower : ∀ a ∈ unknownGateways known before, a ∈ l'.ordered := fun a ha => hgrows.lower a ((h.mem a).mpr ha)
  refine ⟨l', ?_⟩
  cases stopped with
  | false =>
    obtain ⟨hshort, hall⟩ := hgrows.goesOn rfl
    refine .inl ⟨rfl, hgrows.nodup, hgrows.seen, hsubnets, fun a => ⟨hupper a, fun ha => ?_⟩, hshort⟩
    obtain ⟨hknown, other, hother, host, hhost, rfl⟩ := mem_unknownGateways.mp ha
    rcases List.mem_append.mp hother with hother | hother
    · exact hlower _ (mem_unknownGateways.mpr ⟨hknown, other, hother, host, hhost, rfl⟩)
    · obtain rfl := List.mem_singleton.mp hother
      exact hall host hhost hknown
  | true =>
    obtain ⟨hfull, hgives⟩ := hgrows.stops rfl
    refine .inr ⟨rfl, hgrows.nodup, hfull, hsubnets, ?_, hlower, hupper, hgives⟩
    rw [h.card]
    exact h.short

/-- **One `/24` after the other.** -/
theorem Listing.Taken.takeAll (h : l.Taken known limit before) (nets : List Ipv4Net) :
    ∃ l', (l.takeAll known limit nets = (false, l') ∧ l'.Taken known limit (before ++ nets)) ∨
      l.takeAll known limit nets = (true, l') ∧
        ∃ done subnet rest, nets = done ++ subnet :: rest ∧ l'.CutAt known limit (before ++ done) subnet := by
  induction nets generalizing l before with
  | nil => exact ⟨l, .inl ⟨rfl, by rwa [List.append_nil]⟩⟩
  | cons subnet nets ih =>
    rw [Listing.takeAll]
    obtain ⟨l₁, ⟨hr, htaken⟩ | ⟨hr, hcut⟩⟩ := h.take subnet
    · obtain ⟨l', ⟨hr', htaken'⟩ | ⟨hr', done, last, rest, rfl, hcut⟩⟩ := ih htaken
      · exact ⟨l', .inl ⟨by rw [hr]; exact hr', by rwa [List.append_assoc] at htaken'⟩⟩
      · refine ⟨l', .inr ⟨by rw [hr]; exact hr', subnet :: done, last, rest, rfl, ?_⟩⟩
        rwa [List.append_assoc] at hcut
    · exact ⟨l₁, .inr ⟨by rw [hr], [], subnet, nets, rfl, by rwa [List.append_nil]⟩⟩

theorem unknownGateways_mono {nets' : List Ipv4Net} (h : ∀ subnet ∈ nets, subnet ∈ nets') :
    unknownGateways known nets ⊆ unknownGateways known nets' := by
  intro a ha
  obtain ⟨hknown, subnet, hsubnet, hgives⟩ := mem_unknownGateways.mp ha
  exact mem_unknownGateways.mpr ⟨hknown, subnet, h subnet hsubnet, hgives⟩

/-- A full list has as many gateway addresses as the limit allows. -/
theorem Listing.CutAt.le_card (h : l.CutAt known limit before subnet)
    (hnets : ∀ s ∈ before ++ [subnet], s ∈ nets) : max limit 1 ≤ (unknownGateways known nets).card := by
  rw [← h.full, ← List.toFinset_card_of_nodup h.nodup]
  refine Finset.card_le_card fun a ha => unknownGateways_mono hnets (h.upper a ?_)
  exact List.mem_toFinset.mp ha

theorem Listing.takeAll_append (l : Listing) (nets nets' : List Ipv4Net) :
    l.takeAll known limit (nets ++ nets') =
      match l.takeAll known limit nets with
      | (true, l) => (true, l)
      | (false, l) => l.takeAll known limit nets' := by
  induction nets generalizing l with
  | nil => rfl
  | cons subnet nets ih =>
    rw [List.cons_append, Listing.takeAll, Listing.takeAll]
    obtain ⟨stopped, l', hr⟩ : ∃ stopped l', l.take known limit subnet = (stopped, l') := ⟨_, _, rfl⟩
    rw [hr]
    cases stopped with
    | true => rfl
    | false => exact ih l'

theorem Listing.takeSamples_eq (remaining : Nat) (l : Listing) (blocks : List Ipv4Net) :
    l.takeSamples known limit remaining blocks = l.takeAll known limit (blocks.flatMap (sampleOf remaining)) := by
  induction blocks generalizing l with
  | nil => rfl
  | cons block blocks ih =>
    rw [List.flatMap_cons, Listing.takeAll_append, Listing.takeSamples]
    obtain ⟨stopped, l', hr⟩ : ∃ stopped l', l.takeAll known limit (sampleOf remaining block) = (stopped, l') :=
      ⟨_, _, rfl⟩
    rw [hr]
    cases stopped with
    | true => rfl
    | false => exact ih l'

end Listing

/-! ## The tour -/

/-- The `/24`s around an address, if it is private. -/
def around (address : Ipv4Addr) : List Ipv4Net :=
  match enclosingPrivateBlock address with
  | none => []
  | some block => neighbourhoods address block

def nearTour (observed : List Ipv4Addr) : List Ipv4Net := observed.flatMap around

/-- The order in which `/24`s are looked into, if nothing stops it. -/
def tour (known : Finset Ipv4Addr) (limit : Nat) (observed : List Ipv4Addr) : List Ipv4Net :=
  let remaining := limit - (unknownGateways known (nearTour observed)).card
  nearTour observed ++
    if remaining = 0 then [] else (sortBlocks (observed.foldl addBlock [])).flatMap (sampleOf remaining)

/-- An observed address is looked at if those before it leave room for more candidates. -/
def LooksAt (known : Finset Ipv4Addr) (limit : Nat) (observed : List Ipv4Addr) (address : Ipv4Addr) : Prop :=
  ∃ seen rest, observed = seen ++ address :: rest ∧ (unknownGateways known (nearTour seen)).card < max limit 1

section Tour

variable {known : Finset Ipv4Addr} {limit : Nat} {observed : List Ipv4Addr} {blocks : List Ipv4Net}

theorem mem_addBlock {address : Ipv4Addr} {block : Ipv4Net} :
    block ∈ addBlock blocks address ↔ block ∈ blocks ∨ enclosingPrivateBlock address = some block := by
  unfold addBlock
  cases enclosingPrivateBlock address with
  | none => simp
  | some other =>
    dsimp only
    split
    case isTrue hold =>
      rw [Option.some.injEq]
      exact ⟨.inl, fun h => h.elim id fun heq => heq ▸ hold⟩
    case isFalse => rw [List.mem_append, List.mem_singleton, Option.some.injEq, eq_comm]

theorem nodup_addBlock {address : Ipv4Addr} (h : blocks.Nodup) : (addBlock blocks address).Nodup := by
  unfold addBlock
  cases enclosingPrivateBlock address with
  | none => exact h
  | some block =>
    dsimp only
    split
    case isTrue => exact h
    case isFalse hnew => exact List.nodup_append'.mpr ⟨h, List.nodup_singleton _, by simpa using hnew⟩

theorem mem_foldl_addBlock {block : Ipv4Net} :
    block ∈ observed.foldl addBlock blocks ↔
      block ∈ blocks ∨ ∃ address ∈ observed, enclosingPrivateBlock address = some block := by
  induction observed generalizing blocks with
  | nil => simp
  | cons address observed ih =>
    rw [List.foldl_cons, ih, mem_addBlock, or_assoc]
    simp only [List.mem_cons, exists_eq_or_imp]

theorem nodup_foldl_addBlock (h : blocks.Nodup) : (observed.foldl addBlock blocks).Nodup := by
  induction observed generalizing blocks with
  | nil => exact h
  | cons address observed ih => exact ih (nodup_addBlock h)

/-- **The neighbourhoods.** -/
theorem Listing.Taken.takeNearby {l : Listing} {before : List Ipv4Net} (h : l.Taken known limit before)
    (observed : List Ipv4Addr) (blocks : List Ipv4Net) :
    ∃ l', (Listing.takeNearby known limit observed blocks l = (false, observed.foldl addBlock blocks, l') ∧
        l'.Taken known limit (before ++ nearTour observed)) ∨
      ∃ seen address rest, observed = seen ++ address :: rest ∧
        Listing.takeNearby known limit observed blocks l = (true, (seen ++ [address]).foldl addBlock blocks, l') ∧
          ∃ done subnet more, around address = done ++ subnet :: more ∧
            l'.CutAt known limit (before ++ nearTour seen ++ done) subnet := by
  induction observed generalizing l before blocks with
  | nil => exact ⟨l, .inl ⟨rfl, by rwa [nearTour, List.flatMap_nil, List.append_nil]⟩⟩
  | cons address observed ih =>
    have hnear : ∀ seen, nearTour (address :: seen) = around address ++ nearTour seen := fun _ => List.flatMap_cons
    have haround : around address = match enclosingPrivateBlock address with
      | none => []
      | some block => neighbourhoods address block := rfl
    have hadd : enclosingPrivateBlock address = none → addBlock blocks address = blocks := by
      intro hnone
      unfold addBlock
      rw [hnone]
    rw [Listing.takeNearby]
    cases hblock : enclosingPrivateBlock address with
    | none =>
      rw [hblock] at haround
      obtain ⟨l', ⟨hr, htaken⟩ | ⟨seen, other, rest, rfl, hr, done, subnet, more, hother, hcut⟩⟩ := ih h blocks
      · refine ⟨l', .inl ⟨?_, ?_⟩⟩
        · rw [List.foldl_cons, hadd hblock]
          exact hr
        · rw [hnear, haround, List.nil_append]
          exact htaken
      · refine ⟨l', .inr ⟨address :: seen, other, rest, rfl, ?_, done, subnet, more, hother, ?_⟩⟩
        · rw [List.cons_append, List.foldl_cons, hadd hblock]
          exact hr
        · rw [hnear, haround, List.nil_append]
          exact hcut
    | some block =>
      rw [hblock] at haround
      dsimp only at haround ⊢
      rw [← haround]
      obtain ⟨l₁, ⟨hr, htaken⟩ | ⟨hr, done, subnet, more, hmore, hcut⟩⟩ := h.takeAll (around address)
      · rw [hr]
        obtain ⟨l', ⟨hr', htaken'⟩ | ⟨seen, other, rest, rfl, hr', done, subnet, more, hother, hcut⟩⟩ :=
          ih htaken (addBlock blocks address)
        · refine ⟨l', .inl ⟨hr', ?_⟩⟩
          rwa [hnear, ← List.append_assoc]
        · refine ⟨l', .inr ⟨address :: seen, other, rest, rfl, hr', done, subnet, more, hother, ?_⟩⟩
          rwa [hnear, ← List.append_assoc before]
      · rw [hr]
        refine ⟨l₁, .inr ⟨[], address, observed, rfl, rfl, done, subnet, more, hmore, ?_⟩⟩
        rwa [nearTour, List.flatMap_nil, List.append_nil]

/-- What stands in a list, and not behind one of its members. -/
theorem mem_of_not_beyond {α : Type} {seen rest before after : List α} {a b : α}
    (h : seen ++ a :: rest = before ++ b :: after) (hnot : ∀ mid, before ≠ seen ++ a :: mid) : b ∈ seen ++ [a] := by
  rcases List.append_eq_append_iff.mp h with ⟨mid, rfl, hmid⟩ | ⟨mid, rfl, hmid⟩
  · cases mid with
    | nil =>
      obtain ⟨rfl, -⟩ := List.cons.inj hmid
      exact List.mem_append_right _ List.mem_cons_self
    | cons c mid =>
      obtain ⟨rfl, -⟩ := List.cons.inj hmid
      exact absurd rfl (hnot mid)
  · cases mid with
    | nil =>
      obtain ⟨rfl, -⟩ := List.cons.inj hmid
      exact List.mem_append_right _ List.mem_cons_self
    | cons c mid =>
      obtain ⟨rfl, -⟩ := List.cons.inj hmid
      exact List.mem_append_left _ (List.mem_append_right _ List.mem_cons_self)

/-- What the blocks are, if every observed address is looked at. -/
theorem mem_blocks_of_short (hshort : (unknownGateways known (nearTour observed)).card < max limit 1)
    (block : Ipv4Net) :
    block ∈ observed.foldl addBlock [] ↔
      ∃ address, LooksAt known limit observed address ∧ enclosingPrivateBlock address = some block := by
  have hlooks : ∀ address, LooksAt known limit observed address ↔ address ∈ observed := by
    intro address
    constructor
    · rintro ⟨seen, rest, rfl, -⟩
      exact List.mem_append_right _ List.mem_cons_self
    · intro haddress
      obtain ⟨seen, rest, rfl⟩ := List.append_of_mem haddress
      refine ⟨seen, rest, rfl, lt_of_le_of_lt (Finset.card_le_card (unknownGateways_mono fun subnet hs => ?_)) hshort⟩
      rw [nearTour, List.flatMap_append]
      exact List.mem_append_left _ hs
  rw [mem_foldl_addBlock, or_iff_right List.not_mem_nil]
  exact exists_congr fun address => and_congr_left fun _ => (hlooks address).symm

/-- What the blocks are, if the list is filled within the neighbourhood of an address. -/
theorem mem_blocks_of_cut {seen rest : List Ipv4Addr} {address : Ipv4Addr} {l : Listing} {done more : List Ipv4Net}
    {subnet : Ipv4Net} (hmore : around address = done ++ subnet :: more)
    (hcut : l.CutAt known limit (nearTour seen ++ done) subnet) (block : Ipv4Net) :
    block ∈ (seen ++ [address]).foldl addBlock [] ↔
      ∃ a, LooksAt known limit (seen ++ address :: rest) a ∧ enclosingPrivateBlock a = some block := by
  have hlooks : ∀ a, LooksAt known limit (seen ++ address :: rest) a ↔ a ∈ seen ++ [address] := by
    intro a
    constructor
    · rintro ⟨seen', rest', heq, hshort⟩
      refine mem_of_not_beyond heq ?_
      rintro mid rfl
      -- After the address that filled the list, nothing is looked at.
      refine absurd (hcut.le_card fun s hs => ?_) (Nat.not_le_of_lt hshort)
      rw [nearTour, List.flatMap_append, List.flatMap_cons, hmore]
      simp only [List.mem_append, List.mem_cons, List.not_mem_nil, or_false] at hs ⊢
      tauto
    · intro ha
      rcases List.mem_append.mp ha with ha | ha
      · obtain ⟨before, after, rfl⟩ := List.append_of_mem ha
        refine ⟨before, after ++ address :: rest, by rw [List.append_assoc, List.cons_append], ?_⟩
        refine lt_of_le_of_lt (Finset.card_le_card (unknownGateways_mono fun s hs => ?_)) hcut.short
        rw [nearTour, List.flatMap_append]
        exact List.mem_append_left _ (List.mem_append_left _ hs)
      · obtain rfl := List.mem_singleton.mp ha
        refine ⟨seen, rest, rfl, lt_of_le_of_lt (Finset.card_le_card ?_) hcut.short⟩
        exact unknownGateways_mono fun s hs => List.mem_append_left _ hs
  rw [mem_foldl_addBlock, or_iff_right List.not_mem_nil]
  exact exists_congr fun a => and_congr_left fun _ => (hlooks a).symm

theorem mem_sortBlocks {block : Ipv4Net} : block ∈ sortBlocks blocks ↔ block ∈ blocks := List.mem_insertionSort _

theorem perm_sortBlocks : (sortBlocks blocks).Perm blocks := List.perm_insertionSort _ blocks

end Tour

/-- **What the candidate list is.** The `/24`s of the tour are looked into until it ends or the list is full, and the
blocks counted are those of the addresses looked at. -/
theorem listing_spec (known : Finset Ipv4Addr) (limit : Nat) (observed : List Ipv4Addr) :
    ∃ l blocks, candidatesWithCoverage known limit observed = (l.ordered, coverage l.subnets blocks) ∧
      (Listing.Taken known limit (tour known limit observed) l ∨
        ∃ done subnet rest, tour known limit observed = done ++ subnet :: rest ∧ l.CutAt known limit done subnet) ∧
      blocks.Nodup ∧ ∀ block, block ∈ blocks ↔
        ∃ address, LooksAt known limit observed address ∧ enclosingPrivateBlock address = some block := by
  unfold candidatesWithCoverage
  obtain ⟨l, ⟨hr, htaken⟩ | ⟨seen, address, rest, rfl, hr, done, subnet, more, hmore, hcut⟩⟩ :=
    (@Listing.taken_new known limit).takeNearby observed []
  · rw [hr]
    rw [List.nil_append] at htaken
    have hcard := htaken.card
    have hblocks := mem_blocks_of_short (hcard ▸ htaken.short : (unknownGateways known (nearTour observed)).card < _)
    have hnodup : (sortBlocks (observed.foldl addBlock [])).Nodup :=
      perm_sortBlocks.nodup_iff.mpr (nodup_foldl_addBlock List.nodup_nil)
    dsimp only
    split
    case isTrue hnone =>
      refine ⟨l, _, rfl, .inl ?_, hnodup, fun block => mem_sortBlocks.trans (hblocks block)⟩
      rwa [tour, hcard, if_pos hnone, List.append_nil]
    case isFalse hsome =>
      rw [Listing.takeSamples_eq]
      obtain ⟨l', ⟨hr', htaken'⟩ | ⟨hr', done, subnet, rest, hdone, hcut⟩⟩ := htaken.takeAll _
      · rw [hr']
        refine ⟨l', _, rfl, .inl ?_, hnodup, fun block => mem_sortBlocks.trans (hblocks block)⟩
        rwa [tour, hcard, if_neg hsome]
      · rw [hr']
        refine ⟨l', _, rfl, .inr ⟨_, subnet, rest, ?_, hcut⟩, hnodup, fun block => mem_sortBlocks.trans (hblocks block)⟩
        rw [tour, hcard, if_neg hsome, hdone, List.append_assoc]
  · rw [hr]
    rw [List.nil_append] at hcut
    obtain ⟨samples, htour⟩ : ∃ samples, tour known limit (seen ++ address :: rest) =
        nearTour (seen ++ address :: rest) ++ samples := ⟨_, rfl⟩
    refine ⟨l, _, rfl, .inr ⟨_, subnet, more ++ (nearTour rest ++ samples), ?_, hcut⟩,
      nodup_foldl_addBlock List.nodup_nil, mem_blocks_of_cut hmore hcut⟩
    rw [htour, nearTour, List.flatMap_append, List.flatMap_cons, hmore]
    simp only [nearTour, List.append_assoc, List.cons_append]

/-! ## What is listed -/

theorem mem_tour {known : Finset Ipv4Addr} {limit : Nat} {observed : List Ipv4Addr} {subnet : Ipv4Net}
    (h : subnet ∈ tour known limit observed) :
    ∃ address ∈ observed, ∃ block ∈ privateBlocks, block.contains address = true ∧ subnet ∈ block.subnets 24 := by
  rcases List.mem_append.mp h with h | h
  · obtain ⟨address, haddress, haround⟩ := List.mem_flatMap.mp h
    unfold around at haround
    cases hblock : enclosingPrivateBlock address with
    | none =>
      rw [hblock] at haround
      cases haround
    | some block =>
      rw [hblock] at haround
      obtain ⟨hprivate, hcontains⟩ := enclosingPrivateBlock_eq_some hblock
      exact ⟨address, haddress, block, hprivate, hcontains, mem_neighbourhoods hprivate haround⟩
  · split at h
    case isTrue => cases h
    case isFalse =>
      obtain ⟨block, hin, hsample⟩ := List.mem_flatMap.mp h
      obtain ⟨address, haddress, hblock⟩ :=
        (mem_foldl_addBlock.mp (mem_sortBlocks.mp hin)).resolve_left List.not_mem_nil
      obtain ⟨hprivate, hcontains⟩ := enclosingPrivateBlock_eq_some hblock
      exact ⟨address, haddress, block, hprivate, hcontains, mem_sampleOf hsample⟩

/-- A full list holds addresses of the tour. -/
theorem Listing.CutAt.mem_tour {known : Finset Ipv4Addr} {limit : Nat} {observed : List Ipv4Addr} {l : Listing}
    {done rest : List Ipv4Net} {subnet : Ipv4Net} (h : l.CutAt known limit done subnet)
    (htour : tour known limit observed = done ++ subnet :: rest) :
    ∀ a ∈ l.ordered, a ∈ unknownGateways known (tour known limit observed) := by
  intro a ha
  refine unknownGateways_mono (fun s hs => ?_) (h.upper a ha)
  rw [htour]
  simp only [List.mem_append, List.mem_cons, List.not_mem_nil, or_false] at hs ⊢
  tauto

/-- The address may be asked: it is not known, and a gateway in the private block of one of these addresses. -/
def MayAsk (known : Finset Ipv4Addr) (addresses : Set Ipv4Addr) (a : Ipv4Addr) : Prop :=
  a ∉ known ∧ ∃ block ∈ privateBlocks, (∃ address ∈ addresses, block.contains address = true) ∧ IsGateway block a

theorem mayAsk_of_tour {known : Finset Ipv4Addr} {limit : Nat} {observed : List Ipv4Addr} {a : Ipv4Addr}
    (h : a ∈ unknownGateways known (tour known limit observed)) : MayAsk known {address | address ∈ observed} a := by
  obtain ⟨hknown, subnet, hsubnet, host, hhost, rfl⟩ := mem_unknownGateways.mp h
  obtain ⟨address, haddress, block, hprivate, hcontains, hin⟩ := mem_tour hsubnet
  exact ⟨hknown, block, hprivate, ⟨address, haddress, hcontains⟩, subnet, hin, host, hhost, rfl⟩

/-- **The candidates** may be asked, and are listed once. -/
theorem candidates_sound (known : Finset Ipv4Addr) (limit : Nat) (observed : List Ipv4Addr) :
    (candidatesWithCoverage known limit observed).1.Nodup ∧
      ∀ a ∈ (candidatesWithCoverage known limit observed).1, MayAsk known {address | address ∈ observed} a := by
  obtain ⟨l, blocks, hlist, hend, -⟩ := listing_spec known limit observed
  rw [hlist]
  rcases hend with htaken | ⟨done, subnet, rest, htour, hcut⟩
  · exact ⟨htaken.nodup, fun a ha => mayAsk_of_tour ((htaken.mem a).mp ha)⟩
  · exact ⟨hcut.nodup, fun a ha => mayAsk_of_tour (hcut.mem_tour htour a ha)⟩

/-- **How many candidates there are**: those of the tour, up to the limit. -/
theorem length_candidates (known : Finset Ipv4Addr) (limit : Nat) (observed : List Ipv4Addr) :
    (∀ a ∈ (candidatesWithCoverage known limit observed).1, a ∈ unknownGateways known (tour known limit observed)) ∧
      (candidatesWithCoverage known limit observed).1.length =
        min (unknownGateways known (tour known limit observed)).card (max limit 1) := by
  obtain ⟨l, blocks, hlist, hend, -⟩ := listing_spec known limit observed
  rw [hlist]
  rcases hend with htaken | ⟨done, subnet, rest, htour, hcut⟩
  · refine ⟨fun a ha => (htaken.mem a).mp ha, ?_⟩
    rw [htaken.card, min_eq_left htaken.short.le]
  · refine ⟨hcut.mem_tour htour, ?_⟩
    have hall : max limit 1 ≤ (unknownGateways known (tour known limit observed)).card := by
      refine hcut.le_card fun s hs => ?_
      rw [htour]
      simp only [List.mem_append, List.mem_cons, List.not_mem_nil, or_false] at hs ⊢
      tauto
    rw [min_eq_right hall, hcut.full]

end Idnx
