import QueryPath.Proofs.Definition.Outline
import QueryPath.Proofs.Physical.Metamodel

/-!
# Links between entities

A metamodel is made by calls, one after the other (`Metamodel.run`); a call that fails leaves it as
it is. The link from an entity to the one above it is kept at both ends, and a call that puts an
entity under another writes to both: the lower end is set anew, while the upper end only takes note
of one more entity below it. No call takes anything off a list of subtypes. So of all links that
were ever asked for, the last is the one that an entity has, and each entity lists those that lead
up to it (`Metamodel.Linked`):

| calls                                 | above `S` | listed below `A` | listed below `B` |
|---------------------------------------|-----------|------------------|------------------|
| `S` under `A`                         | `A`       | `S`              |                  |
| `S` under `A`, then `S` under `B`     | `B`       | `S`              | `S`              |
| `S` under `A` twice                   | `A`       | `S`, `S`         |                  |

The two ends agree exactly if no entity was put under another more than once.
-/

namespace QueryPath.Physical.Metamodel

/-! ## Calls -/

/-- What can be asked of a metamodel while it is made. -/
inductive Call where
  | declareEntity (name table : String)
  | setSupertype (name supertype : String)
  | setIdentifier (name : String) (column : Column)
  | setDiscriminator (name : String) (d : Discriminator)
  | addMapping (name : String) (mapping : Mapping)
  | addUsage (role embeddable table : String)
  | addUsageMapping (id : UsageId) (mapping : Mapping)
deriving DecidableEq, Repr

namespace Call

/-- The metamodel behind a call that succeeds. -/
def apply (m : Metamodel) : Call → Except Error Metamodel
  | declareEntity n table => m.declareEntity n table
  | setSupertype n s => m.setSupertype n s
  | setIdentifier n column => m.setIdentifier n column
  | setDiscriminator n d => m.setDiscriminator n d
  | addMapping n mapping => m.addMapping n mapping
  | addUsage role embeddable table => .ok (m.addUsage role embeddable table).2
  | addUsageMapping id mapping => m.addUsageMapping id mapping

/-- The entities that a call writes to, which have to be there. -/
def refersTo : Call → List String
  | setSupertype n s => [n, s]
  | setIdentifier n _ | setDiscriminator n _ | addMapping n _ => [n]
  | declareEntity _ _ | addUsage _ _ _ | addUsageMapping _ _ => []

/-- The entity that a call puts under another, and that other one. -/
def link? : Call → Option (String × String)
  | setSupertype n s => some (n, s)
  | _ => none

end Call

/-- The metamodel behind a call. -/
def next (m : Metamodel) (c : Call) : Metamodel :=
  match c.apply m with
  | .ok m' => m'
  | .error _ => m

/-- The metamodel behind some calls. -/
def run (m : Metamodel) (calls : List Call) : Metamodel := calls.foldl next m

/-- Each call writes to entities that are known by then. -/
def Issued : Metamodel → List Call → Prop
  | _, [] => True
  | m, c :: calls => (∀ n ∈ c.refersTo, n ∈ m.entityNames) ∧ Issued (m.next c) calls

instance decidableIssued : (m : Metamodel) → (calls : List Call) → Decidable (Issued m calls)
  | _, [] => .isTrue trivial
  | m, c :: calls =>
    have := decidableIssued (m.next c) calls
    inferInstanceAs (Decidable (_ ∧ _))

/-! ## Both ends of the links -/

/-- The upper end of the last link from an entity. -/
def lastAbove (links : List (String × String)) (n : String) : Option String :=
  (links.filter (·.1 == n)).getLast?.map (·.2)

/-- The lower ends of all links to an entity. -/
def allBelow (links : List (String × String)) (n : String) : List String :=
  (links.filter (·.2 == n)).map (·.1)

section Ends

variable {links : List (String × String)} {k n s : String}

theorem lastAbove_concat :
    lastAbove (links ++ [(n, s)]) k = if k = n then some s else lastAbove links k := by
  rw [lastAbove, List.filter_append, lastAbove]
  by_cases h : k = n
  · simp [h]
  · simp [h, Ne.symm h]

theorem allBelow_concat :
    allBelow (links ++ [(n, s)]) k =
      if s = k then allBelow links k ++ [n] else allBelow links k := by
  rw [allBelow, List.filter_append, List.map_append, allBelow]
  by_cases h : s = k
  · simp [h]
  · simp [h]

theorem count_allBelow : (allBelow links s).count n = links.count (n, s) := by
  rw [allBelow, List.count_eq_countP, List.countP_map, List.countP_filter, List.count_eq_countP]
  refine List.countP_congr fun l _ => ?_
  obtain ⟨x, y⟩ := l
  simp

theorem count_eq_count_filter : links.count (n, s) = (links.filter (·.1 == n)).count (n, s) :=
  (List.count_filter (by simp)).symm

theorem nodup_fst_iff :
    (links.map (·.1)).Nodup ↔ ∀ n, (links.filter (·.1 == n)).length ≤ 1 := by
  rw [List.nodup_iff_count_le_one]
  refine forall_congr' fun n => ?_
  rw [List.count_eq_countP, List.countP_map, List.countP_eq_length_filter]
  rfl

end Ends

/-- Entities are linked as `links` says, in which an entity that was put under another stands before
that one. -/
structure Linked (links : List (String × String)) (m : Metamodel) : Prop where
  nodup : m.entityNames.Nodup
  known : ∀ l ∈ links, l.1 ∈ m.entityNames ∧ l.2 ∈ m.entityNames
  entity : ∀ n ∈ m.entityNames, ∃ e, m.entity? n = some e ∧
    e.supertype = lastAbove links n ∧ e.subtypes = allBelow links n

namespace Linked

variable {m m' : Metamodel} {links : List (String × String)}

theorem empty : Linked [] {} where
  nodup := .nil
  known := nofun
  entity := nofun

/-- What changes neither names nor links. -/
theorem of_entity? (h : Linked links m) (hnames : m'.entityNames = m.entityNames)
    (hentity : ∀ n e, m.entity? n = some e → ∃ e', m'.entity? n = some e' ∧
      e'.supertype = e.supertype ∧ e'.subtypes = e.subtypes) : Linked links m' where
  nodup := hnames ▸ h.nodup
  known := hnames ▸ h.known
  entity n hn := by
    obtain ⟨e, he, hsuper, hsubs⟩ := h.entity n (hnames ▸ hn)
    obtain ⟨e', he', hsuper', hsubs'⟩ := hentity n e he
    exact ⟨e', he', hsuper'.trans hsuper, hsubs'.trans hsubs⟩

theorem modifyEntity (h : Linked links m) (name : String) {f : Entity → Entity}
    (hname : ∀ e, (f e).name = e.name) (hsuper : ∀ e, (f e).supertype = e.supertype)
    (hsubs : ∀ e, (f e).subtypes = e.subtypes) : Linked links (m.modifyEntity name f) := by
  refine h.of_entity? (entityNames_modifyEntity hname) fun n e he => ?_
  rw [entity?_modifyEntity hname, he, Option.map_some]
  refine ⟨_, rfl, ?_⟩
  split
  · exact ⟨hsuper e, hsubs e⟩
  · exact ⟨rfl, rfl⟩

/-- A new entity is not linked to any. -/
theorem declareEntity (h : Linked links m) {n table : String}
    (hm : m.declareEntity n table = .ok m') : Linked links m' := by
  unfold Metamodel.declareEntity at hm
  cases hn : m.entity? n with
  | some e =>
    rw [hn] at hm
    cases hm
  | none =>
    rw [hn] at hm
    cases hm
    have hnew : n ∉ m.entityNames := by
      rw [← entity?_isSome, hn]
      exact Bool.false_ne_true
    have hnames : ({ m with entities := m.entities ++ [{ name := n, table }] } :
        Metamodel).entityNames = m.entityNames ++ [n] := by
      rw [entityNames, List.map_append]
      rfl
    refine ⟨?_, fun l hl => ?_, fun k hk => ?_⟩
    · rw [hnames]
      exact List.nodup_append.2 ⟨h.nodup, List.nodup_singleton n, fun a ha b hb hab =>
        hnew (List.mem_singleton.1 hb ▸ hab ▸ ha)⟩
    · rw [hnames]
      exact ⟨List.mem_append_left _ (h.known l hl).1, List.mem_append_left _ (h.known l hl).2⟩
    · have hfind : ∀ k, ({ m with entities := m.entities ++ [{ name := n, table }] } :
          Metamodel).entity? k = (m.entity? k).or (if n = k then some { name := n, table }
            else none) := by
        intro k
        rw [Metamodel.entity?, List.find?_append, Metamodel.entity?]
        congr 1
        by_cases hnk : n = k <;> simp [hnk]
      rw [hnames, List.mem_append, List.mem_singleton] at hk
      rcases hk with hk | rfl
      · obtain ⟨e, he, hlinks⟩ := h.entity k hk
        exact ⟨e, by rw [hfind, he, Option.some_or], hlinks⟩
      · refine ⟨_, by rw [hfind, hn, if_pos rfl, Option.none_or], ?_, ?_⟩
        · have hnone : links.filter (·.1 == k) = [] := List.filter_eq_nil_iff.2 fun l hl hlk =>
            hnew (beq_iff_eq.1 hlk ▸ (h.known l hl).1)
          rw [lastAbove, hnone]
          rfl
        · have hnone : links.filter (·.2 == k) = [] := List.filter_eq_nil_iff.2 fun l hl hlk =>
            hnew (beq_iff_eq.1 hlk ▸ (h.known l hl).2)
          rw [allBelow, hnone]
          rfl

/-- One more link. -/
theorem setSupertype (h : Linked links m) {n s : String} (hn : n ∈ m.entityNames)
    (hs : s ∈ m.entityNames) :
    ∃ m', m.setSupertype n s = .ok m' ∧ Linked (links ++ [(n, s)]) m' := by
  obtain ⟨m', hm', hnames, -, hentity⟩ := Metamodel.setSupertype_spec hn hs
  refine ⟨m', hm', hnames ▸ h.nodup, fun l hl => ?_, fun k hk => ?_⟩
  · rw [hnames]
    rcases List.mem_append.1 hl with hl | hl
    · exact h.known l hl
    · rw [List.mem_singleton.1 hl]
      exact ⟨hn, hs⟩
  · obtain ⟨e, he, hsuper, hsubs⟩ := h.entity k (hnames ▸ hk)
    refine ⟨_, hentity k e he, ?_, ?_⟩
    · rw [lastAbove_concat, hsuper]
    · rw [allBelow_concat, hsubs]

theorem addMapping (h : Linked links m) {n : String} {mapping : Mapping}
    (hm : m.addMapping n mapping = .ok m') : Linked links m' := by
  obtain ⟨e, -, hm⟩ := bind_eq_ok.1 hm
  split at hm
  · cases hm
  · cases hm
    exact h.modifyEntity n (fun _ => rfl) (fun _ => rfl) fun _ => rfl

/-- A call that asks for no link leaves the links as they are. -/
theorem apply (h : Linked links m) {c : Call} (hc : c.link? = none) (hm : c.apply m = .ok m') :
    Linked links m' := by
  cases c with
  | setSupertype n s => cases hc
  | declareEntity n table => exact h.declareEntity hm
  | setIdentifier n column =>
    obtain ⟨m₁, hm₁, hm⟩ := bind_eq_ok.1 hm
    cases hm
    exact (h.addMapping hm₁).modifyEntity n (fun _ => rfl) (fun _ => rfl) fun _ => rfl
  | setDiscriminator n d =>
    obtain ⟨e, -, hm⟩ := bind_eq_ok.1 hm
    cases hm
    exact h.modifyEntity n (fun _ => rfl) (fun _ => rfl) fun _ => rfl
  | addMapping n mapping => exact h.addMapping hm
  | addUsage role embeddable table =>
    cases hm
    exact h.of_entity? rfl fun n e he => ⟨e, he, rfl, rfl⟩
  | addUsageMapping id mapping =>
    rw [Call.apply, Metamodel.addUsageMapping] at hm
    split at hm
    · cases hm
    · split at hm
      · cases hm
      · cases hm
        exact h.of_entity? rfl fun n e he => ⟨e, he, rfl, rfl⟩

/-- Each call adds the link that it asks for, and no other. -/
theorem next (h : Linked links m) {c : Call} (issued : ∀ n ∈ c.refersTo, n ∈ m.entityNames) :
    Linked (links ++ c.link?.toList) (m.next c) := by
  unfold Metamodel.next
  cases hc : c.link? with
  | none =>
    rw [Option.toList_none, List.append_nil]
    split
    · rename_i m' hm
      exact h.apply hc hm
    · exact h
  | some l =>
    cases c with
    | setSupertype n s =>
      cases hc
      obtain ⟨m', hm', hlinked⟩ := h.setSupertype (issued n (by simp [Call.refersTo]))
        (issued s (by simp [Call.refersTo]))
      rw [Call.apply, hm']
      exact hlinked
    | declareEntity | setIdentifier | setDiscriminator | addMapping | addUsage | addUsageMapping =>
      cases hc

theorem run (h : Linked links m) {calls : List Call} (issued : Issued m calls) :
    Linked (links ++ calls.filterMap Call.link?) (m.run calls) := by
  induction calls generalizing m links with
  | nil => rwa [List.filterMap_nil, List.append_nil]
  | cons c calls ih =>
    have hrest := ih (h.next issued.1) issued.2
    rw [List.filterMap_cons]
    cases hc : c.link? with
    | none => rwa [hc, Option.toList_none, List.append_nil] at hrest
    | some l => rwa [hc, Option.toList_some, List.append_assoc] at hrest

theorem entity_of_mem (h : Linked links m) {e : Entity} (he : e ∈ m.entities) :
    e.name ∈ m.entityNames ∧ e.supertype = lastAbove links e.name ∧
      e.subtypes = allBelow links e.name := by
  have hname : e.name ∈ m.entityNames := List.mem_map_of_mem he
  obtain ⟨x, hx, hlinks⟩ := h.entity e.name hname
  rw [show m.entity? e.name = some e from Definition.find?_of_mem h.nodup he,
    Option.some.injEq] at hx
  exact ⟨hname, hx ▸ hlinks⟩

end Linked

/-! ## Where both ends agree -/

/-- An entity is listed once below the one that stands above it, and nowhere else. -/
def HasInverseLinks (m : Metamodel) : Prop :=
  ∀ e ∈ m.entities, ∀ s ∈ m.entities,
    s.subtypes.count e.name = if e.supertype = some s.name then 1 else 0

instance (m : Metamodel) : Decidable m.HasInverseLinks := inferInstanceAs (Decidable (∀ _ ∈ _, _))

section Inverse

variable {m : Metamodel} {links : List (String × String)} (h : Linked links m)

include h

/-- Both ends of the only link from an entity agree. -/
theorem hasInverseLinks_of_nodup (nodup : (links.map (·.1)).Nodup) : m.HasInverseLinks := by
  intro e he s hs
  obtain ⟨-, hsuper, -⟩ := h.entity_of_mem he
  obtain ⟨-, -, hsubs⟩ := h.entity_of_mem hs
  have hlen := nodup_fst_iff.1 nodup e.name
  rw [hsubs, count_allBelow, count_eq_count_filter, hsuper, lastAbove]
  cases hfrom : links.filter (·.1 == e.name) with
  | nil => simp
  | cons l rest =>
    rw [hfrom, List.length_cons] at hlen
    obtain rfl : rest = [] := List.eq_nil_of_length_eq_zero (by omega)
    have hl : l.1 = e.name := by
      have hmem : l ∈ links.filter (·.1 == e.name) := hfrom ▸ List.mem_cons_self
      simpa using (List.mem_filter.1 hmem).2
    obtain ⟨n, u⟩ := l
    dsimp only at hl
    simp [hl, List.count_singleton]

/-- Of two links from an entity at most one is the last, and where that one is counted once there is
no other. -/
theorem nodup_of_hasInverseLinks (inverse : m.HasInverseLinks) : (links.map (·.1)).Nodup := by
  rw [nodup_fst_iff]
  intro n
  cases hlast : lastAbove links n with
  | none =>
    rw [lastAbove, Option.map_eq_none_iff, List.getLast?_eq_none_iff] at hlast
    simp [hlast]
  | some u =>
    -- each link from `n` is counted at its upper end, which is `u` for all of them
    have hall : ∀ l ∈ links.filter (·.1 == n), (n, u) = l ∧ links.count (n, u) = 1 := by
      intro l hl
      obtain ⟨hmem, hln⟩ := List.mem_filter.1 hl
      obtain ⟨x, y⟩ := l
      obtain rfl : x = n := by simpa using hln
      obtain ⟨hx, hy⟩ := h.known _ hmem
      obtain ⟨e, he, rfl⟩ := List.mem_map.1 hx
      obtain ⟨s, hs, rfl⟩ := List.mem_map.1 hy
      have hcount := inverse e he s hs
      rw [(h.entity_of_mem hs).2.2, count_allBelow, (h.entity_of_mem he).2.1, hlast] at hcount
      have hpos := List.count_pos_iff.2 hmem
      split at hcount
      · rename_i hu
        rw [Option.some.injEq] at hu
        exact ⟨by rw [hu], by rw [hu, hcount]⟩
      · omega
    obtain ⟨l, hl, -⟩ := Option.map_eq_some_iff.1 hlast
    have hone := (hall l (List.mem_of_getLast? hl)).2
    rw [count_eq_count_filter, List.count_eq_length.2 fun l hl => (hall l hl).1] at hone
    exact Nat.le_of_eq hone

end Inverse

/-- After any calls, an entity has the last link that was asked for it and lists all that lead up to
it. The two ends of links agree exactly if no entity was put under another more than once. -/
theorem hasInverseLinks_run_iff {calls : List Call} (issued : Issued {} calls) :
    (∀ e ∈ (run {} calls).entities,
      e.supertype = lastAbove (calls.filterMap Call.link?) e.name ∧
        e.subtypes = allBelow (calls.filterMap Call.link?) e.name) ∧
    ((run {} calls).HasInverseLinks ↔ ((calls.filterMap Call.link?).map (·.1)).Nodup) := by
  have linked := Linked.empty.run issued
  rw [List.nil_append] at linked
  refine ⟨fun e he => (linked.entity_of_mem he).2, fun inverse => ?_, fun nodup => ?_⟩
  · exact nodup_of_hasInverseLinks linked inverse
  · exact hasInverseLinks_of_nodup linked nodup

/-- Silent auctions are put under each of `above` in turn, and auctions under lots. -/
def silentAuctionUnder (above : List String) : List Call :=
  [.declareEntity "Auction" "auctions", .declareEntity "Lot" "lots",
    .declareEntity "SilentAuction" "auctions"] ++ above.map (.setSupertype "SilentAuction") ++
    [.setIdentifier "Auction" ⟨"id", "auctions", "id", .long⟩, .setSupertype "Auction" "Lot"]

theorem hasInverseLinks_silentAuction :
    Issued {} (silentAuctionUnder ["Auction"]) ∧
      (run {} (silentAuctionUnder ["Auction"])).HasInverseLinks ∧
      ∃ e ∈ (run {} (silentAuctionUnder ["Auction"])).entities, e.name = "SilentAuction" ∧
        e.supertype = some "Auction" := by
  have issued : Issued {} (silentAuctionUnder ["Auction"]) := by decide +kernel
  obtain ⟨-, hiff⟩ := hasInverseLinks_run_iff issued
  exact ⟨issued, hiff.2 (by decide +kernel), by decide +kernel⟩

/-- Where the entity above is set anew, the one that stood there before goes on listing the entity;
where the same one is set again, it lists the entity twice. -/
theorem not_hasInverseLinks_silentAuction :
    (Issued {} (silentAuctionUnder ["Lot", "Auction"]) ∧
      ¬ (run {} (silentAuctionUnder ["Lot", "Auction"])).HasInverseLinks) ∧
    Issued {} (silentAuctionUnder ["Lot", "Lot"]) ∧
      ¬ (run {} (silentAuctionUnder ["Lot", "Lot"])).HasInverseLinks := by
  decide +kernel

end QueryPath.Physical.Metamodel
