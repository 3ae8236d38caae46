import QueryPath.Proofs.Catalog.Agreement

/-!
# One hierarchy of entities

Above an entity the domain model has entities and mapped supertypes, in any order, the metamodel
has entities alone. Both have the same entities there, in the same order (`lineage_eq`): the
lineage of a descriptor is what is left of the chain of its type without the mapped supertypes. So
the two agree on subtypes, on what stands directly above an entity, and on what stands at the top.
-/

namespace QueryPath

open Logical (TypeId)

/-- The name of the entity at a position. -/
def Logical.Draft.entityName? (d : Logical.Draft) (id : TypeId) : Option String :=
  match d.typeAt? id with
  | some (.entity n _ _ _) => some n
  | _ => none

theorem Logical.Draft.entityName?_eq_some {d : Logical.Draft} {id : TypeId} {n : String} :
    d.entityName? id = some n ↔ ∃ as s b, d.typeAt? id = some (.entity n as s b) := by
  unfold entityName?
  split
  · rename_i m as s b ht
    simp [ht]
  · rename_i hne
    constructor
    · intro h
      cases h
    · rintro ⟨as, s, b, ht⟩
      exact absurd ht (hne n as s b)

/-- The descriptor is the one of the entity at a position of the domain model. -/
structure Catalog.Describes (c : Catalog) (x : Physical.Entity) (id : TypeId) : Prop where
  name : c.logical.entityName? id = some x.name
  found : c.metamodel.entity? x.name = some x

/-- The domain model and the metamodel of a catalog have the same hierarchy of entities. -/
structure Catalog.SameHierarchy (c : Catalog) : Prop where
  type : ∀ x ∈ c.metamodel.entities, ∃ id, c.Describes x id
  descriptor : ∀ id n, c.logical.entityName? id = some n → ∃ x, x.name = n ∧ c.Describes x id
  isSubtype : ∀ x i y j, c.Describes x i → c.Describes y j →
    c.metamodel.isSubtype x y = c.logical.isSubtype i j
  /-- Directly above an entity stands the next entity on the chain, if there is one. -/
  supertype : ∀ x i, c.Describes x i →
    x.supertype = (c.logical.chain i).tail.findSome? c.logical.entityName?
  /-- An entity is listed once below the one that stands directly above it, and nowhere else. -/
  subtypes : ∀ x i y j, c.Describes x i → c.Describes y j →
    y.subtypes.count x.name = if x.supertype = some y.name then 1 else 0
  /-- The walk along the supertypes of an entity comes to an end. -/
  lineage : ∀ x i, c.Describes x i →
    Walk c.metamodel.supertypeOf? x.name ((c.metamodel.lineage x).map (·.name))
  /-- The root of an entity is the first entity from the other end of the chain. -/
  root : ∀ x i, c.Describes x i →
    (c.logical.chain i).reverse.findSome? c.logical.entityName?
      = some (c.metamodel.rootOf x).name ∧
    c.metamodel.entity? (c.metamodel.rootOf x).name = some (c.metamodel.rootOf x)

namespace Catalog.MadeFrom

open Definition (Attribute)
open Physical (Metamodel)

variable {c : Catalog} {d : Definition Attribute} {uses : Definition.Uses}
  (made : c.MadeFrom d uses)

include made

/-! ## Chains without mapped supertypes -/

/-- A type is an entity if its name is that of an entity. -/
theorem entityName?_eq {n : String} {id : TypeId} (hid : c.logical.find? n = some id) :
    c.logical.entityName? id = if (d.entity? n).isSome then some n else none := by
  obtain ⟨t, ht, -, hname⟩ := made.drafted.typeAt?_of_find? hid
  cases he : d.entity? n with
  | some e =>
    obtain ⟨hmem, rfl⟩ := Definition.entity?_mem he
    obtain ⟨as, s, b, ht'⟩ := (made.hasKind_entity hmem hid none).entity
    rw [Logical.Draft.entityName?, ht']
    rfl
  | none =>
    rw [Logical.Draft.entityName?, ht]
    cases t with
    | entity n' as s b =>
      obtain ⟨-, e, hmem, rfl⟩ := made.exists_entity_of_typeAt? ht
      obtain rfl : e.name = n := Option.some.inj hname
      rw [Definition.entity?_of_mem made.checked.nodup_typeNames hmem] at he
      cases he
    | basic | any | embeddable | mappedSupertype | tuple => rfl

/-- The walk along the entities is the walk along all names, with those of entities left. -/
theorem filter_eq {n : String} {names : List String}
    (hnames : Walk c.metamodel.supertypeOf? n names) {e : Definition.Entity Attribute}
    (he : e ∈ d.entities) (hn : e.name = n) {l : List String}
    (hl : Walk d.supertypeOf? e.name l) : l.filter (fun n => (d.entity? n).isSome) = names := by
  have nodup := made.checked.nodup_typeNames
  -- from one entity to the next there are only mapped supertypes
  have segment : ∀ {e : Definition.Entity Attribute}, e ∈ d.entities →
      (∀ x ∈ d.flattened e, x ∈ d.mappedSupertypes) → ∀ rest : List String,
      (e.name :: (d.flattened e).reverse.map (·.name) ++ rest).filter
        (fun n => (d.entity? n).isSome) =
        e.name :: rest.filter fun n => (d.entity? n).isSome := by
    intro e he hmapped rest
    have hnone : ((d.flattened e).reverse.map (·.name)).filter
        (fun n => (d.entity? n).isSome) = [] := by
      refine List.filter_eq_nil_iff.2 fun n hn => ?_
      obtain ⟨x, hx, rfl⟩ := List.mem_map.1 hn
      rw [Definition.entity?_of_mappedSupertype nodup (hmapped x (List.mem_reverse.1 hx))]
      exact Bool.false_ne_true
    rw [List.cons_append, List.filter_cons_of_pos (by rw [Definition.entity?_of_mem nodup he]; rfl),
      List.filter_append, hnone, List.nil_append]
  induction hnames generalizing e l with
  | stop hstop =>
    obtain ⟨rest, hl', hmapped, hnext⟩ :=
      Definition.exists_segments made.checked.wellNamed made.acyclic he
    rw [← hn, made.supertypeOf?_eq he, Option.map_eq_none_iff] at hstop
    rw [hstop] at hnext
    rw [hl.unique hl', segment he hmapped, hnext, List.filter_nil, hn]
  | step hstep _ ih =>
    obtain ⟨rest, hl', hmapped, hnext⟩ :=
      Definition.exists_segments made.checked.wellNamed made.acyclic he
    rw [← hn, made.supertypeOf?_eq he, Option.map_eq_some_iff] at hstep
    obtain ⟨p, hp, hpn⟩ := hstep
    rw [hp] at hnext
    rw [hl.unique hl', segment he hmapped, ih hnext.1 hpn hnext.2, hn]

section Describes

variable {x y : Physical.Entity} {i j : TypeId} (hx : c.Describes x i)

include hx

theorem find?_of_describes :
    c.logical.find? x.name = some i ∧ ∃ e ∈ d.entities, e.name = x.name := by
  obtain ⟨as, s, b, ht⟩ := Logical.Draft.entityName?_eq_some.1 hx.name
  exact made.exists_entity_of_typeAt? ht

/-- The lineage of an entity holds the entities of its chain. -/
theorem lineage_eq :
    (c.metamodel.lineage x).map (·.name) = (c.logical.chain i).filterMap c.logical.entityName? := by
  obtain ⟨hid, e, he, hn⟩ := made.find?_of_describes hx
  obtain ⟨l, hl⟩ := made.exists_chain he
  obtain ⟨hnames, -⟩ := made.walk_lineage hx.found
  rw [← made.filter_eq hnames he hn hl]
  have hchain := made.chain_eq (hn ▸ hid) hl
  generalize c.logical.chain i = ids at hchain
  clear hl hnames
  induction hchain with
  | nil => rfl
  | cons hab _ ih =>
    rw [List.filterMap_cons, List.filter_cons, made.entityName?_eq hab, ih]
    split
    · rfl
    · rfl

theorem isSubtype_eq (hy : c.Describes y j) :
    c.metamodel.isSubtype x y = c.logical.isSubtype i j := by
  rw [Bool.eq_iff_iff, Metamodel.isSubtype_iff, Logical.Draft.isSubtype, List.contains_iff_mem,
    made.lineage_eq hx, List.mem_filterMap]
  constructor
  · rintro ⟨k, hk, hky⟩
    obtain ⟨as, s, b, ht⟩ := Logical.Draft.entityName?_eq_some.1 hky
    have hfind := (made.exists_entity_of_typeAt? ht).1
    rw [(made.find?_of_describes hy).1, Option.some.injEq] at hfind
    exact hfind ▸ hk
  · intro hj
    exact ⟨j, hj, hy.name⟩

theorem supertype_eq :
    x.supertype = (c.logical.chain i).tail.findSome? c.logical.entityName? := by
  obtain ⟨hid, -⟩ := made.find?_of_describes hx
  obtain ⟨ids, hids⟩ := (made.regular.walk_chain (Logical.Draft.lt_of_find? hid)).head
  obtain ⟨hnames, -⟩ := made.walk_lineage hx.found
  have hsuper : c.metamodel.supertypeOf? x.name = x.supertype := by
    rw [Metamodel.supertypeOf?, hx.found, Option.bind_some]
  rw [made.lineage_eq hx, hids, List.filterMap_cons_some hx.name] at hnames
  rw [hids, List.tail_cons, ← List.head?_filterMap]
  generalize List.filterMap c.logical.entityName? ids = above at hnames
  cases hnames with
  | stop hstop => rw [← hsuper, hstop, List.head?_nil]
  | step hstep hwalk =>
    obtain ⟨rest, rfl⟩ := hwalk.head
    rw [← hsuper, hstep, List.head?_cons]

theorem count_subtypes (hy : c.Describes y j) :
    y.subtypes.count x.name = if x.supertype = some y.name then 1 else 0 := by
  obtain ⟨-, e, he, hn⟩ := made.find?_of_describes hx
  obtain ⟨-, f, hf, hfn⟩ := made.find?_of_describes hy
  obtain ⟨x', hx', hxs⟩ := made.entity_stored he
  obtain ⟨y', hy', hys⟩ := made.entity_stored hf
  rw [hn, hx.found, Option.some.injEq] at hx'
  rw [hfn, hy.found, Option.some.injEq] at hy'
  subst hx' hy'
  have nodup := Definition.nodup_entities made.checked.nodup_typeNames
  have hbelow : (d.below d.entities f.name).Nodup :=
    (List.filter_sublist.map _).nodup nodup
  rw [hys.subtypes, hbelow.count, hxs.supertype, ← hn, ← hfn]
  refine if_congr ?_ rfl rfl
  simp only [Definition.below, List.mem_map, List.mem_filter, beq_iff_eq]
  constructor
  · rintro ⟨e', ⟨he', hnear⟩, hname⟩
    rwa [List.inj_on_of_nodup_map nodup he' he hname] at hnear
  · intro hnear
    exact ⟨e, ⟨he, hnear⟩, rfl⟩

theorem rootOf_eq : (c.logical.chain i).reverse.findSome? c.logical.entityName?
      = some (c.metamodel.rootOf x).name ∧
    c.metamodel.entity? (c.metamodel.rootOf x).name = some (c.metamodel.rootOf x) := by
  obtain ⟨hnames, hall⟩ := made.walk_lineage hx.found
  obtain ⟨names, hhead⟩ := hnames.head
  obtain ⟨r, hr⟩ : ∃ r, (c.metamodel.lineage x).getLast? = some r := by
    cases hlast : (c.metamodel.lineage x).getLast? with
    | some r => exact ⟨r, rfl⟩
    | none =>
      rw [List.getLast?_eq_none_iff.1 hlast] at hhead
      cases hhead
  rw [Metamodel.rootOf, hr, Option.getD_some, ← List.getLast?_filterMap, ← made.lineage_eq hx,
    List.getLast?_map, hr]
  exact ⟨rfl, hall r (List.mem_of_getLast? hr)⟩

end Describes

theorem exists_describes {n : String} {id : TypeId} (hn : c.logical.entityName? id = some n) :
    ∃ x, x.name = n ∧ c.Describes x id := by
  obtain ⟨as, s, b, ht⟩ := Logical.Draft.entityName?_eq_some.1 hn
  obtain ⟨x, hx⟩ := made.exists_entity.2 (made.exists_entity_of_typeAt? ht).2
  obtain rfl := Metamodel.entity?_name hx
  exact ⟨x, rfl, hn, hx⟩

theorem exists_describes_of_mem {x : Physical.Entity} (hx : x ∈ c.metamodel.entities) :
    ∃ id, c.Describes x id := by
  have hfound := made.entity?_of_mem hx
  obtain ⟨e, he, hn⟩ := made.exists_entity.1 ⟨x, hfound⟩
  obtain ⟨id, as, s, b, ht⟩ := made.typeAt?_entity he
  exact ⟨id, Logical.Draft.entityName?_eq_some.2 ⟨as, s, b, hn ▸ ht⟩, hfound⟩

end Catalog.MadeFrom

namespace Catalog

open Definition (RawAttribute)

/-- Both models of a catalog have the same hierarchy of entities. -/
theorem sameHierarchy_of_ofDefinition {raw : Definition RawAttribute} {c : Catalog}
    (h : ofDefinition raw = .ok c) : c.SameHierarchy := by
  obtain ⟨d, uses, -, -, made⟩ := exists_madeFrom h
  exact {
    type := fun x hx => made.exists_describes_of_mem hx
    descriptor := fun id n hn => made.exists_describes hn
    isSubtype := fun x i y j hx hy => made.isSubtype_eq hx hy
    supertype := fun x i hx => made.supertype_eq hx
    subtypes := fun x i y j hx hy => made.count_subtypes hx hy
    lineage := fun x i hx => (made.walk_lineage hx.found).1
    root := fun x i hx => made.rootOf_eq hx }

/-- Silent auctions are auctions, by way of a type that is no entity. -/
def sealedAuctions : Definition RawAttribute where
  mappedSupertypes := [⟨"Sealed", some "Auction", []⟩]
  entities := [
    { name := "Auction", table := some "auctions" },
    { name := "SilentAuction", supertype := some "Sealed" }]

set_option maxRecDepth 100000 in
theorem sameHierarchy_sealedAuctions :
    ∃ c, ofDefinition sealedAuctions = .ok c ∧ c.SameHierarchy := by
  obtain ⟨c, hc, -⟩ : ∃ c, ofDefinition sealedAuctions = .ok c ∧ true = true :=
    exists_ok_of_any (by decide +kernel)
  exact ⟨c, hc, sameHierarchy_of_ofDefinition hc⟩

end Catalog

end QueryPath
