import QueryPath.Proofs.Catalog.Agreement
import QueryPath.Proofs.Logical.Identifiers

/-!
# Parts of collections

A path can name the elements of a collection, and the index or the ids if there are any. Whether
there are any is decided three times, from the classification or from what the definition gives
columns for:

| part       | classification asks for it | source is there       | mapping is there      |
|------------|----------------------------|-----------------------|-----------------------|
| elements   | always                     | always                | always                |
| index      | list, map                  | index is defined      | index is defined      |
| ids        | id-bag                     | id-bag                | id column is defined  |

The check of a definition makes sure of the columns that the classification asks for, and refuses no
others. So both sides have all parts that they should have (`SameCollections`), but a bag with an
index has one on both sides, and a bag with an id column has ids in the metamodel alone.
-/

namespace QueryPath

open Logical (PluralSource TypeId Source)
open Physical (Metamodel Mapping)

/-! ## Parts that a collection has -/

/-- The parts that collections of the classification have. -/
def Classification.hasPart (c : Classification) : PartNature → Bool
  | .element => true
  | .index => c.isIndexed
  | .identifier => c.hasIdentifier

namespace Definition.Plural

variable {ε : Type}

/-- The parts for which there are columns. -/
def hasColumn (q : Definition.Plural ε) : PartNature → Bool
  | .element => true
  | .index => q.index.isSome
  | .identifier => q.idColumn.isSome

/-- The parts for which there are sources. -/
def hasSource (q : Definition.Plural ε) : PartNature → Bool
  | .identifier => q.classification.hasIdentifier
  | n => q.hasColumn n

/-- There are columns for all parts that the classification asks for. -/
def Complete (q : Definition.Plural ε) : Prop :=
  ∀ n, q.classification.hasPart n = true → q.hasColumn n = true

end Definition.Plural

/-- The sources of a collection are those for its definition. -/
structure Logical.PluralSource.Offers (q : Definition.Plural Definition.Element)
    (p : PluralSource) : Prop where
  classification : p.classification = q.classification
  part : ∀ n, (p.part? n).isSome = q.hasSource n

/-- The mapping of a collection is the one for its definition. -/
structure Physical.Plural.Offers (q : Definition.Plural Definition.Element)
    (y : Physical.Plural) : Prop where
  classification : y.classification = q.classification
  part : ∀ n, (y.part? n).isSome = q.hasColumn n

section Offers

variable {q : Definition.Plural Definition.Element} {p : PluralSource} {y : Physical.Plural}
  (hp : p.Offers q) (hy : y.Offers q)

include hp hy

/-- The two sides have the same parts just if the definition has a column of ids for an id-bag, and
for no other collection. -/
theorem same_parts_iff : (∀ n, (p.part? n).isSome = (y.part? n).isSome) ↔
    q.idColumn.isSome = q.classification.hasIdentifier := by
  simp only [hp.part, hy.part]
  refine ⟨fun h => (h .identifier).symm, fun h n => ?_⟩
  cases n with
  | element | index => rfl
  | identifier => exact h.symm

/-- They have the parts that the classification asks for, and no others, just if the definition has
columns for no others. -/
theorem exact_parts_iff (complete : q.Complete) :
    (∀ n, (p.part? n).isSome = p.classification.hasPart n ∧
      (y.part? n).isSome = y.classification.hasPart n) ↔
    ∀ n, q.hasColumn n = true → q.classification.hasPart n = true := by
  simp only [hp.part, hy.part, hp.classification, hy.classification]
  refine ⟨fun h n hn => (h n).2 ▸ hn, fun h n => ?_⟩
  have hn : q.hasColumn n = q.classification.hasPart n := Bool.eq_iff_iff.2 ⟨h n, complete n⟩
  refine ⟨?_, hn⟩
  cases n with
  | element | index => exact hn
  | identifier => rfl

end Offers

/-- The mapping as that of a collection. -/
def Physical.Mapping.plural? : Mapping → Option Physical.Plural
  | .plural y => some y
  | .column _ | .embedded _ _ | .toOne _ | .any _ => none

theorem Physical.Mapping.plural?_eq_some {x : Mapping} {y : Physical.Plural} :
    x.plural? = some y ↔ x = .plural y := by
  cases x <;> simp [Mapping.plural?]

/-- The collection of that name among the mappings. -/
def Physical.plural? (xs : List Mapping) (name : String) : Option Physical.Plural :=
  (xs.filterMap (·.plural?)).find? (·.name == name)

theorem Physical.mem_of_plural? {xs : List Mapping} {name : String} {y : Physical.Plural}
    (h : Physical.plural? xs name = some y) : .plural y ∈ xs ∧ y.name = name := by
  obtain ⟨x, hx, hy⟩ := List.mem_filterMap.1 (List.mem_of_find?_eq_some h)
  rw [Mapping.plural?_eq_some.1 hy] at hx
  exact ⟨hx, by simpa using List.find?_some h⟩

theorem Physical.exists_plural? {xs : List Mapping} {y : Physical.Plural} (h : .plural y ∈ xs) :
    ∃ z, Physical.plural? xs y.name = some z := by
  have hmem : y ∈ xs.filterMap (·.plural?) := List.mem_filterMap.2 ⟨_, h, rfl⟩
  exact Option.isSome_iff_exists.1 (List.find?_isSome.2 ⟨y, hmem, beq_self_eq_true _⟩)

/-- An owner of mappings, with all mappings that it has: an entity has those of its lineage, a use
of an embeddable its own. -/
inductive Physical.Metamodel.Owns (m : Metamodel) : String → List Mapping → Prop
  | entity {x} : x ∈ m.entities → Owns m x.name ((m.lineage x).flatMap (·.mappings))
  | usage {u} : u ∈ m.usages → Owns m u.embeddable u.mappings

namespace Definition

/-- The collection is declared on the type, or on one above it. -/
def Declares (d : Definition Attribute) (typeName name : String) (q : Plural Element) : Prop :=
  ∃ l, Walk d.supertypeOf? typeName l ∧
    ∃ a ∈ l.flatMap d.members, a.name = name ∧ a.shape = .plural q

/-! ## Sources and mappings of one attribute -/

theorem Attribute.Becomes.exists_plural {m : Logical.Draft} {a : Attribute}
    {b : Logical.Attribute} (h : a.Becomes m b) {q : Plural Element} (hq : a.shape = .plural q) :
    ∃ index, b.nature = .plural q.classification index ∧ index.isSome = q.index.isSome ∧
      (q.classification = .idBag → (m.findBasic? .long).isSome = true) := by
  cases h with
  | plural _ hindex hlong =>
    cases hq
    refine ⟨_, rfl, ?_, fun hbag => ?_⟩
    · generalize q.index = i at hindex
      cases hindex <;> rfl
    · obtain ⟨t, ht⟩ := hlong (by rw [hbag]; rfl)
      rw [ht]
      rfl
  | basic | embedded | toOne | any => cases hq

/-- A plural attribute comes from a collection. -/
theorem Attribute.Becomes.exists_shape {m : Logical.Draft} {a : Attribute} {b : Logical.Attribute}
    (h : a.Becomes m b) {c : Classification} {index : Option TypeId}
    (hn : b.nature = .plural c index) : ∃ q, a.shape = .plural q := by
  cases h with
  | plural => exact ⟨_, rfl⟩
  | basic | embedded | toOne | any => cases hn

theorem Attribute.Stored.exists_plural {tableOf : String → String} {uses : Uses} {place : Place}
    {a : Attribute} {x : Mapping} (h : a.Stored tableOf uses place x) {q : Plural Element}
    (hq : a.shape = .plural q) :
    ∃ y : Physical.Plural, x = .plural y ∧ y.name = a.name ∧ y.Offers q := by
  cases h with
  | plural =>
    cases hq
    refine ⟨_, rfl, rfl, rfl, fun n => ?_⟩
    cases n with
    | element => rfl
    | index | identifier => exact Option.isSome_map ..
  | basic | embedded | toOne | any => cases hq

theorem Attribute.Stored.exists_shape {tableOf : String → String} {uses : Uses} {place : Place}
    {a : Attribute} {y : Physical.Plural} (h : a.Stored tableOf uses place (.plural y)) :
    ∃ q, a.shape = .plural q := by
  cases h
  exact ⟨_, rfl⟩

end Definition

/-- The sources of a collection have the parts that its definition makes. -/
theorem Logical.Model.offers_of_pluralSource {m : Logical.Model} {a : Logical.Attribute}
    {s : Source} {index : Option TypeId} {p : PluralSource}
    {q : Definition.Plural Definition.Element}
    (h : m.pluralSource a s q.classification index = .ok p)
    (hindex : index.isSome = q.index.isSome)
    (hlong : q.classification = .idBag → (m.findBasic? .long).isSome = true) : p.Offers q := by
  have hid := identified_of_pluralSource h
  obtain ⟨-, hc, -, hi, -⟩ := pluralSource_eq_ok.1 h
  refine ⟨hc, fun n => ?_⟩
  cases n with
  | element => rfl
  | index =>
    refine Eq.trans ?_ hindex
    change p.index.isSome = index.isSome
    generalize p.index = x at hi
    cases index_rel hi <;> rfl
  | identifier =>
    change p.identifier.isSome = q.classification.hasIdentifier
    rw [Bool.eq_iff_iff, hid.identifier, and_iff_left_of_imp hlong]
    cases q.classification <;> decide

namespace Catalog

open Definition (Attribute RawAttribute)

/-- The collections of a definition, inherited ones included, are those of the sources and those of
the mappings. -/
structure SameCollections (d : Definition Attribute) (c : Catalog) : Prop where
  managed : ∀ t xs, c.metamodel.Owns t xs → ∃ s, c.registry.managed? t = some s
  source : ∀ t s, c.registry.managed? t = some s → ∀ n,
    (∀ q, d.Declares t n q → ∃ p, c.registry.plural? s n = some p ∧ p.Offers q) ∧
      ∀ p, c.registry.plural? s n = some p → ∃ q, d.Declares t n q
  mapping : ∀ t xs, c.metamodel.Owns t xs → ∀ n,
    (∀ q, d.Declares t n q → ∃ y, Physical.plural? xs n = some y ∧ y.Offers q) ∧
      ∀ y, Physical.plural? xs n = some y → ∃ q, d.Declares t n q

namespace MadeFrom

variable {c : Catalog} {d : Definition Attribute} {uses : Definition.Uses}
  (made : c.MadeFrom d uses)

include made

theorem complete_of_declares {t n : String} {q : Definition.Plural Definition.Element}
    (h : d.Declares t n q) : q.Complete := by
  obtain ⟨l, -, a, ha, -, hq⟩ := h
  obtain ⟨owner, -, ha⟩ := List.mem_flatMap.1 ha
  have hcheck := made.checked.checkShape _ (Definition.mem_members.1 ha)
  rw [hq] at hcheck
  obtain ⟨-, -, hindex, hid⟩ := Definition.checkPlural_eq_ok.1 hcheck
  intro nature hpart
  cases nature with
  | element => rfl
  | index => exact hindex hpart
  | identifier => exact hid hpart

/-! ### Owners and their mappings -/

/-- The mappings of an owner store the attributes that are declared along its chain. -/
theorem exists_stored_of_owns {t : String} {xs : List Mapping} (h : c.metamodel.Owns t xs) :
    t ∈ d.typeNames ∧ ∃ l, Walk d.supertypeOf? t l ∧
      (∀ x ∈ xs, ∃ a ∈ l.flatMap d.members, ∃ place,
        a.Stored c.metamodel.tableOf uses place x) ∧
      ∀ a ∈ l.flatMap d.members, ∃ x ∈ xs, ∃ place,
        a.Stored c.metamodel.tableOf uses place x := by
  cases h with
  | @entity x hx =>
    obtain ⟨e, he, hn, -⟩ := made.exists_of_descriptor hx
    have hfound := made.entity?_of_mem hx
    rw [← hn] at hfound ⊢
    obtain ⟨l, hl⟩ := made.exists_chain he
    refine ⟨Definition.mem_typeNames_of_entity he, l, hl, fun z hz => ?_, fun a ha => ?_⟩
    · obtain ⟨y, hy, hz⟩ := List.mem_flatMap.1 hz
      obtain ⟨n, hnl, a, ha, hstored⟩ := made.exists_member_of_mapping hfound he hl hy hz
      exact ⟨a, List.mem_flatMap.2 ⟨n, hnl, ha⟩, hstored⟩
    · obtain ⟨n, hnl, ha⟩ := List.mem_flatMap.1 ha
      obtain ⟨y, hy, z, hz, hstored⟩ := made.exists_stored_of_member hfound he hl hnl ha
      exact ⟨z, List.mem_flatMap.2 ⟨y, hy, hz⟩, hstored⟩
  | @usage u hu =>
    obtain ⟨id, hid⟩ := List.mem_iff_getElem?.1 hu
    obtain ⟨use, e, -, he, hs⟩ := made.laidOut.complete id u (Nat.zero_le _) hid
    obtain ⟨hmem, hn⟩ := Definition.embeddable?_mem he
    have hnodup := made.checked.nodup_typeNames
    obtain ⟨hentity, hmapped⟩ := Definition.not_isExtensible_of_embeddable hnodup hmem
    have hmembers : [e.name].flatMap d.members = e.attributes := by
      rw [List.flatMap_singleton, Definition.members_embeddable hnodup hmem]
    rw [hs.embeddable, ← hn]
    refine ⟨Definition.mem_typeNames.2 (.inl ⟨e, hmem, rfl⟩), [e.name],
      .stop (by simp [Definition.supertypeOf?, hentity, hmapped]), fun z hz => ?_, fun a ha => ?_⟩
    · obtain ⟨a, ha, hstored⟩ := exists_mem_of_forall₂' hs.mappings hz
      exact ⟨a, hmembers ▸ ha, _, hstored⟩
    · obtain ⟨z, hz, hstored⟩ := exists_mem_of_forall₂ hs.mappings (hmembers ▸ ha)
      exact ⟨z, hz, _, hstored⟩

theorem mapping_of_owns {t : String} {xs : List Mapping} (h : c.metamodel.Owns t xs) (n : String) :
    (∀ q, d.Declares t n q → ∃ y, Physical.plural? xs n = some y ∧ y.Offers q) ∧
      ∀ y, Physical.plural? xs n = some y → ∃ q, d.Declares t n q := by
  obtain ⟨ht, l, hl, hdeclared, hstored⟩ := made.exists_stored_of_owns h
  constructor
  · rintro q ⟨l', hl', a, ha, rfl, hq⟩
    obtain rfl := hl'.unique hl
    obtain ⟨x, hx, place, hxa⟩ := hstored a ha
    obtain ⟨y, rfl, hyn, -⟩ := hxa.exists_plural hq
    obtain ⟨z, hz⟩ := Physical.exists_plural? hx
    rw [hyn] at hz
    -- attributes along the chain differ in their names, so the first mapping of that name is it
    obtain ⟨hmem, hzn⟩ := Physical.mem_of_plural? hz
    obtain ⟨b, hb, place', hzb⟩ := hdeclared _ hmem
    obtain rfl := List.inj_on_of_nodup_map (Definition.nodup_chain made.distinct ht hl) hb ha
      (hzb.name_eq.symm.trans hzn)
    obtain ⟨w, hw, -, hoffers⟩ := hzb.exists_plural hq
    cases hw
    exact ⟨z, hz, hoffers⟩
  · intro y hy
    obtain ⟨hmem, hyn⟩ := Physical.mem_of_plural? hy
    obtain ⟨a, ha, place, hya⟩ := hdeclared _ hmem
    obtain ⟨q, hq⟩ := hya.exists_shape
    exact ⟨q, l, hl, a, ha, hya.name_eq.symm.trans hyn, hq⟩

/-! ### Managed types and their sources -/

theorem exists_managed?_of_mem {t : String} (ht : t ∈ d.typeNames) :
    ∃ s, c.registry.managed? t = some s := by
  obtain ⟨id, hid⟩ := (made.drafted.exists_find? made.checked).2 ht
  obtain ⟨type, htype, hmem, hname⟩ := made.drafted.typeAt?_of_find? hid
  obtain ⟨-, hmanaged, -⟩ := Definition.declaredName?_of_mem hmem
  rw [Logical.DomainType.isManaged_bare] at hmanaged
  obtain rfl : type.name = t := by cases type <;> cases hname <;> rfl
  exact Logical.exists_managed? made.regular made.registry htype hmanaged

theorem source_of_managed? {t : String} {s : Source} (h : c.registry.managed? t = some s)
    (n : String) :
    (∀ q, d.Declares t n q → ∃ p, c.registry.plural? s n = some p ∧ p.Offers q) ∧
      ∀ p, c.registry.plural? s n = some p → ∃ q, d.Declares t n q := by
  obtain ⟨id, bindable, hid, hs⟩ := Logical.managed?_eq_some made.regular made.registry h
  obtain ⟨-, rfl, -, -⟩ := Logical.Model.source_info hs
  constructor
  · rintro q ⟨l, hl, a, ha, rfl, hq⟩
    obtain ⟨owner, howner, ha⟩ := List.mem_flatMap.1 ha
    obtain ⟨x, hx, hbec⟩ := made.exists_attribute_of_member hid hl howner ha
    obtain ⟨index, hn, hindex, hlong⟩ := hbec.exists_plural hq
    obtain ⟨hchain, hdeclared⟩ := Logical.Draft.mem_attributesOf.1 hx
    have hfind := (made.regular.findAttribute?_eq_some (Logical.Draft.lt_of_find? hid)).2
      ⟨hchain, hdeclared, hbec.name_eq⟩
    obtain ⟨p, source, hp, hmade⟩ :=
      Logical.exists_pluralSource made.regular.toWellFormed made.registry hfind hn
    exact ⟨p, hp, Logical.Model.offers_of_pluralSource hmade hindex hlong⟩
  · intro p hp
    obtain ⟨x, hx, hname, k, index, source, hn, -⟩ :=
      Logical.plural?_eq_some made.regular made.registry hp
    obtain ⟨l, hl, -⟩ := Definition.exists_walk_supertypes made.checked.wellNamed made.acyclic
      ((made.drafted.exists_find? made.checked).1 ⟨_, hid⟩)
    obtain ⟨owner, howner, a, ha, hbec⟩ := made.exists_member_of_attribute hid hl hx
    obtain ⟨q, hq⟩ := hbec.exists_shape hn
    exact ⟨q, l, hl, a, List.mem_flatMap.2 ⟨owner, howner, ha⟩, hbec.name_eq.symm.trans hname, hq⟩

end MadeFrom

/-- In every catalog, sources and mappings are there for the same collections. Both sides have all
parts that the classification asks for. They have no others as far as the definition has columns for
no others; where it has a column of ids for what is no id-bag, the mapping alone has ids. -/
theorem sameCollections_of_ofDefinition {raw : Definition RawAttribute} {c : Catalog}
    (h : ofDefinition raw = .ok c) : ∃ d, raw.check = .ok d ∧ SameCollections d c ∧
      ∀ t n q, d.Declares t n q → q.Complete ∧ ∀ p y, PluralSource.Offers q p →
        Physical.Plural.Offers q y →
        ((∀ part, (p.part? part).isSome = (y.part? part).isSome) ↔
          q.idColumn.isSome = q.classification.hasIdentifier) ∧
        ((∀ part, (p.part? part).isSome = p.classification.hasPart part ∧
            (y.part? part).isSome = y.classification.hasPart part) ↔
          ∀ part, q.hasColumn part = true → q.classification.hasPart part = true) := by
  obtain ⟨d, uses, hd, -, made⟩ := exists_madeFrom h
  refine ⟨d, hd, ?_, fun t n q hq => ?_⟩
  · exact ⟨fun t xs howns => made.exists_managed?_of_mem (made.exists_stored_of_owns howns).1,
      fun t s hs => made.source_of_managed? hs, fun t xs howns => made.mapping_of_owns howns⟩
  · have complete := made.complete_of_declares hq
    exact ⟨complete, fun p y hp hy => ⟨same_parts_iff hp hy, exact_parts_iff hp hy complete⟩⟩

/-- A catalog with sources and a mapping of a collection of auctions that fulfil a condition. -/
def hasCollection (name : String) (P : PluralSource → Physical.Plural → Bool) (c : Catalog) :
    Bool :=
  (c.registry.managed? "Auction").any fun s => (c.registry.plural? s name).any fun p =>
    (c.metamodel.entity? "Auction").any fun x =>
      (Physical.plural? ((c.metamodel.lineage x).flatMap (·.mappings)) name).any (P p)

theorem exists_of_hasCollection {name : String} {P : PluralSource → Physical.Plural → Bool}
    {c : Catalog} (h : c.hasCollection name P = true) : ∃ s p x y,
      c.registry.managed? "Auction" = some s ∧ c.registry.plural? s name = some p ∧
      c.metamodel.entity? "Auction" = some x ∧
      Physical.plural? ((c.metamodel.lineage x).flatMap (·.mappings)) name = some y ∧
      P p y = true := by
  obtain ⟨s, hs, h⟩ := (Option.any_eq_true ..).1 h
  obtain ⟨p, hp, h⟩ := (Option.any_eq_true ..).1 h
  obtain ⟨x, hx, h⟩ := (Option.any_eq_true ..).1 h
  obtain ⟨y, hy, h⟩ := (Option.any_eq_true ..).1 h
  exact ⟨s, p, x, y, hs, hp, hx, hy, h⟩

set_option maxRecDepth 100000 in
/-- The bids of an auction are a list, and have an index on both sides. -/
theorem sameCollections_bids : ∃ c s p x y, ofDefinition auctionHouse = .ok c ∧
    c.registry.managed? "Auction" = some s ∧ c.registry.plural? s "bids" = some p ∧
    c.metamodel.entity? "Auction" = some x ∧
    Physical.plural? ((c.metamodel.lineage x).flatMap (·.mappings)) "bids" = some y ∧
    p.classification = .list ∧ p.index.isSome = true ∧ y.index.isSome = true := by
  obtain ⟨c, hc, hP⟩ := exists_ok_of_any (x := ofDefinition auctionHouse)
    (P := hasCollection "bids" fun p _ => p.classification == .list) (by decide +kernel)
  obtain ⟨s, p, x, y, hs, hp, hx, hy, hlist⟩ := exists_of_hasCollection hP
  have hlist := beq_iff_eq.1 hlist
  obtain ⟨d, -, same, parts⟩ := sameCollections_of_ofDefinition hc
  obtain ⟨q, hq⟩ := (same.source "Auction" s hs "bids").2 p hp
  obtain ⟨p', hp', hpq⟩ := (same.source "Auction" s hs "bids").1 q hq
  obtain rfl := Option.some.inj (hp.symm.trans hp')
  have howns := Metamodel.Owns.entity (List.mem_of_find?_eq_some hx)
  rw [Metamodel.entity?_name hx] at howns
  obtain ⟨y', hy', hyq⟩ := (same.mapping "Auction" _ howns "bids").1 q hq
  obtain rfl := Option.some.inj (hy.symm.trans hy')
  have hindex : q.hasColumn .index = true :=
    (parts _ _ q hq).1 .index (by rw [← hpq.classification, hlist]; rfl)
  exact ⟨c, s, p, x, y, hc, hs, hp, hx, hy, hlist, (hpq.part .index).trans hindex,
    (hyq.part .index).trans hindex⟩

/-- Auctions with a bag of watchers, which has columns for positions and for ids all the same. -/
def watchedAuctions : Definition RawAttribute where
  entities := [
    { name := "Auction"
      table := some "auctions"
      attributes := [
        { name := "watchers"
          plural := some {
            classification := .bag
            table := some "watchers"
            keyColumn := "auction_id"
            element := { kind := some .string, column := some "watcher" }
            index := some ⟨.integer, "position"⟩
            idColumn := some "row_id" } }] }]

set_option maxRecDepth 100000 in
/-- The bag has an index on both sides, and ids in the metamodel alone. -/
theorem parts_watchers : ∃ c s p x y, ofDefinition watchedAuctions = .ok c ∧
    c.registry.managed? "Auction" = some s ∧ c.registry.plural? s "watchers" = some p ∧
    c.metamodel.entity? "Auction" = some x ∧
    Physical.plural? ((c.metamodel.lineage x).flatMap (·.mappings)) "watchers" = some y ∧
    (p.classification = .bag ∧ y.classification = .bag) ∧
    (p.index.isSome = true ∧ y.index.isSome = true) ∧
    p.identifier = none ∧ y.identifier.isSome = true := by
  obtain ⟨c, hc, hP⟩ := exists_ok_of_any (x := ofDefinition watchedAuctions)
    (P := hasCollection "watchers" fun p y => decide (
      (p.classification = .bag ∧ y.classification = .bag) ∧
      (p.index.isSome = true ∧ y.index.isSome = true) ∧
      p.identifier = none ∧ y.identifier.isSome = true)) (by decide +kernel)
  obtain ⟨s, p, x, y, hs, hp, hx, hy, h⟩ := exists_of_hasCollection hP
  exact ⟨c, s, p, x, y, hc, hs, hp, hx, hy, of_decide_eq_true h⟩

end Catalog

end QueryPath
