import QueryPath.Proofs.Catalog.Graph

/-!
# Tables of collections

The table that a join over a collection reads is computed from the mapping of the collection, when
the columns of the collection have long had their tables. Both are the table `Plural.tableBy` of the
definition (`partTable_plural`). It is the table of the place at which embedded elements are used,
and embedded attributes leave the table of a place as it is (`exists_place_of_embeds`).
-/

namespace QueryPath

open Relation (ReflTransGen)

namespace Physical

/-- The tables of the columns that a mapping names itself. -/
def Mapping.tables : Mapping → List String
  | .column c => [c.table]
  | .toOne t => [t.table]
  | .any a => [a.discriminator.table, a.key.table]
  | .embedded _ _ | .plural _ => []

/-- The inner use of an embeddable is an embedded attribute of the outer one. -/
def Metamodel.Embeds (m : Metamodel) (outer inner : UsageId) : Prop :=
  ∃ u name, m.usage? outer = some u ∧ .embedded name inner ∈ u.mappings

/-- The columns of a collection are in the table, those of embedded elements and of all values that
are embedded in them as well. -/
structure Plural.StoredIn (m : Metamodel) (table : String) (p : Plural) : Prop where
  index : ∀ part, p.index = some part → ∃ c, part.value = .column c ∧ c.table = table
  identifier : ∀ part, p.identifier = some part → ∃ c, part.value = .column c ∧ c.table = table
  element : ∀ c, p.element.value = .column c → c.table = table
  embedded : ∀ id, p.element.value = .embedded id → ∀ inner, ReflTransGen m.Embeds id inner →
    ∃ u, m.usage? inner = some u ∧ u.table = table ∧ ∀ x ∈ u.mappings, ∀ t ∈ x.tables, t = table

end Physical

namespace Catalog

open Definition (RawAttribute Attribute Element Place storedPlural)
open Physical (Metamodel Mapping Plural PartValue UsageId)

namespace MadeFrom

variable {c : Catalog} {d : Definition Attribute} {uses : Definition.Uses}
  (made : c.MadeFrom d uses)

/-! ## Uses of embeddables in a table -/

/-- The columns of an attribute are in the table of its place. -/
theorem tables_of_stored {a : Attribute} {place : Place} {x : Mapping}
    (h : a.Stored c.metamodel.tableOf uses place x) : ∀ t ∈ x.tables, t = place.table := by
  cases h <;> simp [Mapping.tables]

include made

/-- A use of an embeddable and its columns are in the table of its place, and so are the places of
its embedded attributes. -/
theorem exists_usage_at {id : UsageId} {place : Place} {name : String}
    (hid : uses[id]? = some (place, name)) :
    ∃ u, c.metamodel.usage? id = some u ∧ u.table = place.table ∧
      (∀ x ∈ u.mappings, ∀ t ∈ x.tables, t = place.table) ∧
      ∀ n inner, .embedded n inner ∈ u.mappings →
        ∃ place' name', uses[inner]? = some (place', name') ∧ place'.table = place.table := by
  obtain ⟨u, hu, -⟩ := made.exists_usage hid
  obtain ⟨use, e, huse, -, hs⟩ := made.laidOut.complete id u (Nat.zero_le _) hu
  obtain rfl := Option.some.inj (hid.symm.trans huse)
  refine ⟨u, hu, hs.table, fun x hx => ?_, fun n inner hx => ?_⟩
  · obtain ⟨a, -, hstored⟩ := exists_mem_of_forall₂' hs.mappings hx
    exact tables_of_stored hstored
  · obtain ⟨a, -, hstored⟩ := exists_mem_of_forall₂' hs.mappings hx
    cases hstored with
    | embedded hinner => exact ⟨_, _, hinner, rfl⟩

/-- What is embedded in the use of an embeddable, however deep, has its place in the same table. -/
theorem exists_place_of_embeds {id inner : UsageId} (h : ReflTransGen c.metamodel.Embeds id inner)
    {place : Place} {name : String} (hid : uses[id]? = some (place, name)) :
    ∃ place' name', uses[inner]? = some (place', name') ∧ place'.table = place.table := by
  induction h with
  | refl => exact ⟨place, name, hid, rfl⟩
  | tail _ hstep ih =>
    obtain ⟨place', name', hmid, htable⟩ := ih
    obtain ⟨v, n, hv, hmem⟩ := hstep
    obtain ⟨u, hu, -, -, hinner⟩ := made.exists_usage_at hmid
    obtain rfl := Option.some.inj (hv.symm.trans hu)
    obtain ⟨place'', name'', hin, htable'⟩ := hinner n _ hmem
    exact ⟨place'', name'', hin, htable'.trans htable⟩

/-! ## Collections -/

section Plural

variable {p : Definition.Plural Element} {role : String} {value : PartValue}
  (hvalue : p.element.Stored uses role (p.tableBy c.metamodel.tableOf) value)

include hvalue

/-- A join over a collection reads the table that the definition gives to it. -/
theorem partTable_plural (name : String) : c.metamodel.partTable
    (.plural (storedPlural role (p.tableBy c.metamodel.tableOf) name p value)) =
      p.tableBy c.metamodel.tableOf := by
  cases htable : p.table with
  | some table => simp [Metamodel.partTable, storedPlural, Definition.Plural.tableBy, htable]
  | none =>
    have : c.metamodel.valueTable value = p.tableBy c.metamodel.tableOf := by
      generalize helement : p.element = element at hvalue
      cases hvalue with
      | basic => rfl
      | entity => simp [Metamodel.valueTable, Definition.Plural.tableBy, htable, helement]
      | embedded hid =>
        obtain ⟨u, hu, hut, -⟩ := made.exists_usage_at hid
        rw [Metamodel.valueTable, hu, Option.map_some, Option.getD_some, hut]
    simpa [Metamodel.partTable, storedPlural, htable] using this

/-- A collection is in the table that the definition gives to it. -/
theorem storedIn_plural (name : String) :
    (storedPlural role (p.tableBy c.metamodel.tableOf) name p value).StoredIn c.metamodel
      (p.tableBy c.metamodel.tableOf) := by
  refine ⟨fun part hpart => ?_, fun part hpart => ?_, fun column hcolumn => ?_,
    fun id hid inner hinner => ?_⟩
  · obtain ⟨i, -, rfl⟩ := Option.map_eq_some_iff.1 hpart
    exact ⟨_, rfl, rfl⟩
  · obtain ⟨i, -, rfl⟩ := Option.map_eq_some_iff.1 hpart
    exact ⟨_, rfl, rfl⟩
  · obtain rfl : value = .column column := hcolumn
    generalize p.element = element at hvalue
    cases hvalue
    rfl
  · obtain rfl : value = .embedded id := hid
    generalize p.element = element at hvalue
    cases hvalue with
    | embedded huse =>
      obtain ⟨place, name, hplace, htable⟩ := made.exists_place_of_embeds hinner huse
      obtain ⟨u, hu, hut, htables, -⟩ := made.exists_usage_at hplace
      rw [htable] at hut htables
      exact ⟨u, hu, hut, htables⟩

end Plural

end MadeFrom

/-- In every catalog, all columns of a collection are in the one table that a join over the
collection reads. -/
theorem storedIn_partTable {raw : Definition RawAttribute} {c : Catalog}
    (h : ofDefinition raw = .ok c) {p : Plural} (hp : .plural p ∈ c.metamodel.mappings) :
    p.StoredIn c.metamodel (c.metamodel.partTable (.plural p)) := by
  obtain ⟨d, uses, -, -, made⟩ := exists_madeFrom h
  obtain ⟨n, a, place, -, hstored⟩ := made.exists_attribute_of_mapping hp
  cases hstored with
  | plural hvalue =>
    rw [made.partTable_plural hvalue]
    exact made.storedIn_plural hvalue _

set_option maxRecDepth 100000 in
/-- Rebates are fees in a table of their own. -/
theorem storedIn_rebates : ∃ c p, ofDefinition listedAuctions = .ok c ∧
    .plural p ∈ c.metamodel.mappings ∧ c.metamodel.partTable (.plural p) = "rebates" ∧
    p.StoredIn c.metamodel "rebates" := by
  obtain ⟨c, hc, h⟩ := exists_ok_of_any (x := ofDefinition listedAuctions)
    (P := fun c => c.metamodel.mappings.any fun x => match x with
      | .plural p => c.metamodel.partTable (.plural p) == "rebates"
      | _ => false) (by decide +kernel)
  obtain ⟨x, hx, h⟩ := List.any_eq_true.1 h
  cases x with
  | plural p =>
    have htable : c.metamodel.partTable (.plural p) = "rebates" := by simpa using h
    exact ⟨c, p, hc, hx, htable, htable ▸ storedIn_partTable hc hx⟩
  | column | embedded | toOne | any => cases h

end Catalog

end QueryPath
