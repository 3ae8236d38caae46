import QueryPath.Proofs.Catalog.Visible
import QueryPath.Proofs.Definition.Tables

/-!
# Columns of embedded values

Names lead from an entity, or from the elements of a collection, through uses of embeddables to the
columns of a value. Each embedded attribute on the way puts its start before the names of the
columns and its name behind the role, and leaves the table as it is (`StoredAt`). What is stored
with an entity begins with its name, its table and no start (`MadeFrom.holds_entity`); what is
embedded as the element of a collection begins anew, with the table of the collection
(`MadeFrom.holds_usage`, `MadeFrom.Holds.collection`).

| names                        | role                | table    | columns begin with  |
|------------------------------|---------------------|----------|---------------------|
| `a`, `b` from an entity `E`  | `E.a.b`             | of `E`   | starts of `a`, `b`  |
| `b` from elements of `E.c`   | `E.c.{element}.b`   | of `E.c` | starts of `c`, `b`  |
-/

namespace QueryPath

/-! ## Chains of embedded attributes -/

namespace Definition

/-- The columns that an attribute of the shape names itself. -/
def Shape.columns : Shape → List String
  | .basic _ column _ => [column]
  | .toOne _ joinColumn => [joinColumn]
  | .any target => [target.discriminatorColumn, target.keyColumn]
  | .embedded _ _ | .plural _ => []

/-- Embedded attributes, each of which belongs to the embeddable before it, by their names and the
starts of their columns. They lead from some attributes to those of the last embeddable. -/
inductive EmbeddedChain (d : Definition Attribute) :
    List Attribute → List (String × String) → List Attribute → Prop
  | nil {as} : EmbeddedChain d as [] as
  | cons {as a target start e chain bs} : a ∈ as → a.shape = .embedded target start →
      d.embeddable? target = some e → EmbeddedChain d e.attributes chain bs →
      EmbeddedChain d as ((a.name, start) :: chain) bs

end Definition

namespace Physical

/-- The columns that hold the value of a part, with their tables. -/
def Part.columns : Part → List (String × String)
  | .column c => [(c.table, c.column)]
  | .toOne t => [(t.table, t.fkColumn)]
  | .any a => [(a.discriminator.table, a.discriminator.column), (a.key.table, a.key.column)]
  | .usage _ | .entity _ | .plural _ | .collection _ => []

/-- The parts that names lead to, one from the other. -/
def Metamodel.along? (m : Metamodel) : Part → List String → Option (List Part)
  | _, [] => some []
  | p, n :: ns => do
      let q ← m.subPart? p n none
      let parts ← m.along? q ns
      return q :: parts

end Physical

open Definition (Attribute Place EmbeddedChain roleOf)
open Physical (Metamodel Part Usage)

/-- Names lead from the part through uses of embeddables to columns at the place, in whatever way
chains of embedded attributes continue the attributes `as`. -/
def StoredAt (d : Definition Attribute) (m : Metamodel) (p : Part) (place : Place)
    (as : List Attribute) : Prop :=
  ∀ chain bs b, EmbeddedChain d as chain bs → b ∈ bs →
    ∃ (us : List Usage) (part : Part),
      m.along? p (chain.map (·.1) ++ [b.name]) = some (us.map .usage ++ [part]) ∧
      us.map (·.role) = ((chain.map (·.1)).scanl roleOf place.role).tail ∧
      (∀ u ∈ us, u.table = place.table) ∧
      part.columns = b.shape.columns.map fun column =>
        (place.table, place.columnStart ++ String.join (chain.map (·.2)) ++ column)

namespace Catalog.MadeFrom

variable {c : Catalog} {d : Definition Attribute} {uses : Definition.Uses}
  (made : c.MadeFrom d uses)

/-! ## Parts that hold attributes -/

/-- Names of attributes lead from the part to where they are stored at the place. -/
def Holds (c : Catalog) (uses : Definition.Uses) (p : Part) (place : Place)
    (as : List Attribute) : Prop :=
  ∀ a ∈ as, ∃ x part, a.Stored c.metamodel.tableOf uses place x ∧
    c.metamodel.partOf? x = some part ∧ c.metamodel.subPart? p a.name none = some part

include made

theorem mapping_of_mem {place : Place} {as : List Attribute} {xs : List Physical.Mapping}
    (h : List.Forall₂ (Attribute.Stored c.metamodel.tableOf uses place) as xs)
    (nodup : (as.map (·.name)).Nodup) {a : Attribute} (ha : a ∈ as) :
    ∃ x part, a.Stored c.metamodel.tableOf uses place x ∧ c.metamodel.partOf? x = some part ∧
      xs.find? (·.name == a.name) = some x := by
  obtain ⟨x, hx, hstored⟩ := exists_mem_of_forall₂ h ha
  obtain ⟨part, hpart⟩ := made.exists_part hstored
  refine ⟨x, part, hstored, hpart, ?_⟩
  rw [← hstored.name_eq]
  have hxs : (xs.map Physical.Mapping.name).Nodup := Attribute.Stored.names_eq h ▸ nodup
  exact Definition.find?_of_mem hxs hx

/-- An entity holds what is stored with it. -/
theorem holds_entity {e : Definition.Entity Attribute} (he : e ∈ d.entities)
    {x : Physical.Entity} (hx : c.metamodel.entity? e.name = some x) :
    Holds c uses (.entity x) ⟨e.name, c.metamodel.tableOf e.name, ""⟩ (d.storedWith e) := by
  obtain ⟨y, hy, hs⟩ := made.entity_stored he
  rw [hx, Option.some.injEq] at hy
  subst hy
  intro a ha
  obtain ⟨z, part, hstored, hpart, hfind⟩ := made.mapping_of_mem hs.mappings
    (Definition.nodup_storedWith made.checked made.acyclic made.distinct he) ha
  refine ⟨z, part, hstored, hpart, ?_⟩
  have hlineage : ∃ above, c.metamodel.lineage x = x :: above := by
    rw [Metamodel.lineage]
    cases c.metamodel.entities.length with
    | zero => exact ⟨[], rfl⟩
    | succ n => exact ⟨_, rfl⟩
  obtain ⟨above, habove⟩ := hlineage
  have hmapping : x.mapping? a.name = some z := by
    rw [Physical.Entity.mapping?, Physical.Entity.declared?, hfind]
  rw [Metamodel.subPart?, Metamodel.entityPart?_none, habove, Metamodel.findIn?,
    List.findSome?_cons, hmapping, Option.bind_some, hpart]

/-- A use of an embeddable holds the attributes of the embeddable. -/
theorem holds_usage {id : Physical.UsageId} {u : Usage} (hu : c.metamodel.usage? id = some u) :
    ∃ place e, uses[id]? = some (place, u.embeddable) ∧ d.embeddable? u.embeddable = some e ∧
      u.role = place.role ∧ u.table = place.table ∧ Holds c uses (.usage u) place e.attributes := by
  obtain ⟨⟨place, name⟩, e, huse, he, hs⟩ := made.laidOut.complete id u (Nat.zero_le _) hu
  obtain rfl : u.embeddable = name := hs.embeddable
  refine ⟨place, e, huse, he, hs.role, hs.table, fun a ha => ?_⟩
  obtain ⟨hmem, -⟩ := Definition.embeddable?_mem he
  obtain ⟨z, part, hstored, hpart, hfind⟩ := made.mapping_of_mem hs.mappings
    (made.distinct.embeddable _ (List.mem_map_of_mem hmem)) ha
  refine ⟨z, part, hstored, hpart, ?_⟩
  rw [Metamodel.subPart?, Metamodel.usagePart?, Physical.Usage.mapping?, hfind, Option.bind_some,
    hpart]

/-- Where attributes are held, chains of embedded attributes lead on. -/
theorem storedAt {p : Part} {place : Place} {as : List Attribute}
    (h : Holds c uses p place as) : StoredAt d c.metamodel p place as := by
  intro chain bs b hchain hb
  induction hchain generalizing p place with
  | nil =>
    obtain ⟨x, part, hstored, hpart, hsub⟩ := h b hb
    refine ⟨[], part, by simp [Metamodel.along?, hsub], rfl, by simp, ?_⟩
    cases hstored with
    | embedded hid =>
      obtain ⟨u, -, rfl⟩ := Option.map_eq_some_iff.1 hpart
      rfl
    | basic | toOne | plural | any =>
      cases hpart
      simp [Part.columns, Definition.Shape.columns, Place.column]
  | @cons as a target start e chain bs ha hshape he hchain ih =>
    obtain ⟨x, part, hstored, hpart, hsub⟩ := h a ha
    cases hstored with
    | embedded hid =>
      cases hshape
      obtain ⟨u, hu, rfl⟩ := Option.map_eq_some_iff.1 hpart
      obtain ⟨place', e', huse, he', hrole, htable, hholds⟩ := made.holds_usage hu
      obtain ⟨rfl, rfl⟩ := Prod.mk.inj (Option.some.inj (hid.symm.trans huse))
      obtain rfl := Option.some.inj (he.symm.trans he')
      obtain ⟨us, part, halong, hroles, htables, hcolumns⟩ := ih hholds hb
      refine ⟨u :: us, part, ?_, ?_, ?_, ?_⟩
      · simp [Metamodel.along?, hsub, halong]
      · rw [List.map_cons, List.map_cons, List.scanl_cons, List.tail_cons, hroles, hrole]
        cases chain <;> simp [Place.embedded, roleOf]
      · rintro v hv
        rcases List.mem_cons.1 hv with rfl | hv
        · exact htable
        · exact htables v hv
      · rw [hcolumns]
        simp [Place.embedded, Place.column, String.append_assoc]
    | basic | toOne | plural | any => cases hshape

omit made in
/-- The elements of a collection hold what the use of an embeddable holds that they are. -/
theorem Holds.collection {id : Physical.UsageId} {u : Usage}
    (hu : c.metamodel.usage? id = some u) {place : Place} {as : List Attribute}
    (h : Holds c uses (.usage u) place as) {part : Physical.CollectionPart}
    (hpart : part.value = .embedded id) : Holds c uses (.collection part) place as := by
  intro a ha
  obtain ⟨x, q, hstored, hq, hsub⟩ := h a ha
  refine ⟨x, q, hstored, hq, ?_⟩
  rw [Metamodel.subPart?, hpart, Metamodel.valuePart?, hu]
  exact hsub

end Catalog.MadeFrom

/-! ## Layout of a catalog -/

/-- What has attributes of its own: an entity with what is stored with it, or a use of an
embeddable, in each case with its role. -/
inductive Owner (d : Definition Attribute) (m : Metamodel) :
    (role : String) → Part → List Attribute → Prop
  | entity {e x} : e ∈ d.entities → m.entity? e.name = some x →
      Owner d m e.name (.entity x) (d.storedWith e)
  | usage {id u e} : m.usage? id = some u → d.embeddable? u.embeddable = some e →
      Owner d m u.role (.usage u) e.attributes

/-- Where the values of embedded attributes are stored. -/
structure EmbeddedLayout (d : Definition Attribute) (m : Metamodel) : Prop where
  /-- Values of an entity: in the first table that is named along its chain. -/
  entity : ∀ e ∈ d.entities, ∃ x chain table, m.entity? e.name = some x ∧
    Walk d.supertypeOf? e.name chain ∧ chain.findSome? d.ownTable? = some table ∧
    x.table = table ∧ StoredAt d m (.entity x) ⟨e.name, table, ""⟩ (d.storedWith e)
  /-- Embedded elements of a collection: in the table of the collection. -/
  element : ∀ role p as, Owner d m role p as → ∀ a ∈ as, ∀ collection target start,
    a.shape = .plural collection → collection.element = .embedded target start →
    ∃ q id u e table, m.subPart? p a.name none = some (.plural q) ∧ q.role = roleOf role a.name ∧
      collection.table = some table ∧ q.table = some table ∧
      q.element.value = .embedded id ∧ m.usage? id = some u ∧
      u.role = roleOf q.role PartNature.element.name ∧ u.table = table ∧
      d.embeddable? target = some e ∧
      StoredAt d m (.collection q.element) ⟨roleOf q.role PartNature.element.name, table, start⟩
        e.attributes

namespace Catalog

open Definition (RawAttribute)

namespace MadeFrom

variable {c : Catalog} {d : Definition Attribute} {uses : Definition.Uses}
  (made : c.MadeFrom d uses)

include made

/-- An owner holds its attributes, which are checked. -/
theorem holds_owner {role : String} {p : Part} {as : List Attribute}
    (h : Owner d c.metamodel role p as) :
    (∃ place, place.role = role ∧ Holds c uses p place as) ∧
      ∀ a ∈ as, ∃ owner, d.checkShape owner a.name a.shape = .ok () := by
  have checked : ∀ {n : String} {a : Attribute}, a ∈ d.members n →
      ∃ owner, d.checkShape owner a.name a.shape = .ok () := fun ha =>
    ⟨_, made.checked.checkShape _ (Definition.mem_members.1 ha)⟩
  cases h with
  | entity he hx =>
    refine ⟨⟨_, rfl, made.holds_entity he hx⟩, fun a ha => ?_⟩
    obtain ⟨n, -, hn⟩ := Definition.mem_storedWith made.checked made.acyclic he ha
    exact checked hn
  | @usage id u e hu he =>
    obtain ⟨place, e', -, he', hrole, -, hholds⟩ := made.holds_usage hu
    obtain rfl := Option.some.inj (he.symm.trans he')
    refine ⟨⟨place, hrole.symm, hholds⟩, fun a ha => ?_⟩
    obtain ⟨hmem, hname⟩ := Definition.embeddable?_mem he
    refine checked (n := u.embeddable) ?_
    rwa [← hname, Definition.members_embeddable made.checked.nodup_typeNames hmem]

end MadeFrom

/-- Auctions that are listed for a fee are stored with all others; some of the fee is given back. -/
def listedAuctions : Definition RawAttribute where
  embeddables := [
    ⟨"Money", [{ name := "amount", kind := some .decimal, column := some "amount" }]⟩,
    ⟨"Fee", [{ name := "charge", embedded := some "Money", columnStart := some "charge_" }]⟩]
  mappedSupertypes := [⟨"Listed", some "Auction",
    [{ name := "listing", embedded := some "Fee", columnStart := some "listing_" }]⟩]
  entities := [
    { name := "Auction", table := some "auctions" },
    { name := "ListedAuction"
      supertype := some "Listed"
      attributes := [{
        name := "rebates"
        plural := some {
          classification := .bag
          table := some "rebates"
          keyColumn := "auction_id"
          element := { embedded := some "Fee", columnStart := some "rebate_" } } }] }]

/-- The amounts of rebates have a column in the table of rebates. -/
example : (ofDefinition listedAuctions).toOption.bind (fun c => do
    let x ← c.metamodel.entity? "ListedAuction"
    let parts ← c.metamodel.along? (.entity x)
      ["rebates", PartNature.element.name, "charge", "amount"]
    return (← parts.getLast?).columns) = some [("rebates", "rebate_charge_amount")] := by
  decide +kernel

end Catalog

end QueryPath
