import QueryPath.Proofs.Catalog.Visible

/-!
# The two models of a catalog agree

The domain model and the metamodel of a catalog are made from one definition in different ways:
the one lets attributes be inherited along chains of entities and mapped supertypes, the other
copies the attributes of mapped supertypes into the entities below them and those of embeddables
into each of their uses. They have the same attributes nevertheless.
-/

namespace QueryPath.Catalog

open Definition (RawAttribute Attribute)
open Logical (TypeId)

/-- The two models have the same entities and embeddables, with attributes that correspond. -/
structure SameAttributes (raw : Definition RawAttribute) (c : Catalog) : Prop where
  entities : ∀ name, (∃ id as s b, c.logical.typeAt? id = some (.entity name as s b)) ↔
    ∃ x, c.metamodel.entity? name = some x
  entityAttributes : ∀ id name as s b x, c.logical.typeAt? id = some (.entity name as s b) →
    c.metamodel.entity? name = some x → ∀ n, n ≠ identifierName →
      Option.Rel (fun y part => Corresponds c.logical c.metamodel y.2 part)
        (c.logical.findAttribute? id n) (c.metamodel.entityPart? x n none)
  embeddableAttributes : ∀ id u, c.metamodel.usage? id = some u →
    ∃ type as, c.logical.typeAt? type = some (.embeddable u.embeddable as) ∧
      List.Forall₂ (fun a y => y.name = a.name ∧ ∃ part, c.metamodel.partOf? y = some part ∧
        Corresponds c.logical c.metamodel a part) as u.mappings
  embeddableNames : ∀ id u, c.metamodel.usage? id = some u → ∃ e ∈ raw.embeddables,
    e.name = u.embeddable ∧ u.mappings.map (·.name) = e.attributes.map (·.name)

namespace MadeFrom

variable {c : Catalog} {d : Definition Attribute} {uses : Definition.Uses}
  (made : c.MadeFrom d uses)

include made

theorem exists_entity_of_typeAt? {id : TypeId} {name : String} {as : List Logical.Attribute}
    {s : Option TypeId} {b : Bool} (ht : c.logical.typeAt? id = some (.entity name as s b)) :
    c.logical.find? name = some id ∧ ∃ e ∈ d.entities, e.name = name := by
  have hid := made.regular.named id _ name ht rfl
  obtain ⟨t, ht', hmem, -⟩ := made.drafted.typeAt?_of_find? hid
  rw [ht, Option.some.injEq] at ht'
  subst ht'
  refine ⟨hid, ?_⟩
  rcases Definition.mem_declaredTypes.1 hmem with ⟨e, _, he⟩ | ⟨e, _, he⟩ | ⟨e, hmem, he⟩
  · cases he
  · cases he
  · injection he with hn
    exact ⟨e, hmem, hn⟩

theorem typeAt?_entity {e : Definition.Entity Attribute} (he : e ∈ d.entities) :
    ∃ id as s b, c.logical.typeAt? id = some (.entity e.name as s b) := by
  obtain ⟨id, hid⟩ := (made.drafted.exists_find? made.checked).2
    (Definition.mem_typeNames_of_entity he)
  obtain ⟨t, ht, -, -⟩ := made.drafted.typeAt?_of_find? hid
  have hb := made.bare_eq hid ht (Definition.mem_declaredTypes.2 (.inr (.inr ⟨e, he, rfl⟩))) rfl
  cases t with
  | entity n as s b =>
    injection hb with hn
    exact ⟨id, as, s, b, hn ▸ ht⟩
  | basic k => cases hb
  | embeddable n as => cases hb
  | mappedSupertype n as s => cases hb
  | any x y => cases hb
  | tuple n cs => cases hb

theorem typeAt?_embeddable {e : Definition.Embeddable Attribute} (he : e ∈ d.embeddables)
    {id : TypeId} (hid : c.logical.find? e.name = some id) :
    c.logical.typeAt? id = some (.embeddable e.name (c.logical.declaredBy id)) := by
  obtain ⟨t, ht, -, -⟩ := made.drafted.typeAt?_of_find? hid
  have hb := made.bare_eq hid ht (Definition.mem_declaredTypes.2 (.inl ⟨e, he, rfl⟩)) rfl
  cases t with
  | embeddable n as =>
    injection hb with hn
    rw [ht, Logical.Draft.declaredBy, ht, hn]
    rfl
  | basic k => cases hb
  | entity n as s b => cases hb
  | mappedSupertype n as s => cases hb
  | any x y => cases hb
  | tuple n cs => cases hb

/-- A name leads somewhere from an entity on both sides or on neither, and to the same. -/
theorem entityAttributes_rel {e : Definition.Entity Attribute} (he : e ∈ d.entities) {id : TypeId}
    (hid : c.logical.find? e.name = some id) {x : Physical.Entity}
    (hx : c.metamodel.entity? e.name = some x) {n : String} (hn : n ≠ identifierName) :
    Option.Rel (fun y part => Corresponds c.logical c.metamodel y.2 part)
      (c.logical.findAttribute? id n) (c.metamodel.entityPart? x n none) := by
  have hfind := fun {t a} =>
    made.regular.findAttribute?_eq_some (Logical.Draft.lt_of_find? hid) (n := n) (t := t) (a := a)
  cases hf : c.logical.findAttribute? id n with
  | some y =>
    obtain ⟨ht, ha, rfl⟩ := hfind.1 hf
    obtain ⟨part, hpart, hcor⟩ :=
      made.exists_entityPart? he hid hx (Logical.Draft.mem_attributesOf.2 ⟨ht, ha⟩) hn
    rw [hpart]
    exact .some hcor
  | none =>
    cases hp : c.metamodel.entityPart? x n none with
    | none => exact .none
    | some part =>
      obtain ⟨⟨t, a⟩, hy, han⟩ := made.exists_attribute he hid hx hn hp
      obtain ⟨ht, ha⟩ := Logical.Draft.mem_attributesOf.1 hy
      rw [hfind.2 ⟨ht, ha, han⟩] at hf
      cases hf

end MadeFrom

/-- The domain model and the metamodel of a catalog have the same attributes: on each entity,
inherited ones included, under each name but the reserved one of the identifier, and on each use of
an embeddable. -/
theorem sameAttributes_of_ofDefinition {raw : Definition RawAttribute} {c : Catalog}
    (h : ofDefinition raw = .ok c) : SameAttributes raw c := by
  obtain ⟨d, uses, -, hout, made⟩ := exists_madeFrom h
  refine ⟨fun name => ⟨?_, ?_⟩, ?_, ?_, ?_⟩
  · rintro ⟨id, as, s, b, ht⟩
    exact made.exists_entity.2 (made.exists_entity_of_typeAt? ht).2
  · intro hx
    obtain ⟨e, he, rfl⟩ := made.exists_entity.1 hx
    exact made.typeAt?_entity he
  · intro id name as s b x ht hx n hn
    obtain ⟨hid, e, he, rfl⟩ := made.exists_entity_of_typeAt? ht
    exact made.entityAttributes_rel he hid hx hn
  · intro id u hu
    obtain ⟨e, he, hname, -, type, htype, hrel⟩ := made.usage_spec hu
    exact ⟨type, _, hname ▸ made.typeAt?_embeddable he htype, hrel⟩
  · intro id u hu
    obtain ⟨e, he, hname, hnames, -⟩ := made.usage_spec hu
    have hmem : e.map Attribute.name ∈ (raw.map RawAttribute.name).embeddables := by
      rw [← hout]
      exact List.mem_map_of_mem he
    obtain ⟨e', he', heq⟩ := List.mem_map.1 hmem
    rw [Definition.Embeddable.map, Definition.Embeddable.map, Definition.Embeddable.mk.injEq] at heq
    exact ⟨e', he', heq.1.trans hname, hnames.trans heq.2.symm⟩

set_option maxRecDepth 100000 in
theorem sameAttributes_auctionHouse :
    ∃ c, ofDefinition auctionHouse = .ok c ∧ SameAttributes auctionHouse c := by
  obtain ⟨c, hc, -⟩ : ∃ c, ofDefinition auctionHouse = .ok c ∧ true = true :=
    exists_ok_of_any (by decide +kernel)
  exact ⟨c, hc, sameAttributes_of_ofDefinition hc⟩

end QueryPath.Catalog
