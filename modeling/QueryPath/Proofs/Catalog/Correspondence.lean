import QueryPath.Proofs.Catalog.Acceptance
import QueryPath.Proofs.Physical.Lineage

/-!
# Attributes and the parts that store them

An attribute of the domain model corresponds to a part of the metamodel: a single value to a part
that stores values of its kind (`Part.Stores`), a collection to a collection of the same
classification whose elements, index and ids are stored likewise (`Corresponds`). What a definition
says of one attribute makes an attribute and a mapping that correspond
(`Catalog.MadeFrom.corresponds`).

| kind of the source     | part               | value of a part of a collection   |
|------------------------|--------------------|-----------------------------------|
| `basic k r`            | column of kind `r` | column of kind `r`                |
| `embedded m`           | use of `m`         | use of `m`                        |
| `entity t`             | reference to `t`   | reference to `t`                  |
| `any d k`              | columns `d`, `k`   |                                   |
-/

namespace QueryPath

open Logical (Model SourceKind)
open Physical (Metamodel Part PartValue)

namespace Physical

/-- The part stores single values of the kind. -/
inductive Part.Stores (p : Metamodel) : SourceKind → Part → Prop
  | basic {kind stored column} : column.kind = stored →
      Stores p (.basic kind stored) (.column column)
  | embedded {name id usage} : p.usage? id = some usage → usage.embeddable = name →
      Stores p (.embedded name) (.usage usage)
  | entity {name toOne entity} : toOne.target = name → p.entity? name = some entity →
      Stores p (.entity name) (.toOne toOne)
  | any {discriminator key x} : x.discriminator.kind = discriminator → x.key.kind = key →
      Stores p (.any discriminator key) (.any x)

/-- A part of a collection stores values of the kind. -/
inductive PartValue.Stores (p : Metamodel) : SourceKind → PartValue → Prop
  | basic {kind stored column} : column.kind = stored →
      Stores p (.basic kind stored) (.column column)
  | embedded {name id usage} : p.usage? id = some usage → usage.embeddable = name →
      Stores p (.embedded name) (.embedded id)
  | entity {target column entity} : p.entity? target = some entity →
      Stores p (.entity target) (.entity target column)

end Physical

/-- The part stores what the attribute of the domain model holds. -/
inductive Corresponds (m : Model) (p : Metamodel) (a : Logical.Attribute) : Part → Prop
  | singular {kind part} : a.nature = .singular → m.HasKind a.type a.storedAs kind →
      part.Stores p kind → Corresponds m p a part
  | plural {classification index kind collection} :
      a.nature = .plural classification index →
      collection.classification = classification →
      m.HasKind a.type a.storedAs kind →
      collection.element.nature = .element → collection.element.value.Stores p kind →
      Option.Rel (fun type (part : Physical.CollectionPart) => part.nature = .index ∧
        ∃ kind, m.HasKind type none kind ∧ part.value.Stores p kind) index collection.index →
      (classification.hasIdentifier = true → ∃ part, collection.identifier = some part ∧
        part.nature = .identifier ∧ part.value.Stores p (.basic .long .long)) →
      Corresponds m p a (.plural collection)

namespace Catalog.MadeFrom

open Definition (Attribute Identifier)
open Logical (TypeId DomainType)

variable {c : Catalog} {d : Definition Attribute} {uses : Definition.Uses}
  (made : c.MadeFrom d uses)

include made

/-! ## Types and descriptors by their names -/

/-- A type is what the definition declares under its name. -/
theorem bare_eq {n : String} {id : TypeId} {t t' : DomainType} (hid : c.logical.find? n = some id)
    (ht : c.logical.typeAt? id = some t) (ht' : t' ∈ d.declaredTypes) (hn : t'.name = n) :
    t.bare = t' := by
  obtain ⟨t₁, h₁, hmem, hname⟩ := made.drafted.typeAt?_of_find? hid
  rw [ht, Option.some.injEq] at h₁
  subst h₁
  have hnodup := made.checked.nodup_typeNames
  rw [← Definition.declaredTypes_name] at hnodup
  apply List.inj_on_of_nodup_map hnodup hmem ht'
  have hb := (Definition.declaredName?_of_mem hmem).1
  rw [DomainType.declaredName?_bare, hname, Option.some.injEq] at hb
  rw [← hb, hn]

theorem hasKind_of_mem {n : String} {id : TypeId} {t' : DomainType} {kind : SourceKind}
    (hid : c.logical.find? n = some id) (ht' : t' ∈ d.declaredTypes) (hn : t'.name = n)
    {storedAs : Option Kind} (hk : t'.sourceKind? storedAs = some kind) :
    c.logical.HasKind id storedAs kind := by
  obtain ⟨t, ht, -, -⟩ := made.drafted.typeAt?_of_find? hid
  rw [Model.HasKind, ht, Option.bind_some, ← DomainType.sourceKind?_bare,
    made.bare_eq hid ht ht' hn, hk]

theorem hasKind_entity {e : Definition.Entity Attribute} (he : e ∈ d.entities) {id : TypeId}
    (hid : c.logical.find? e.name = some id) (storedAs : Option Kind) :
    c.logical.HasKind id storedAs (.entity e.name) :=
  made.hasKind_of_mem hid (Definition.mem_declaredTypes.2 (.inr (.inr ⟨e, he, rfl⟩))) rfl rfl

theorem hasKind_embeddable {e : Definition.Embeddable Attribute} (he : e ∈ d.embeddables)
    {id : TypeId} (hid : c.logical.find? e.name = some id) (storedAs : Option Kind) :
    c.logical.HasKind id storedAs (.embedded e.name) :=
  made.hasKind_of_mem hid (Definition.mem_declaredTypes.2 (.inl ⟨e, he, rfl⟩)) rfl rfl

omit made in
theorem hasKind_basic {m : Model} {kind : Kind} {id : TypeId} (hid : m.findBasic? kind = some id)
    (storedAs : Option Kind) : m.HasKind id storedAs (.basic kind (storedAs.getD kind)) := by
  rw [Model.HasKind, Logical.Draft.typeAt?_of_findBasic? hid]
  rfl

omit made in
theorem hasKind_any {m : Model} {discriminator key : Kind} {id : TypeId}
    (hid : m.findAny? discriminator key = some id) (storedAs : Option Kind) :
    m.HasKind id storedAs (.any discriminator key) := by
  rw [Model.HasKind, Logical.Draft.typeAt?_of_findAny? hid]
  rfl

/-- Each entity of the definition has a descriptor. -/
theorem exists_entity {n : String} :
    (∃ x, c.metamodel.entity? n = some x) ↔ ∃ e ∈ d.entities, e.name = n := by
  rw [← Option.isSome_iff_exists, Metamodel.entity?_isSome, made.laidOut.entityNames, List.mem_map]

/-- The use of an embeddable at a place. -/
theorem exists_usage {id : Physical.UsageId} {use : Definition.Place × String}
    (h : uses[id]? = some use) :
    ∃ u, c.metamodel.usage? id = some u ∧ u.embeddable = use.2 := by
  have hlt := (List.getElem?_eq_some_iff.1 h).1
  rw [made.laidOut.length] at hlt
  obtain ⟨use', e, huse, -, hstored⟩ :=
    made.laidOut.complete id _ (Nat.zero_le _) (List.getElem?_eq_getElem hlt)
  rw [h, Option.some.injEq] at huse
  exact ⟨_, List.getElem?_eq_getElem hlt, huse ▸ hstored.embeddable⟩

theorem exists_part {a : Attribute} {place : Definition.Place} {x : Physical.Mapping}
    (hx : a.Stored c.metamodel.tableOf uses place x) :
    ∃ part, c.metamodel.partOf? x = some part := by
  cases hx with
  | embedded hid =>
    obtain ⟨u, hu, -⟩ := made.exists_usage hid
    exact ⟨.usage u, congrArg (Option.map _) hu⟩
  | basic | toOne | plural | any => exact ⟨_, rfl⟩

/-! ## Attributes and mappings -/

theorem stores_element {owner name role table : String} {e : Definition.Element}
    {type : TypeId} {v : PartValue} (hcheck : d.checkElement owner name e = .ok ())
    (htype : e.HasType c.logical.toDraft type) (hv : e.Stored uses role table v) :
    ∃ kind, c.logical.HasKind type none kind ∧ v.Stores c.metamodel kind := by
  cases hv with
  | basic => exact ⟨_, hasKind_basic htype none, .basic rfl⟩
  | embedded hid =>
    obtain ⟨x, hx⟩ := Option.isSome_iff_exists.1 (Definition.checkEmbeddable_eq_ok.1 hcheck)
    obtain ⟨hmem, rfl⟩ := Definition.embeddable?_mem hx
    obtain ⟨u, hu, hue⟩ := made.exists_usage hid
    exact ⟨_, made.hasKind_embeddable hmem htype none, .embedded hu hue⟩
  | entity =>
    obtain ⟨x, hx⟩ := Option.isSome_iff_exists.1 (Definition.checkEntity_eq_ok.1 hcheck)
    obtain ⟨hmem, rfl⟩ := Definition.entity?_mem hx
    obtain ⟨y, hy⟩ := made.exists_entity.2 ⟨x, hmem, rfl⟩
    exact ⟨_, made.hasKind_entity hmem htype none, .entity hy⟩

omit made in
theorem stores_index {i : Option Definition.Index} {index : Option TypeId}
    (h : Definition.IndexHasType c.logical.toDraft i index) (role table : String) :
    Option.Rel (fun type (part : Physical.CollectionPart) => part.nature = .index ∧
      ∃ kind, c.logical.HasKind type none kind ∧ part.value.Stores c.metamodel kind) index
      (i.map fun i =>
        ⟨.index, role, .column ⟨PartNature.index.name, table, i.column, i.kind⟩⟩) := by
  cases h with
  | none => exact .none
  | some hi => exact .some ⟨rfl, _, hasKind_basic hi none, .basic rfl⟩

/-- An attribute and a mapping that are made from one attribute of the definition correspond. -/
theorem corresponds {n : String} {a : Attribute} (ha : a ∈ d.members n) {b : Logical.Attribute}
    (hb : a.Becomes c.logical.toDraft b) {place : Definition.Place} {x : Physical.Mapping}
    (hx : a.Stored c.metamodel.tableOf uses place x) :
    ∃ part, c.metamodel.partOf? x = some part ∧ Corresponds c.logical c.metamodel b part := by
  have hdecl := Definition.mem_members.1 ha
  have hshape := made.checked.checkShape _ hdecl
  cases hx with
  | basic =>
    cases hb with
    | basic h => exact ⟨_, rfl, .singular rfl (hasKind_basic h _) (.basic rfl)⟩
  | embedded hid =>
    cases hb with
    | embedded h =>
      obtain ⟨y, hy⟩ := Option.isSome_iff_exists.1 (Definition.checkEmbeddable_eq_ok.1 hshape)
      obtain ⟨hmem, rfl⟩ := Definition.embeddable?_mem hy
      obtain ⟨u, hu, hue⟩ := made.exists_usage hid
      exact ⟨.usage u, congrArg (Option.map _) hu,
        .singular rfl (made.hasKind_embeddable hmem h none) (.embedded hu hue)⟩
  | toOne =>
    cases hb with
    | toOne h =>
      obtain ⟨y, hy⟩ := Option.isSome_iff_exists.1 (Definition.checkEntity_eq_ok.1 hshape)
      obtain ⟨hmem, rfl⟩ := Definition.entity?_mem hy
      obtain ⟨z, hz⟩ := made.exists_entity.2 ⟨y, hmem, rfl⟩
      exact ⟨_, rfl, .singular rfl (made.hasKind_entity hmem h none) (.entity rfl hz)⟩
  | any =>
    cases hb with
    | any h =>
      exact ⟨_, rfl, .singular rfl (hasKind_any h none) (.any rfl rfl)⟩
  | plural hv =>
    cases hb with
    | plural htype hindex _ =>
      obtain ⟨helement, -, -, hid⟩ := Definition.checkPlural_eq_ok.1 hshape
      obtain ⟨kind, hkind, hstores⟩ := made.stores_element helement htype hv
      refine ⟨_, rfl, .plural rfl rfl hkind rfl hstores (stores_index hindex _ _)
        fun hc => ?_⟩
      obtain ⟨column, hcolumn⟩ := Option.isSome_iff_exists.1 (hid hc)
      exact ⟨_, congrArg (Option.map _) hcolumn, rfl, .basic rfl⟩

end Catalog.MadeFrom

end QueryPath
