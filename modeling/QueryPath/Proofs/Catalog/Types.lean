import QueryPath.Catalog.Types
import QueryPath.Proofs.Definition.Hierarchy
import QueryPath.Proofs.Logical.Registry

/-!
# Types and attributes of a definition in a domain model

What a definition says of an attribute and what its domain model says of it are related by
`Becomes`, which stays true while a draft grows. A draft that holds the declared types of a
definition, and behind them only types that were added when they were asked for, knows each type
at the position at which the definition declares it.
-/

namespace QueryPath.Definition

open Logical (Draft TypeId DomainType)
open Logical.Draft (Grows Interns KnowsKinds)

/-! ## Attributes and what becomes of them -/

/-- The element of a collection has a type in the domain model. -/
def Element.HasType (m : Draft) : Element → TypeId → Prop
  | .basic kind _, type => m.findBasic? kind = some type
  | .embedded name _, type | .entity name _, type => m.find? name = some type

/-- The index of a collection has a type in the domain model. -/
abbrev IndexHasType (m : Draft) : Option Index → Option TypeId → Prop :=
  Option.Rel fun i t => m.findBasic? i.kind = some t

/-- The attribute of the definition becomes the attribute of the domain model. -/
inductive Attribute.Becomes (m : Draft) : Attribute → Logical.Attribute → Prop
  | basic {name kind column storedAs g type} : m.findBasic? kind = some type →
      Becomes m ⟨name, .basic kind column storedAs, g⟩ ⟨name, type, .singular, storedAs, g⟩
  | embedded {name target start g type} : m.find? target = some type →
      Becomes m ⟨name, .embedded target start, g⟩ ⟨name, type, .singular, none, g⟩
  | toOne {name target column g type} : m.find? target = some type →
      Becomes m ⟨name, .toOne target column, g⟩ ⟨name, type, .singular, none, g⟩
  | plural {name g type index} {p : Plural Element} : p.element.HasType m type →
      IndexHasType m p.index index →
      (p.classification.hasIdentifier = true → ∃ t, m.findBasic? .long = some t) →
      Becomes m ⟨name, .plural p, g⟩ ⟨name, type, .plural p.classification index, none, g⟩
  | any {name target g type} : m.findAny? target.discriminator target.key = some type →
      Becomes m ⟨name, .any target, g⟩ ⟨name, type, .singular, none, g⟩

section Growth

variable {m m' : Draft} (grows : Grows m m')

include grows

theorem Element.HasType.mono {e : Element} {type : TypeId} (h : e.HasType m type) :
    e.HasType m' type := by
  cases e with
  | basic kind column => exact grows.findBasic? h
  | embedded name start => exact grows.find? h
  | entity name column => exact grows.find? h

theorem IndexHasType.mono {i : Option Index} {t : Option TypeId} (h : IndexHasType m i t) :
    IndexHasType m' i t := by
  cases h with
  | none => exact .none
  | some hi => exact .some (grows.findBasic? hi)

/-- What an attribute became stays so while the draft grows. -/
theorem Attribute.Becomes.mono {a : Attribute} {b : Logical.Attribute} (h : a.Becomes m b) :
    a.Becomes m' b := by
  cases h with
  | basic h => exact .basic (grows.findBasic? h)
  | embedded h => exact .embedded (grows.find? h)
  | toOne h => exact .toOne (grows.find? h)
  | any h => exact .any (grows.findAny? h)
  | plural he hi hl =>
    refine .plural (he.mono grows) (hi.mono grows) fun h => ?_
    obtain ⟨t, ht⟩ := hl h
    exact ⟨t, grows.findBasic? ht⟩

end Growth

theorem Attribute.Becomes.name_eq {m : Draft} {a : Attribute} {b : Logical.Attribute}
    (h : a.Becomes m b) : b.name = a.name := by
  cases h <;> rfl

theorem Attribute.Becomes.names_eq {m : Draft} {as : List Attribute}
    {bs : List Logical.Attribute} (h : List.Forall₂ (Attribute.Becomes m) as bs) :
    bs.map (·.name) = as.map (·.name) := by
  induction h with
  | nil => rfl
  | cons hab _ ih => rw [List.map_cons, List.map_cons, ih, hab.name_eq]

namespace Logic

theorem find_eq_ok {m : Draft} {n : String} {id : TypeId} (h : m.find? n = some id) :
    find m n = .ok id := by
  rw [find, h]
  rfl

section Steps

variable {d : Definition Attribute} {m : Draft}
  (named : ∀ n ∈ d.typeNames, ∃ id, m.find? n = some id) (knows : m.KnowsKinds)
  {owner name : String}

include named

private theorem find?_of_entity? {n : String} (h : (d.entity? n).isSome = true) :
    ∃ id, m.find? n = some id := by
  obtain ⟨e, he⟩ := Option.isSome_iff_exists.1 h
  obtain ⟨hmem, rfl⟩ := entity?_mem he
  exact named _ (mem_typeNames_of_entity hmem)

private theorem find?_of_embeddable? {n : String} (h : (d.embeddable? n).isSome = true) :
    ∃ id, m.find? n = some id := by
  obtain ⟨e, he⟩ := Option.isSome_iff_exists.1 h
  obtain ⟨hmem, rfl⟩ := embeddable?_mem he
  exact named _ (mem_typeNames.2 (.inl ⟨e, hmem, rfl⟩))

include knows

theorem elementType_spec {e : Element} (h : d.checkElement owner name e = .ok ()) :
    ∃ type m', elementType m e = .ok (type, m') ∧ Interns m m' ∧ m'.KnowsKinds ∧
      e.HasType m' type := by
  cases e with
  | basic kind column =>
    obtain ⟨hint, hb⟩ := m.basic_spec kind
    exact ⟨_, _, rfl, hint, knows.basic kind, hb⟩
  | embedded target start =>
    obtain ⟨id, hid⟩ := find?_of_embeddable? named (checkEmbeddable_eq_ok.1 h)
    exact ⟨id, m, by rw [elementType, find_eq_ok hid]; rfl, .refl m, knows, hid⟩
  | entity target column =>
    obtain ⟨id, hid⟩ := find?_of_entity? named (checkEntity_eq_ok.1 h)
    exact ⟨id, m, by rw [elementType, find_eq_ok hid]; rfl, .refl m, knows, hid⟩

omit named in
theorem indexType_spec (index : Option Index) :
    Interns m (indexType m index).2 ∧ (indexType m index).2.KnowsKinds ∧
      IndexHasType (indexType m index).2 index (indexType m index).1 := by
  cases index with
  | none => exact ⟨.refl m, knows, .none⟩
  | some i =>
    obtain ⟨hint, hb⟩ := m.basic_spec i.kind
    exact ⟨hint, knows.basic i.kind, .some hb⟩

omit named knows in
private theorem lacksIndex_eq_false (name : String) {c : Classification} {i : Option Index}
    {t : Option TypeId}
    (h : IndexHasType m i t) (hi : c.isIndexed = true → i.isSome = true) (type : TypeId)
    (g : Bool) : Draft.lacksIndex ⟨name, type, .plural c t, none, g⟩ = false := by
  cases h with
  | none => simpa [Draft.lacksIndex] using hi
  | some _ => rfl

/-- A checked attribute becomes an attribute with all it needs. -/
theorem attributeOf_spec {a : Attribute} (h : d.checkShape owner a.name a.shape = .ok ()) :
    ∃ b m', attributeOf m a = .ok (b, m') ∧ Interns m m' ∧ m'.KnowsKinds ∧ a.Becomes m' b ∧
      Draft.lacksIndex b = false := by
  obtain ⟨n, shape, g⟩ := a
  cases shape with
  | basic kind column storedAs =>
    obtain ⟨hint, hb⟩ := m.basic_spec kind
    exact ⟨_, _, rfl, hint, knows.basic kind, .basic hb, rfl⟩
  | embedded target start =>
    obtain ⟨id, hid⟩ := find?_of_embeddable? named (checkEmbeddable_eq_ok.1 h)
    refine ⟨_, m, ?_, .refl m, knows, .embedded hid, rfl⟩
    simp only [attributeOf, find_eq_ok hid]
    rfl
  | toOne target column =>
    obtain ⟨id, hid⟩ := find?_of_entity? named (checkEntity_eq_ok.1 h)
    refine ⟨_, m, ?_, .refl m, knows, .toOne hid, rfl⟩
    simp only [attributeOf, find_eq_ok hid]
    rfl
  | any target =>
    obtain ⟨hint, hb⟩ := m.any_spec target.discriminator target.key
    exact ⟨_, _, rfl, hint, knows.any _ _, .any hb, rfl⟩
  | plural p =>
    obtain ⟨helement, -, hindexed, -⟩ := checkPlural_eq_ok.1 h
    obtain ⟨type, m₁, hm₁, int₁, knows₁, htype⟩ := elementType_spec named knows helement
    obtain ⟨int₂, knows₂, hindex⟩ := indexType_spec knows₁ p.index
    generalize hm₂ : indexType m₁ p.index = x at int₂ knows₂ hindex
    obtain ⟨index, m₂⟩ := x
    have heq : attributeOf m ⟨n, .plural p, g⟩ = .ok
        (⟨n, type, .plural p.classification index, none, g⟩,
          if p.classification.hasIdentifier then (m₂.basic .long).2 else m₂) := by
      simp only [attributeOf, pluralType, hm₁, bind, Except.bind, hm₂]
      rfl
    refine ⟨_, _, heq, ?_⟩
    have hlacks := lacksIndex_eq_false n hindex hindexed type g
    split
    · obtain ⟨int₃, hlong⟩ := m₂.basic_spec .long
      exact ⟨(int₁.trans int₂).trans int₃, knows₂.basic .long,
        .plural (htype.mono (int₂.trans int₃).grows) (hindex.mono int₃.grows)
          fun _ => ⟨_, hlong⟩, hlacks⟩
    · rename_i hc
      exact ⟨int₁.trans int₂, knows₂,
        .plural (htype.mono int₂.grows) hindex fun h => absurd h hc, hlacks⟩

end Steps

end Logic

/-! ## The types that a definition declares -/

section DeclaredTypes

variable (d : Definition Attribute)

theorem declaredTypes_name : d.declaredTypes.map (·.name) = d.typeNames := by
  simp only [declaredTypes, typeNames, List.map_append, List.map_map]
  rfl

theorem declaredTypes_declaredName? :
    d.declaredTypes.map (·.declaredName?) = d.typeNames.map some := by
  simp only [declaredTypes, typeNames, List.map_append, List.map_map]
  rfl

variable {d} {t : DomainType}

theorem mem_declaredTypes : t ∈ d.declaredTypes ↔
    (∃ e ∈ d.embeddables, .embeddable e.name [] = t) ∨
    (∃ s ∈ d.mappedSupertypes, .mappedSupertype s.name [] none = t) ∨
    ∃ e ∈ d.entities, .entity e.name [] none e.isAbstract = t := by
  simp [declaredTypes]

/-- A declared type is managed, and known under its name. -/
theorem declaredName?_of_mem (h : t ∈ d.declaredTypes) :
    t.declaredName? = some t.name ∧ t.isManaged = true ∧ t.bare = t := by
  rcases mem_declaredTypes.1 h with ⟨e, _, rfl⟩ | ⟨s, _, rfl⟩ | ⟨e, _, rfl⟩ <;>
    exact ⟨rfl, rfl, rfl⟩

end DeclaredTypes

/-! ## Types of a draft -/

section Types

variable {d : Definition Attribute} {m : Draft} {new : List DomainType}
  (htypes : m.bareTypes = d.declaredTypes ++ new) (hnew : ∀ t ∈ new, t.isInterned = true)

include htypes hnew

theorem typeName_at (id : TypeId) :
    (m.typeAt? id).bind (·.declaredName?) = d.typeNames[id]? := by
  have hbare : (m.typeAt? id).bind (·.declaredName?) =
      (m.bareTypes.map (·.declaredName?))[id]?.bind fun n => n := by
    simp only [Draft.typeAt?, Draft.bareTypes, List.getElem?_map]
    cases m.types[id]? <;> simp
  have hnone : new.map (·.declaredName?) = List.replicate new.length none := by
    rw [List.eq_replicate_iff]
    refine ⟨List.length_map _, fun n hn => ?_⟩
    obtain ⟨t, ht, rfl⟩ := List.mem_map.1 hn
    exact DomainType.declaredName?_of_isInterned (hnew t ht)
  rw [hbare, htypes, List.map_append, declaredTypes_declaredName?, hnone]
  rcases Nat.lt_or_ge id d.typeNames.length with hlt | hge
  · rw [List.getElem?_append_left (by simpa using hlt), List.getElem?_map]
    cases d.typeNames[id]? <;> rfl
  · rw [List.getElem?_append_right (by simpa using hge), List.getElem?_eq_none hge,
      List.getElem?_replicate]
    split <;> rfl

/-- A name stands for the type at the position where the definition declares it. -/
theorem find?_eq_some (nodup : d.typeNames.Nodup) {n : String} {id : TypeId} :
    m.find? n = some id ↔ d.typeNames[id]? = some n := by
  constructor
  · intro h
    obtain ⟨t, ht, hn⟩ := Draft.typeAt?_of_find? h
    rw [← typeName_at htypes hnew, ht]
    exact hn
  · intro h
    have hid := typeName_at htypes hnew id
    rw [h] at hid
    obtain ⟨t, ht, hn⟩ := Option.bind_eq_some_iff.1 hid
    cases hf : m.find? n with
    | none =>
      have hnone := List.findIdx?_eq_none_iff.1 hf t (List.mem_of_getElem? ht)
      simp [hn] at hnone
    | some j =>
      obtain ⟨t', ht', hn'⟩ := Draft.typeAt?_of_find? hf
      have hj := typeName_at htypes hnew j
      rw [ht', Option.bind_some, hn'] at hj
      obtain ⟨hlt, hget⟩ := List.getElem?_eq_some_iff.1 h
      obtain ⟨hlt', hget'⟩ := List.getElem?_eq_some_iff.1 hj.symm
      rw [(List.Nodup.getElem_inj_iff nodup).1 (hget'.trans hget.symm)]

theorem exists_find? (nodup : d.typeNames.Nodup) {n : String} :
    (∃ id, m.find? n = some id) ↔ n ∈ d.typeNames := by
  simp only [find?_eq_some htypes hnew nodup, List.mem_iff_getElem?]

/-- What a name stands for is one of the declared types. -/
theorem mem_declaredTypes_of_find? {n : String} {id : TypeId} (h : m.find? n = some id) :
    ∃ t, m.typeAt? id = some t ∧ t.bare ∈ d.declaredTypes ∧ t.declaredName? = some n := by
  obtain ⟨t, ht, hn⟩ := Draft.typeAt?_of_find? h
  refine ⟨t, ht, ?_, hn⟩
  have hmem : t.bare ∈ d.declaredTypes ++ new := by
    rw [← htypes]
    exact List.mem_map_of_mem (List.mem_of_getElem? ht)
  rcases List.mem_append.1 hmem with hmem | hmem
  · exact hmem
  · have hnone := DomainType.declaredName?_of_isInterned (hnew _ hmem)
    rw [DomainType.declaredName?_bare, hn] at hnone
    cases hnone

/-- A type without a name was added when it was asked for. -/
theorem isInterned_of_unnamed (nodup : d.typeNames.Nodup) {id : TypeId} {t : DomainType}
    (ht : m.typeAt? id = some t) (h : ∀ n, m.find? n ≠ some id) : t.isInterned = true := by
  have hid := typeName_at htypes hnew id
  rw [ht, Option.bind_some] at hid
  cases hn : t.declaredName? with
  | none => cases t <;> first | rfl | cases hn
  | some n =>
    rw [hn] at hid
    exact absurd ((find?_eq_some htypes hnew nodup).2 hid.symm) (h n)

end Types

end QueryPath.Definition
