import QueryPath.Definition.Hierarchy
import QueryPath.Proofs.Walk

/-!
# The outline of a definition

How the types of a definition hang together does not depend on what their attributes hold.
`Definition.map` changes the attributes alone, and all that is looked up by name commutes with it.
The outline of a definition keeps nothing of the attributes but their names.

* `declarations` lists all attributes with the names of the types that declare them; the
  identifier of an entity is its first attribute.
* `members` are the attributes that the type of a name declares.
* `DistinctNames` says that no attribute hides another, in an embeddable or along a chain of
  supertypes.
-/

namespace QueryPath.Definition

variable {α β : Type}

/-! ## Other attributes -/

def Embeddable.map (f : α → β) (e : Embeddable α) : Embeddable β := ⟨e.name, e.attributes.map f⟩

def MappedSupertype.map (f : α → β) (s : MappedSupertype α) : MappedSupertype β :=
  ⟨s.name, s.supertype, s.attributes.map f⟩

def Entity.map (f : α → β) (e : Entity α) : Entity β :=
  ⟨e.name, e.table, e.supertype, e.isAbstract, e.identifier, e.discriminator, e.attributes.map f⟩

/-- The definition with other attributes. -/
def map (f : α → β) (d : Definition α) : Definition β :=
  ⟨d.name, d.embeddables.map (·.map f), d.mappedSupertypes.map (·.map f), d.entities.map (·.map f)⟩

variable (f : α → β) (d : Definition α)

@[simp] theorem embeddable?_map (n : String) :
    (d.map f).embeddable? n = (d.embeddable? n).map (·.map f) := by
  simp only [embeddable?, map, List.find?_map]
  rfl

@[simp] theorem mappedSupertype?_map (n : String) :
    (d.map f).mappedSupertype? n = (d.mappedSupertype? n).map (·.map f) := by
  simp only [mappedSupertype?, map, List.find?_map]
  rfl

@[simp] theorem entity?_map (n : String) :
    (d.map f).entity? n = (d.entity? n).map (·.map f) := by
  simp only [entity?, map, List.find?_map]
  rfl

@[simp] theorem typeNames_map : (d.map f).typeNames = d.typeNames := by
  simp only [typeNames, map, List.map_map]
  rfl

@[simp] theorem isExtensible_map (n : String) :
    (d.map f).isExtensible n = d.isExtensible n := by
  simp [isExtensible]

@[simp] theorem supertypeOf?_map : (d.map f).supertypeOf? = d.supertypeOf? := by
  funext n
  simp only [supertypeOf?, entity?_map, mappedSupertype?_map]
  cases d.entity? n with
  | some e => rfl
  | none => cases d.mappedSupertype? n <;> rfl

@[simp] theorem tableUpTo_map (n : Nat) : (d.map f).tableUpTo n = d.tableUpTo n := by
  induction n with
  | zero => rfl
  | succ n ih =>
    funext name
    simp only [tableUpTo, entity?_map, supertypeOf?_map, ih]
    cases d.entity? name <;> rfl

@[simp] theorem tableOf?_map : (d.map f).tableOf? = d.tableOf? := by
  funext name
  rw [tableOf?, tableUpTo_map, tableOf?, map, List.length_map, List.length_map]

/-! ## Declarations -/

/-- All attributes with the names of the types that declare them. `ofId` makes an attribute of
the identifier of an entity. -/
def declarations (ofId : Identifier → α) (d : Definition α) : List (String × α) :=
  d.embeddables.flatMap (fun e => e.attributes.map (e.name, ·))
    ++ d.mappedSupertypes.flatMap (fun s => s.attributes.map (s.name, ·))
    ++ d.entities.flatMap fun e => (e.identifier.toList.map ofId ++ e.attributes).map (e.name, ·)

/-- The attributes that the type of a name declares. -/
def attributesAt (ofId : Identifier → α) (d : Definition α) (n : String) : List α :=
  ((d.declarations ofId).filter (·.1 == n)).map (·.2)

theorem declarations_map (ofId : Identifier → α) :
    (d.map f).declarations (f ∘ ofId) =
      (d.declarations ofId).map fun x => (x.1, f x.2) := by
  simp only [declarations, map, List.flatMap_map, List.map_append, List.map_flatMap,
    Embeddable.map, MappedSupertype.map, Entity.map, List.map_map, Function.comp_def]

theorem attributesAt_map (ofId : Identifier → α) (n : String) :
    (d.map f).attributesAt (f ∘ ofId) n = (d.attributesAt ofId n).map f := by
  simp only [attributesAt, declarations_map, List.filter_map, List.map_map]
  rfl

/-- The names of the attributes that the type of a name declares. -/
def memberNames (d : Definition String) (n : String) : List String :=
  d.attributesAt (·.name) n

/-- No attribute hides another. -/
structure DistinctNames (d : Definition String) : Prop where
  embeddable : ∀ e ∈ d.embeddables, e.attributes.Nodup
  chain : ∀ n ∈ d.typeNames, ∀ l, Walk d.supertypeOf? n l → (l.flatMap d.memberNames).Nodup

/-- The identifier as an attribute. -/
def Identifier.attribute (i : Identifier) : Attribute :=
  { name := i.name, shape := .basic i.kind i.column none }

/-- The definition with the names of its attributes alone. -/
def outline (d : Definition Attribute) : Definition String := d.map Attribute.name

/-- The attributes that the type of a name declares, the identifier first. -/
def members (d : Definition Attribute) (n : String) : List Attribute :=
  d.attributesAt Identifier.attribute n

theorem mem_members {d : Definition Attribute} {n : String} {a : Attribute} :
    a ∈ d.members n ↔ (n, a) ∈ d.declarations Identifier.attribute := by
  simp only [members, attributesAt, List.mem_map, List.mem_filter, beq_iff_eq]
  constructor
  · rintro ⟨x, ⟨hx, rfl⟩, rfl⟩
    exact hx
  · intro h
    exact ⟨_, ⟨h, rfl⟩, rfl⟩

theorem memberNames_outline (d : Definition Attribute) (n : String) :
    d.outline.memberNames n = (d.members n).map (·.name) :=
  attributesAt_map Attribute.name d Identifier.attribute n

/-! ## Types by their names -/

section ByName

theorem find?_of_mem {γ : Type} {name : γ → String} {l : List γ}
    (nodup : (l.map name).Nodup) {x : γ} (hx : x ∈ l) : l.find? (name · == name x) = some x := by
  cases hf : l.find? (name · == name x) with
  | none => exact absurd (BEq.rfl) (List.find?_eq_none.1 hf x hx)
  | some y =>
    have hy : name y = name x := by simpa using List.find?_some hf
    rw [List.inj_on_of_nodup_map nodup (List.mem_of_find?_eq_some hf) hx hy]

private theorem find?_eq_none_of_not_mem {γ : Type} {name : γ → String} {l : List γ} {n : String}
    (h : n ∉ l.map name) : l.find? (name · == n) = none := by
  rw [List.find?_eq_none]
  intro x hx hn
  exact h (List.mem_map.2 ⟨x, hx, by simpa using hn⟩)

variable {d : Definition α}

theorem mem_typeNames {n : String} :
    n ∈ d.typeNames ↔ (∃ e ∈ d.embeddables, e.name = n) ∨ (∃ s ∈ d.mappedSupertypes, s.name = n) ∨
      ∃ e ∈ d.entities, e.name = n := by
  simp [typeNames]

theorem mem_typeNames_of_entity {e : Entity α} (he : e ∈ d.entities) : e.name ∈ d.typeNames :=
  mem_typeNames.2 (.inr (.inr ⟨e, he, rfl⟩))

theorem entity?_mem {n : String} {e : Entity α} (h : d.entity? n = some e) :
    e ∈ d.entities ∧ e.name = n :=
  ⟨List.mem_of_find?_eq_some h, by simpa using List.find?_some h⟩

theorem mappedSupertype?_mem {n : String} {s : MappedSupertype α}
    (h : d.mappedSupertype? n = some s) : s ∈ d.mappedSupertypes ∧ s.name = n :=
  ⟨List.mem_of_find?_eq_some h, by simpa using List.find?_some h⟩

theorem embeddable?_mem {n : String} {e : Embeddable α} (h : d.embeddable? n = some e) :
    e ∈ d.embeddables ∧ e.name = n :=
  ⟨List.mem_of_find?_eq_some h, by simpa using List.find?_some h⟩

theorem isExtensible_mem {n : String} (h : d.isExtensible n = true) : n ∈ d.typeNames := by
  simp only [isExtensible, Bool.or_eq_true, Option.isSome_iff_exists] at h
  rcases h with ⟨e, he⟩ | ⟨s, hs⟩
  · obtain ⟨hmem, hn⟩ := entity?_mem he
    exact mem_typeNames.2 (.inr (.inr ⟨e, hmem, hn⟩))
  · obtain ⟨hmem, hn⟩ := mappedSupertype?_mem hs
    exact mem_typeNames.2 (.inr (.inl ⟨s, hmem, hn⟩))

variable (nodup : d.typeNames.Nodup)

include nodup

theorem nodup_embeddables : (d.embeddables.map (·.name)).Nodup :=
  (List.nodup_append.1 (List.nodup_append.1 nodup).1).1

theorem nodup_mappedSupertypes : (d.mappedSupertypes.map (·.name)).Nodup :=
  (List.nodup_append.1 (List.nodup_append.1 nodup).1).2.1

theorem nodup_entities : (d.entities.map (·.name)).Nodup := (List.nodup_append.1 nodup).2.1

theorem entity?_of_mem {e : Entity α} (he : e ∈ d.entities) : d.entity? e.name = some e :=
  find?_of_mem (nodup_entities nodup) he

theorem mappedSupertype?_of_mem {s : MappedSupertype α} (hs : s ∈ d.mappedSupertypes) :
    d.mappedSupertype? s.name = some s :=
  find?_of_mem (nodup_mappedSupertypes nodup) hs

/-- A table that an entity names is its table. -/
theorem tableOf?_of_table {e : Entity α} (he : e ∈ d.entities) {table : String}
    (h : e.table = some table) : d.tableOf? e.name = some table := by
  have hpos : 0 < d.entities.length := List.length_pos_of_mem he
  obtain ⟨n, hn⟩ := Nat.exists_eq_add_of_lt hpos
  rw [tableOf?, show d.entities.length + d.mappedSupertypes.length =
    n + d.mappedSupertypes.length + 1 by omega, tableUpTo, entity?_of_mem nodup he,
    Option.bind_some, h]

/-- An entity has no name of another sort of type. -/
theorem mappedSupertype?_of_entity {e : Entity α} (he : e ∈ d.entities) :
    d.mappedSupertype? e.name = none := by
  apply find?_eq_none_of_not_mem
  intro h
  exact (List.nodup_append.1 nodup).2.2 _ (List.mem_append_right _ h) _
    (List.mem_map_of_mem he) rfl

theorem entity?_of_mappedSupertype {s : MappedSupertype α} (hs : s ∈ d.mappedSupertypes) :
    d.entity? s.name = none := by
  apply find?_eq_none_of_not_mem
  intro h
  exact (List.nodup_append.1 nodup).2.2 _ (List.mem_append_right _ (List.mem_map_of_mem hs)) _ h rfl

/-- An embeddable has no name of another sort of type. -/
theorem not_isExtensible_of_embeddable {e : Embeddable α} (he : e ∈ d.embeddables) :
    d.entity? e.name = none ∧ d.mappedSupertype? e.name = none := by
  obtain ⟨hem, -, hdisj⟩ := List.nodup_append.1 nodup
  obtain ⟨-, -, hdisj'⟩ := List.nodup_append.1 hem
  have hn := List.mem_map_of_mem (f := Embeddable.name) he
  exact ⟨find?_eq_none_of_not_mem fun h => hdisj _ (List.mem_append_left _ hn) _ h rfl,
    find?_eq_none_of_not_mem fun h => hdisj' _ hn _ h rfl⟩

end ByName

/-! ## Declarations of one type -/

/-- The declarations of those types in a list that have a name. -/
theorem filter_flatMap {γ : Type} (name : γ → String) {attributes : γ → List α}
    {l : List γ} {n : String} :
    ((l.flatMap fun x => (attributes x).map (name x, ·)).filter (·.1 == n)).map (·.2) =
      (l.filter (name · == n)).flatMap attributes := by
  induction l with
  | nil => rfl
  | cons x l ih =>
    rw [List.flatMap_cons, List.filter_append, List.map_append, ih, List.filter_cons]
    by_cases hn : name x = n <;> simp [List.filter_map, Function.comp_def, hn]

theorem attributesAt_eq (ofId : Identifier → α) (d : Definition α) (n : String) :
    d.attributesAt ofId n = (d.embeddables.filter (·.name == n)).flatMap (·.attributes)
      ++ (d.mappedSupertypes.filter (·.name == n)).flatMap (·.attributes)
      ++ (d.entities.filter (·.name == n)).flatMap fun e =>
        e.identifier.toList.map ofId ++ e.attributes := by
  rw [attributesAt, declarations, List.filter_append, List.filter_append, List.map_append,
    List.map_append, filter_flatMap, filter_flatMap, filter_flatMap]

private theorem filter_eq_nil {γ : Type} {name : γ → String} {l : List γ} {n : String}
    (h : n ∉ l.map name) : l.filter (name · == n) = [] := by
  rw [List.filter_eq_nil_iff]
  intro x hx hn
  exact h (List.mem_map.2 ⟨x, hx, by simpa using hn⟩)

theorem filter_eq_singleton {γ : Type} {name : γ → String} {l : List γ}
    (nodup : (l.map name).Nodup) {x : γ} (hx : x ∈ l) : l.filter (name · == name x) = [x] := by
  induction l with
  | nil => cases hx
  | cons y l ih =>
    obtain ⟨hy, hl⟩ := List.nodup_cons.1 nodup
    rcases List.mem_cons.1 hx with rfl | hx
    · simp [filter_eq_nil hy]
    · have hne : name y ≠ name x := fun h => hy (h ▸ List.mem_map_of_mem hx)
      simp [hne, ih hl hx]

section Members

variable {d : Definition Attribute} (nodup : d.typeNames.Nodup)

include nodup

theorem members_embeddable {e : Embeddable Attribute} (he : e ∈ d.embeddables) :
    d.members e.name = e.attributes := by
  obtain ⟨hem, -, hdisj⟩ := List.nodup_append.1 nodup
  obtain ⟨-, -, hdisj'⟩ := List.nodup_append.1 hem
  have hn := List.mem_map_of_mem (f := Embeddable.name) he
  rw [members, attributesAt_eq, filter_eq_singleton (nodup_embeddables nodup) he,
    filter_eq_nil fun h => hdisj' _ hn _ h rfl,
    filter_eq_nil fun h => hdisj _ (List.mem_append_left _ hn) _ h rfl]
  simp

theorem members_mappedSupertype {s : MappedSupertype Attribute} (hs : s ∈ d.mappedSupertypes) :
    d.members s.name = s.attributes := by
  obtain ⟨hem, -, hdisj⟩ := List.nodup_append.1 nodup
  obtain ⟨-, -, hdisj'⟩ := List.nodup_append.1 hem
  have hn := List.mem_map_of_mem (f := MappedSupertype.name) hs
  rw [members, attributesAt_eq, filter_eq_nil fun h => hdisj' _ h _ hn rfl,
    filter_eq_singleton (nodup_mappedSupertypes nodup) hs,
    filter_eq_nil fun h => hdisj _ (List.mem_append_right _ hn) _ h rfl]
  simp

theorem members_entity {e : Entity Attribute} (he : e ∈ d.entities) :
    d.members e.name = e.identifier.toList.map Identifier.attribute ++ e.attributes := by
  obtain ⟨-, -, hdisj⟩ := List.nodup_append.1 nodup
  have hn := List.mem_map_of_mem (f := Entity.name) he
  rw [members, attributesAt_eq, filter_eq_nil fun h => hdisj _ (List.mem_append_left _ h) _ hn rfl,
    filter_eq_nil fun h => hdisj _ (List.mem_append_right _ h) _ hn rfl,
    filter_eq_singleton (nodup_entities nodup) he]
  simp

end Members

end QueryPath.Definition
