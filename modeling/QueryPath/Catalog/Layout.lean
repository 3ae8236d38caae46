import QueryPath.Catalog.Error

/-!
# The tables and columns of a definition

* An entity without a table shares that of the nearest entity above it.
* Attributes of mapped supertypes are stored with the first entity below them.
* Each use of an embeddable has its own columns; their names begin with the starts given at all
  uses around them, the outermost first.

Tables, entities and embeddables are looked up by name, and one that is missing is a fault, although
the check of the definition has looked for it before.
-/

namespace QueryPath.Definition

open Physical (Metamodel UsageId)

/-- Where attributes are stored: the place they are at, their table, and the start of the names
of their columns. -/
structure Place where
  role : String
  table : String
  columnStart : String
deriving DecidableEq, Repr

namespace Place

def column (p : Place) (name : String) : String := p.columnStart ++ name

/-- The place of an embedded attribute. -/
def embedded (p : Place) (name columnStart : String) : Place :=
  { p with role := s!"{p.role}.{name}", columnStart := p.column columnStart }

end Place

/-- Adds a use of the embeddable of that name at a place. -/
abbrev AddUsage := Metamodel → Place → (name : String) → Except CatalogError (UsageId × Metamodel)

/-- The descriptor of an entity that was declared. -/
def declaredEntity (m : Metamodel) (name : String) : Except CatalogError Physical.Entity :=
  (require (.undeclaredEntity name) (m.entity? name)).mapError .invalid

/-- The table of a collection: its own, or that of the entities it holds. -/
def Plural.tableIn (m : Metamodel) (role : String) (p : Plural Element) :
    Except CatalogError String :=
  match p.table, p.element with
  | some table, _ => .ok table
  | none, .entity target _ => (declaredEntity m target).map (·.table)
  | none, _ => .error (.invalid (.missingTable role))

/-- What the elements of a collection are stored as. -/
def elementValue (addUsage : AddUsage) (m : Metamodel) (role table : String) :
    Element → Except CatalogError (Physical.PartValue × Metamodel)
  | .basic kind column => .ok (.column ⟨PartNature.element.name, table, column, kind⟩, m)
  | .embedded name columnStart => do
      let (id, m) ← addUsage m ⟨s!"{role}.{PartNature.element.name}", table, columnStart⟩ name
      return (.embedded id, m)
  | .entity target column => do
      let _ ← declaredEntity m target
      return (.entity target column, m)

/-- How a collection is stored. -/
def pluralMapping (addUsage : AddUsage) (m : Metamodel) (role name : String)
    (p : Plural Element) : Except CatalogError (Physical.Plural × Metamodel) := do
  let table ← p.tableIn m role
  let (element, m) ← elementValue addUsage m role table p.element
  let part (nature : PartNature) (value : Physical.PartValue) : Physical.CollectionPart :=
    ⟨nature, role, value⟩
  let column (nature : PartNature) (column : String) (kind : Kind) : Physical.CollectionPart :=
    part nature (.column ⟨nature.name, table, column, kind⟩)
  return ({
    name, role
    classification := p.classification
    table := p.table
    keyColumn := p.keyColumn
    element := part .element element
    index := p.index.map fun i => column .index i.column i.kind
    identifier := p.idColumn.map fun c => column .identifier c .long }, m)

/-- How an attribute is stored at a place. -/
def mappingAt (addUsage : AddUsage) (m : Metamodel) (place : Place) (a : Attribute) :
    Except CatalogError (Physical.Mapping × Metamodel) := do
  match a.shape with
  | .basic kind column storedAs =>
      return (.column ⟨a.name, place.table, place.column column, storedAs.getD kind⟩, m)
  | .embedded name columnStart =>
      let (id, m) ← addUsage m (place.embedded a.name columnStart) name
      return (.embedded a.name id, m)
  | .toOne target joinColumn =>
      let _ ← declaredEntity m target
      return (.toOne ⟨a.name, target, place.table, place.column joinColumn⟩, m)
  | .plural p =>
      let (p, m) ← pluralMapping addUsage m s!"{place.role}.{a.name}" a.name p
      return (.plural p, m)
  | .any any =>
      return (.any {
        name := a.name
        discriminator := ⟨discriminatorName, place.table,
          place.column any.discriminatorColumn, any.discriminator⟩
        key := ⟨keyName, place.table, place.column any.keyColumn, any.key⟩
        values := any.values }, m)

/-- Adds a use of an embeddable with the mappings of its attributes. `available` holds the
embeddables that are not around this use: inside a use of an embeddable it is not used again. -/
def addUsage (available : List (Embeddable Attribute)) (m : Metamodel) (place : Place)
    (name : String) : Except CatalogError (UsageId × Metamodel) :=
  match _h : available.find? (·.name == name) with
  | none => .error (.invalid (.undeclaredEmbeddable name))
  | some e => do
      let (id, m) := m.addUsage place.role name place.table
      let m ← e.attributes.foldlM (fun m a => do
        let (mapping, m) ← mappingAt
          (fun m place name => addUsage (available.eraseP (·.name == e.name)) m place name)
          m place a
        (m.addUsageMapping id mapping).mapError .physical) m
      return (id, m)
termination_by available.length
decreasing_by
  have h := List.mem_of_find?_eq_some _h
  rw [List.length_eraseP_of_mem h (by simp)]
  exact Nat.sub_one_lt (Nat.ne_of_gt (List.length_pos_of_mem h))

/-- Declares an entity with its table. -/
def declareEntity (d : Definition Attribute) (m : Metamodel) (e : Entity Attribute) :
    Except CatalogError Metamodel := do
  let table ← (require (.noTable e.name) (d.tableOf? e.name)).mapError .invalid
  (m.declareEntity e.name table).mapError .physical

/-- Puts an entity under the nearest entity above it. -/
def linkEntity (d : Definition Attribute) (m : Metamodel) (e : Entity Attribute) :
    Except CatalogError Metamodel :=
  match d.nearestEntity? e with
  | none => .ok m
  | some s => do
      let entity ← declaredEntity m e.name
      let supertype ← declaredEntity m s.name
      (m.setSupertype entity.name supertype.name).mapError .physical

def storeIdentifier (e : Entity Attribute) (table : String) (m : Metamodel) :
    Except CatalogError Metamodel :=
  match e.identifier with
  | none => .ok m
  | some i => (m.setIdentifier e.name ⟨i.name, table, i.column, i.kind⟩).mapError .physical

def storeDiscriminator (e : Entity Attribute) (m : Metamodel) : Except CatalogError Metamodel :=
  match e.discriminator with
  | none => .ok m
  | some x => (m.setDiscriminator e.name ⟨x.column, x.kind, x.value⟩).mapError .physical

/-- Adds the mapping of an attribute to an entity. -/
def storeAttribute (d : Definition Attribute) (e : Entity Attribute) (table : String)
    (m : Metamodel) (a : Attribute) : Except CatalogError Metamodel := do
  let (mapping, m) ← mappingAt (addUsage d.embeddables) m ⟨e.name, table, ""⟩ a
  (m.addMapping e.name mapping).mapError .physical

/-- Adds the mappings of an entity: its identifier, the attributes of the mapped supertypes
between it and the entity above it, and its own attributes. -/
def layOutEntity (d : Definition Attribute) (m : Metamodel) (e : Entity Attribute) :
    Except CatalogError Metamodel := do
  let table := (← declaredEntity m e.name).table
  let m ← storeIdentifier e table m
  let m ← storeDiscriminator e m
  let attributes := (d.flattened e).flatMap (·.attributes) ++ e.attributes
  attributes.foldlM (d.storeAttribute e table) m

/-- The metamodel. -/
def metamodel (d : Definition Attribute) : Except CatalogError Metamodel := do
  let m ← d.entities.foldlM d.declareEntity {}
  let m ← d.entities.foldlM d.linkEntity m
  d.entities.foldlM d.layOutEntity m

end QueryPath.Definition
