import QueryPath.Collection
import QueryPath.Kind

/-!
# Mappings

How attributes are stored. Entities are known by their names. Each use of an embeddable has a
descriptor of its own, since its columns differ from use to use, and is known by a running number.
-/

namespace QueryPath.Physical

/-- Running number of a use of an embeddable. -/
abbrev UsageId := Nat

/-- A value in one column. -/
structure Column where
  name : String
  table : String
  column : String
  kind : Kind
deriving DecidableEq, Repr

/-- An association to one entity. -/
structure ToOne where
  name : String
  target : String
  table : String
  fkColumn : String
deriving DecidableEq, Repr

/-- An association to any entity: one column tells the entity, another holds its identifier. -/
structure AnyMapping where
  name : String
  discriminator : Column
  key : Column
  /-- Values of the discriminator and the entities they stand for. -/
  values : List (String × String)
deriving DecidableEq, Repr

/-- The entity that a value of the discriminator stands for. -/
def AnyMapping.entityFor? (a : AnyMapping) (value : String) : Option String :=
  a.values.lookup value

/-- What a part of a collection holds. -/
inductive PartValue where
  | column (column : Column)
  | embedded (usage : UsageId)
  | entity (target fkColumn : String)
deriving DecidableEq, Repr

/-- A part of a collection; `role` is the role of the collection. -/
structure CollectionPart where
  nature : PartNature
  role : String
  value : PartValue
deriving DecidableEq, Repr

/-- The entity that the part holds. -/
def CollectionPart.entity? (p : CollectionPart) : Option String :=
  match p.value with
  | .entity target _ => some target
  | _ => none

/-- A collection. -/
structure Plural where
  name : String
  role : String
  classification : Classification
  /-- The table of the collection, unless it is kept in the table of its elements. -/
  table : Option String
  keyColumn : String
  element : CollectionPart
  index : Option CollectionPart
  identifier : Option CollectionPart
deriving DecidableEq, Repr

def Plural.part? (p : Plural) : PartNature → Option CollectionPart
  | .element => some p.element
  | .index => p.index
  | .identifier => p.identifier

/-- How one attribute is stored. -/
inductive Mapping where
  | column (column : Column)
  | embedded (name : String) (usage : UsageId)
  | toOne (toOne : ToOne)
  | plural (plural : Plural)
  | any (any : AnyMapping)
deriving DecidableEq, Repr

def Mapping.name : Mapping → String
  | column c => c.name
  | embedded n _ => n
  | toOne t => t.name
  | plural p => p.name
  | any a => a.name

/-- One use of an embeddable. -/
structure Usage where
  /-- The place of the use, such as `Auction.reserve`. -/
  role : String
  embeddable : String
  table : String
  mappings : List Mapping := []
deriving DecidableEq, Repr

/-- The column that tells the entity of a row, and the value that stands for this entity. -/
structure Discriminator where
  column : String
  kind : Kind
  value : Option String
deriving DecidableEq, Repr

/-- An entity. Its mappings are those of the attributes it declares itself or takes over from
mapped supertypes. -/
structure Entity where
  name : String
  table : String
  identifier : Option String := none
  discriminator : Option Discriminator := none
  supertype : Option String := none
  subtypes : List String := []
  mappings : List Mapping := []
deriving DecidableEq, Repr

namespace Entity

/-- The mapping of that name. -/
def declared? (e : Entity) (name : String) : Option Mapping :=
  e.mappings.find? (·.name == name)

/-- The column of the identifier. -/
def identifierColumn? (e : Entity) : Option Column :=
  match e.identifier.bind e.declared? with
  | some (.column c) => some c
  | _ => none

/-- The mapping that a name stands for on the entity itself: one of its mappings, or the
identifier under its reserved name. -/
def mapping? (e : Entity) (name : String) : Option Mapping :=
  match e.declared? name with
  | some m => some m
  | none => if name == identifierName then e.identifierColumn?.map .column else none

end Entity

def Usage.mapping? (u : Usage) (name : String) : Option Mapping :=
  u.mappings.find? (·.name == name)

end QueryPath.Physical
