import QueryPath.Collection
import QueryPath.Kind

/-!
# Model definitions

What an author writes down about a model: embeddables, mapped supertypes and entities with their
attributes, tables and columns. The types of the three are general in what they hold as
attributes. A definition as it is read holds `RawAttribute`s, whose fields are all optional; a
checked definition holds `Attribute`s, of which each is of one definite shape.
-/

namespace QueryPath.Definition

/-- The identifier of an entity. -/
structure Identifier where
  name : String
  kind : Kind
  column : String
deriving DecidableEq, Repr

/-- The column that tells the entity of a row. -/
structure Discriminator where
  column : String
  kind : Kind := .string
  value : Option String := none
deriving DecidableEq, Repr

/-- The index of a list or the key of a map. -/
structure Index where
  kind : Kind
  column : String
deriving DecidableEq, Repr

/-- An association to any entity. -/
structure AnyTarget where
  discriminator : Kind
  key : Kind
  discriminatorColumn : String
  keyColumn : String
  /-- Values of the discriminator and the entities they stand for. -/
  values : List (String × String) := []
deriving DecidableEq, Repr

/-- What is shared by collections as written and as checked; `ε` describes the elements. -/
structure Plural (ε : Type) where
  classification : Classification
  /-- The table of the collection; entities may also be kept in their own. -/
  table : Option String := none
  keyColumn : String
  element : ε
  index : Option Index := none
  /-- Column of the ids of an id-bag. -/
  idColumn : Option String := none
deriving DecidableEq, Repr

/-- The elements of a collection as written. -/
structure RawElement where
  kind : Option Kind := none
  embedded : Option String := none
  entity : Option String := none
  column : Option String := none
  columnStart : Option String := none
deriving DecidableEq, Repr

/-- An attribute as written. -/
structure RawAttribute where
  name : String
  kind : Option Kind := none
  column : Option String := none
  storedAs : Option Kind := none
  embedded : Option String := none
  columnStart : Option String := none
  toOne : Option String := none
  joinColumn : Option String := none
  plural : Option (Plural RawElement) := none
  any : Option AnyTarget := none
  isGeneric : Bool := false
deriving DecidableEq, Repr

/-- The elements of a collection. -/
inductive Element where
  | basic (kind : Kind) (column : String)
  /-- The columns begin with `columnStart`. -/
  | embedded (embeddable columnStart : String)
  | entity (target column : String)
deriving DecidableEq, Repr

/-- What an attribute is. -/
inductive Shape where
  | basic (kind : Kind) (column : String) (storedAs : Option Kind)
  /-- The columns begin with `columnStart`. -/
  | embedded (embeddable columnStart : String)
  | toOne (target joinColumn : String)
  | plural (plural : Plural Element)
  | any (target : AnyTarget)
deriving DecidableEq, Repr

/-- An attribute. -/
structure Attribute where
  name : String
  shape : Shape
  isGeneric : Bool := false
deriving DecidableEq, Repr

structure Embeddable (α : Type) where
  name : String
  attributes : List α := []
deriving DecidableEq, Repr

structure MappedSupertype (α : Type) where
  name : String
  supertype : Option String := none
  attributes : List α := []
deriving DecidableEq, Repr

structure Entity (α : Type) where
  name : String
  /-- An entity without a table shares that of the nearest entity above it. -/
  table : Option String := none
  supertype : Option String := none
  isAbstract : Bool := false
  identifier : Option Identifier := none
  discriminator : Option Discriminator := none
  attributes : List α := []
deriving DecidableEq, Repr

end QueryPath.Definition

namespace QueryPath

/-- A model definition, with attributes of the type `α`. -/
structure Definition (α : Type) where
  name : Option String := none
  embeddables : List (Definition.Embeddable α) := []
  mappedSupertypes : List (Definition.MappedSupertype α) := []
  entities : List (Definition.Entity α)
deriving DecidableEq, Repr

namespace Definition

variable {α : Type}

def entity? (d : Definition α) (name : String) : Option (Entity α) :=
  d.entities.find? (·.name == name)

def mappedSupertype? (d : Definition α) (name : String) : Option (MappedSupertype α) :=
  d.mappedSupertypes.find? (·.name == name)

def embeddable? (d : Definition α) (name : String) : Option (Embeddable α) :=
  d.embeddables.find? (·.name == name)

/-- Names of all types, in the order in which the types come to be known. -/
def typeNames (d : Definition α) : List String :=
  d.embeddables.map (·.name) ++ d.mappedSupertypes.map (·.name) ++ d.entities.map (·.name)

end QueryPath.Definition
