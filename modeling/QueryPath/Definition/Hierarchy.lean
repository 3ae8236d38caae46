import QueryPath.Definition.Basic

/-!
# Hierarchies in a definition

Entities and mapped supertypes name the type above them. Walks along these names stop after as
many steps as there are types, so that a circle of names does no harm.
-/

namespace QueryPath.Definition

variable {α : Type} (d : Definition α)

/-- Whether an entity or a mapped supertype has that name. -/
def isExtensible (name : String) : Bool :=
  (d.entity? name).isSome || (d.mappedSupertype? name).isSome

/-- The name above an entity or a mapped supertype. -/
def supertypeOf? (name : String) : Option String :=
  match d.entity? name with
  | some e => e.supertype
  | none => (d.mappedSupertype? name).bind (·.supertype)

/-- The table at `name`, or above it within `n` steps. -/
def tableUpTo : (n : Nat) → (name : String) → Option String
  | 0, _ => none
  | n + 1, name =>
      match (d.entity? name).bind (·.table) with
      | some table => some table
      | none => (d.supertypeOf? name).bind (tableUpTo n)

/-- The table of an entity: its own, or that of the nearest entity above it that has one. -/
def tableOf? (name : String) : Option String :=
  d.tableUpTo (d.entities.length + d.mappedSupertypes.length) name

/-- The first entity among `name` and the types above it within `n` steps. -/
def entityUpTo : (n : Nat) → (name : String) → Option (Entity α)
  | 0, _ => none
  | n + 1, name =>
      match d.entity? name with
      | some e => some e
      | none => ((d.mappedSupertype? name).bind (·.supertype)).bind (entityUpTo n)

/-- The nearest entity above an entity. -/
def nearestEntity? (e : Entity α) : Option (Entity α) :=
  e.supertype.bind (d.entityUpTo (d.mappedSupertypes.length + 1))

/-- The mapped supertypes at `name` and above it, up to the next entity and within `n` steps. -/
def mappedUpTo : (n : Nat) → (name : String) → List (MappedSupertype α)
  | 0, _ => []
  | n + 1, name =>
      match d.mappedSupertype? name with
      | none => []
      | some s => s :: (s.supertype.map (mappedUpTo n)).getD []

/-- The mapped supertypes between an entity and the nearest entity above it, topmost first. -/
def flattened (e : Entity α) : List (MappedSupertype α) :=
  ((e.supertype.map (d.mappedUpTo (d.mappedSupertypes.length + 1))).getD []).reverse

end QueryPath.Definition
