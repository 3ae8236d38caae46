import QueryPath.Collection
import QueryPath.Kind

/-!
# Domain types

The types that queries see. A type is referred to by its position in the model, so that types
may refer to one another.
-/

namespace QueryPath.Logical

/-- Position of a type in its model. -/
abbrev TypeId := Nat

/-- Whether an attribute holds one value or a collection. -/
inductive Nature where
  | singular
  | plural (classification : Classification) (index : Option TypeId)
deriving DecidableEq, Repr

/-- A named attribute. For a plural one, `type` is the type of its elements. -/
structure Attribute where
  name : String
  type : TypeId
  nature : Nature := .singular
  /-- Kind of the column, when it differs from the kind of the value. -/
  storedAs : Option Kind := none
  isGeneric : Bool := false
deriving DecidableEq, Repr

def Attribute.isPlural (a : Attribute) : Bool :=
  match a.nature with
  | .singular => false
  | .plural _ _ => true

/-- How a type takes part in persistence. -/
inductive Persistence where
  | basic
  | embeddable
  | entity
  | mappedSupertype
deriving DecidableEq, Repr

/-- A domain type. -/
inductive DomainType where
  | basic (kind : Kind)
  | embeddable (name : String) (attributes : List Attribute)
  | entity (name : String) (attributes : List Attribute) (supertype : Option TypeId)
      (isAbstract : Bool)
  | mappedSupertype (name : String) (attributes : List Attribute) (supertype : Option TypeId)
  /-- An association to any entity, through a discriminator and a key. -/
  | any (discriminator key : Kind)
  /-- A row shape that a query defines; no path leads into it. -/
  | tuple (name : String) (components : List (String × Kind))
deriving DecidableEq, Repr

/-- Name of an association to any entity. -/
def anyName (discriminator key : Kind) : String := s!"any<{discriminator.name},{key.name}>"

namespace DomainType

/-- The name by which messages refer to the type. -/
def name : DomainType → String
  | basic k => k.name
  | embeddable n _ | entity n _ _ _ | mappedSupertype n _ _ | tuple n _ => n
  | any d k => anyName d k

/-- The name under which the type was declared; basic and any types have none. -/
def declaredName? : DomainType → Option String
  | basic _ | any _ _ => none
  | t => some t.name

def persistence? : DomainType → Option Persistence
  | basic _ | any _ _ => some .basic
  | embeddable _ _ => some .embeddable
  | entity _ _ _ _ => some .entity
  | mappedSupertype _ _ _ => some .mappedSupertype
  | tuple _ _ => none

/-- Managed types have attributes of their own. -/
def isManaged : DomainType → Bool
  | embeddable _ _ | entity _ _ _ _ | mappedSupertype _ _ _ => true
  | _ => false

/-- Entities and mapped supertypes have supertypes and are supertypes. -/
def isExtensible : DomainType → Bool
  | entity _ _ _ _ | mappedSupertype _ _ _ => true
  | _ => false

/-- Attributes declared on the type itself. -/
def attributes : DomainType → List Attribute
  | embeddable _ as | entity _ as _ _ | mappedSupertype _ as _ => as
  | _ => []

def supertype? : DomainType → Option TypeId
  | entity _ _ s _ | mappedSupertype _ _ s => s
  | _ => none

/-- The type with one more attribute; a type that is not managed stays as it is. -/
def addAttribute (a : Attribute) : DomainType → DomainType
  | embeddable n as => embeddable n (as ++ [a])
  | entity n as s b => entity n (as ++ [a]) s b
  | mappedSupertype n as s => mappedSupertype n (as ++ [a]) s
  | t => t

/-- The type under another supertype; a type that extends nothing stays as it is. -/
def setSupertype (s : TypeId) : DomainType → DomainType
  | entity n as _ b => entity n as (some s) b
  | mappedSupertype n as _ => mappedSupertype n as (some s)
  | t => t

theorem supertype?_setSupertype {s : TypeId} {t : DomainType} (h : t.isExtensible = true) :
    (t.setSupertype s).supertype? = some s := by
  cases t <;> first | rfl | simp [isExtensible] at h

theorem attributes_addAttribute {a : Attribute} {t : DomainType} (h : t.isManaged = true) :
    (t.addAttribute a).attributes = t.attributes ++ [a] := by
  cases t <;> first | rfl | simp [isManaged] at h

end DomainType

end QueryPath.Logical
