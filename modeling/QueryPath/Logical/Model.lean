import QueryPath.Logical.Type

/-!
# Domain models

A draft collects types; `Draft.build` turns it into a model once no type is its own supertype and
no attribute hides another. Basic types and associations to any entity enter a draft when first
asked for, all others are declared by name.

Attributes are inherited along the chain of supertypes: `chain` lists it nearest first,
`findAttribute?` searches it in that order, and `attributesOf` shows it from the other end.
-/

namespace QueryPath.Logical

/-- Why a draft was refused, as a whole or in one of its steps. -/
inductive Error where
  | duplicateAttribute (owner name : String)
  | unknownType (name : String)
  | duplicateType (name : String)
  | invalidSupertype (name supertype : String)
  | supertypeCycle (name : String)
  | missingIndexType (owner name : String)
  | notManaged (name : String)
deriving DecidableEq, Repr

def Error.message : Error → String
  | duplicateAttribute owner name => s!"Attribute `{name}` is declared more than once on `{owner}`"
  | unknownType name => s!"No domain type named `{name}`"
  | duplicateType name => s!"A managed type named `{name}` is already registered"
  | invalidSupertype name supertype =>
      s!"`{supertype}` cannot be the supertype of `{name}`: only entities and mapped supertypes can be extended"
  | supertypeCycle name => s!"Supertype chain of `{name}` is cyclic"
  | missingIndexType owner name =>
      s!"Plural attribute `{owner}.{name}` is indexed but declares no index type"
  | notManaged name => s!"`{name}` is not a managed type and cannot declare attributes"

/-- Types in the order in which they became known. -/
structure Draft where
  types : List DomainType := []
deriving DecidableEq, Repr

namespace Draft

/-! ## Looking types up -/

def typeAt? (d : Draft) (id : TypeId) : Option DomainType := d.types[id]?

/-- All positions, in order. -/
def ids (d : Draft) : List TypeId := List.range d.types.length

def nameOf (d : Draft) (id : TypeId) : String := ((d.typeAt? id).map DomainType.name).getD ""

/-- The type declared under a name. -/
def find? (d : Draft) (name : String) : Option TypeId :=
  d.types.findIdx? (·.declaredName? == some name)

def findBasic? (d : Draft) (kind : Kind) : Option TypeId := d.types.findIdx? (· == .basic kind)

def findAny? (d : Draft) (discriminator key : Kind) : Option TypeId :=
  d.types.findIdx? (· == .any discriminator key)

/-! ## Supertypes and attributes -/

def supertypeOf? (d : Draft) (id : TypeId) : Option TypeId :=
  (d.typeAt? id).bind DomainType.supertype?

/-- The type and its supertypes, nearest first, but no more than `n` of them. -/
def chainUpTo (d : Draft) : (n : Nat) → TypeId → List TypeId
  | 0, _ => []
  | n + 1, id =>
      id :: match d.supertypeOf? id with
        | none => []
        | some s => d.chainUpTo n s

/-- The type and its supertypes, nearest first. A model has no longer chain than it has types. -/
def chain (d : Draft) (id : TypeId) : List TypeId := d.chainUpTo d.types.length id

/-- Whether `candidate` is `supertype` or below it. -/
def isSubtype (d : Draft) (candidate supertype : TypeId) : Bool :=
  (d.chain candidate).contains supertype

/-- The types directly below `id`. -/
def subtypesOf (d : Draft) (id : TypeId) : List TypeId :=
  d.ids.filter fun c => d.supertypeOf? c == some id

/-- Attributes declared on the type itself. -/
def declaredBy (d : Draft) (id : TypeId) : List Attribute :=
  ((d.typeAt? id).map DomainType.attributes).getD []

/-- The attribute of that name on the type or on the nearest supertype that has one, with the
type that declares it. -/
def findAttribute? (d : Draft) (owner : TypeId) (name : String) : Option (TypeId × Attribute) :=
  (d.chain owner).findSome? fun t =>
    ((d.declaredBy t).find? (·.name == name)).map fun a => (t, a)

/-- All attributes of the type with the types that declare them, inherited ones first. -/
def attributesOf (d : Draft) (owner : TypeId) : List (TypeId × Attribute) :=
  (d.chain owner).reverse.flatMap fun t => (d.declaredBy t).map fun a => (t, a)

/-! ## Building -/

/-- One more type, and its position. -/
def push (d : Draft) (t : DomainType) : TypeId × Draft :=
  (d.types.length, { d with types := d.types ++ [t] })

/-- Declares a named type. -/
def declare (d : Draft) (t : DomainType) : Except Error (TypeId × Draft) :=
  match d.find? t.name with
  | some _ => .error (.duplicateType t.name)
  | none => .ok (d.push t)

/-- The basic type of a kind. -/
def basic (d : Draft) (kind : Kind) : TypeId × Draft :=
  match d.findBasic? kind with
  | some id => (id, d)
  | none => d.push (.basic kind)

/-- The type of associations to any entity; its two kinds become known before it. -/
def any (d : Draft) (discriminator key : Kind) : TypeId × Draft :=
  match d.findAny? discriminator key with
  | some id => (id, d)
  | none => (((d.basic discriminator).2.basic key).2).push (.any discriminator key)

/-- Changes the type at a position. -/
def modify (d : Draft) (id : TypeId) (f : DomainType → DomainType) : Draft :=
  { d with types := d.types.modify id f }

/-- Whether the type at a position has a property. -/
def check (d : Draft) (id : TypeId) (p : DomainType → Bool) : Bool :=
  ((d.typeAt? id).map p).getD false

/-- Puts a type under a supertype, instead of the one it had. -/
def setSupertype (d : Draft) (id supertype : TypeId) : Except Error Draft :=
  if d.check supertype DomainType.isExtensible && d.check id DomainType.isExtensible then
    .ok (d.modify id (·.setSupertype supertype))
  else .error (.invalidSupertype (d.nameOf id) (d.nameOf supertype))

/-- Whether an indexed collection lacks the type of its index. -/
def lacksIndex (a : Attribute) : Bool :=
  match a.nature with
  | .plural c none => c.isIndexed
  | _ => false

/-- Declares an attribute. -/
def addAttribute (d : Draft) (owner : TypeId) (a : Attribute) : Except Error Draft :=
  if lacksIndex a then .error (.missingIndexType (d.nameOf owner) a.name)
  else if !d.check owner DomainType.isManaged then .error (.notManaged (d.nameOf owner))
  else if (d.declaredBy owner).any (·.name == a.name) then
    .error (.duplicateAttribute (d.nameOf owner) a.name)
  else .ok (d.modify owner (·.addAttribute a))

end Draft

/-- The first element that occurs earlier in the list too. -/
def firstRepeated {α : Type} [BEq α] : (seen rest : List α) → Option α
  | _, [] => none
  | seen, a :: rest => if seen.contains a then some a else firstRepeated (a :: seen) rest

theorem firstRepeated_eq_none_iff {α : Type} [BEq α] [LawfulBEq α] {seen l : List α} :
    firstRepeated seen l = none ↔ l.Nodup ∧ ∀ a ∈ l, a ∉ seen := by
  induction l generalizing seen with
  | nil => simp [firstRepeated]
  | cons a l ih =>
    simp only [firstRepeated, List.contains_iff_mem]
    split
    · rename_i h
      simp [h]
    · rename_i h
      rw [ih]
      grind

/-- A complete domain model. -/
structure Model extends Draft
deriving DecidableEq, Repr

namespace Draft

/-- Whether the supertypes of a type lead round in a circle: then there is a chain of more types
than the draft has. -/
def isCyclicAt (d : Draft) (id : TypeId) : Bool :=
  d.types.length < (d.chainUpTo (d.types.length + 1) id).length

/-- The first name that two attributes of a type share. -/
def clashAt? (d : Draft) (id : TypeId) : Option String :=
  firstRepeated [] ((d.attributesOf id).map (·.2.name))

/-- Completes the draft. -/
def build (d : Draft) : Except Error Model :=
  match d.ids.find? d.isCyclicAt with
  | some id => .error (.supertypeCycle (d.nameOf id))
  | none =>
      match d.ids.findSome? fun id => (d.clashAt? id).map (id, ·) with
      | some (id, name) => .error (.duplicateAttribute (d.nameOf id) name)
      | none => .ok { d with }

end Draft

end QueryPath.Logical
