import QueryPath.Catalog.Error

/-!
# The domain model of a definition

Embeddables, mapped supertypes and entities become known in this order, then the supertypes are
set, then the attributes are declared. The identifier of an entity is its first attribute.
-/

namespace QueryPath.Definition

open Logical (Draft TypeId)

namespace Logic

/-- A type that was declared. -/
def find (d : Draft) (name : String) : Except CatalogError TypeId :=
  (require (.undeclaredType name) (d.find? name)).mapError .invalid

/-- The type of the elements of a collection. -/
def elementType (d : Draft) : Element → Except CatalogError (TypeId × Draft)
  | .basic kind _ => .ok (d.basic kind)
  | .embedded name _ | .entity name _ => (find d name).map (·, d)

/-- The type of the index of a collection. -/
def indexType (d : Draft) : Option Index → Option TypeId × Draft
  | none => (none, d)
  | some i => let (id, d) := d.basic i.kind; (some id, d)

/-- A collection; the ids of an id-bag are of the kind `long`. -/
def pluralType (d : Draft) (p : Plural Element) :
    Except CatalogError ((TypeId × Logical.Nature) × Draft) := do
  let (element, d) ← elementType d p.element
  let (index, d) := indexType d p.index
  let d := if p.classification.hasIdentifier then (d.basic .long).2 else d
  return ((element, .plural p.classification index), d)

/-- The attribute that a shape describes. -/
def attributeOf (d : Draft) (a : Attribute) :
    Except CatalogError (Logical.Attribute × Draft) := do
  match a.shape with
  | .basic kind _ storedAs =>
      let (type, d) := d.basic kind
      return ({ name := a.name, type, storedAs, isGeneric := a.isGeneric }, d)
  | .embedded name _ | .toOne name _ =>
      return ({ name := a.name, type := ← find d name, isGeneric := a.isGeneric }, d)
  | .plural p =>
      let ((type, nature), d) ← pluralType d p
      return ({ name := a.name, type, nature, isGeneric := a.isGeneric }, d)
  | .any any =>
      let (type, d) := d.any any.discriminator any.key
      return ({ name := a.name, type, isGeneric := a.isGeneric }, d)

/-- Declares an attribute of a type. -/
def addAttribute (owner : TypeId) (d : Draft) (a : Attribute) : Except CatalogError Draft := do
  let (declared, d) ← attributeOf d a
  (d.addAttribute owner declared).mapError .logical

/-- Declares the attributes of the type of that name. -/
def addAttributes (d : Draft) (name : String) (attributes : List Attribute) :
    Except CatalogError Draft := do
  attributes.foldlM (addAttribute (← find d name)) d

/-- Declares the identifier of an entity. -/
def addIdentifier (d : Draft) (name : String) : Option Identifier → Except CatalogError Draft
  | none => .ok d
  | some i => do
      let owner ← find d name
      let (type, d) := d.basic i.kind
      (d.addAttribute owner { name := i.name, type }).mapError .logical

/-- Declares a type. -/
def declare (d : Draft) (t : Logical.DomainType) : Except CatalogError Draft :=
  ((d.declare t).map (·.2)).mapError .logical

/-- Puts a type under the one that it extends. -/
def setSupertype (d : Draft) (name : String) : Option String → Except CatalogError Draft
  | none => .ok d
  | some s => do
      let id ← find d name
      let supertype ← find d s
      (d.setSupertype id supertype).mapError .logical

end Logic

/-- The types of the definition, without supertypes and attributes. -/
def declaredTypes (d : Definition Attribute) : List Logical.DomainType :=
  d.embeddables.map (.embeddable ·.name [])
    ++ d.mappedSupertypes.map (.mappedSupertype ·.name [] none)
    ++ d.entities.map fun e => .entity e.name [] none e.isAbstract

/-- Names of types with the names of those that they extend. -/
def extensions (d : Definition Attribute) : List (String × Option String) :=
  d.mappedSupertypes.map (fun s => (s.name, s.supertype))
    ++ d.entities.map fun e => (e.name, e.supertype)

/-- The draft of the domain model. -/
def draft (d : Definition Attribute) : Except CatalogError Draft := do
  let m ← d.declaredTypes.foldlM Logic.declare {}
  let m ← d.extensions.foldlM (fun m e => Logic.setSupertype m e.1 e.2) m
  let m ← d.embeddables.foldlM (fun m e => Logic.addAttributes m e.name e.attributes) m
  let m ← d.mappedSupertypes.foldlM (fun m s => Logic.addAttributes m s.name s.attributes) m
  d.entities.foldlM (fun m e => do
    Logic.addAttributes (← Logic.addIdentifier m e.name e.identifier) e.name e.attributes) m

/-- The domain model. -/
def logicalModel (d : Definition Attribute) : Except CatalogError Logical.Model := do
  (← d.draft).build.mapError .logical

end QueryPath.Definition
