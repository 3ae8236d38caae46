import QueryPath.Definition.Hierarchy
import QueryPath.Logical.Model

/-!
# Checking definitions

`Definition.check` gives each attribute its shape and refuses a definition that names what does
not exist, leaves out what is needed, or embeds an embeddable in itself. Of several faults the
first is reported: repeated names before all else, then entities, mapped supertypes and
embeddables in turn, then circles of embeddables.
-/

namespace QueryPath.Definition

/-- What is wrong with a definition. The last three faults are those of later stages, which look
names up again. -/
inductive Fault where
  | noEntities
  | duplicateType (name : String)
  | unknownSupertype (isEntity : Bool) (name supertype : String)
  | noTable (entity : String)
  | noShape (owner name : String)
  | missingField (owner name field : String)
  | noElementShape (role : String)
  | missingElementColumn (role : String)
  | unknownEntity (owner name target : String)
  | unknownEmbeddable (owner name target : String)
  | missingTable (role : String)
  | missingIndex (classification : Classification) (role : String)
  | missingIdColumn (role : String)
  | containsItself (embeddable : String)
  | undeclaredType (name : String)
  | undeclaredEntity (name : String)
  | undeclaredEmbeddable (name : String)
deriving DecidableEq, Repr

def Fault.message : Fault → String
  | noEntities => "model must contain at least one entity definition"
  | duplicateType name => s!"duplicate type name: {name}"
  | unknownSupertype true name supertype => s!"entity `{name}` extends unknown type `{supertype}`"
  | unknownSupertype false name supertype =>
      s!"mapped supertype `{name}` extends unknown type `{supertype}`"
  | noTable entity => s!"entity `{entity}` needs a table"
  | noShape owner name =>
      s!"attribute `{owner}.{name}` must set exactly one of type, embedded, to_one, plural, any"
  | missingField owner name field => s!"attribute `{owner}.{name}` needs `{field}`"
  | noElementShape role =>
      s!"element of `{role}` must set exactly one of type, embedded, entity"
  | missingElementColumn role => s!"element of `{role}` needs `column`"
  | unknownEntity owner name target =>
      s!"attribute `{owner}.{name}` references unknown entity `{target}`"
  | unknownEmbeddable owner name target =>
      s!"attribute `{owner}.{name}` references unknown embeddable `{target}`"
  | missingTable role => s!"collection `{role}` of values needs a table"
  | missingIndex c role => s!"{c.label} collection `{role}` needs an index"
  | missingIdColumn role => s!"id_bag `{role}` needs `id_column`"
  | containsItself name => s!"embeddable `{name}` contains itself"
  | undeclaredType name => s!"unknown type `{name}`"
  | undeclaredEntity name => s!"unknown entity `{name}`"
  | undeclaredEmbeddable name => s!"unknown embeddable `{name}`"

/-- A value that has to be there. -/
def require {α : Type} (fault : Fault) : Option α → Except Fault α
  | some a => .ok a
  | none => .error fault

/-- A condition that has to hold. -/
def ensure (fault : Fault) (holds : Bool) : Except Fault Unit :=
  if holds then .ok () else .error fault

/-! ## Shapes -/

/-- The shape of the elements of a collection. -/
def RawElement.shape (e : RawElement) (role : String) : Except Fault Element :=
  match e.kind, e.embedded, e.entity with
  | some kind, none, none => (require (.missingElementColumn role) e.column).map (.basic kind)
  | none, some embeddable, none => .ok (.embedded embeddable (e.columnStart.getD ""))
  | none, none, some target => (require (.missingElementColumn role) e.column).map (.entity target)
  | _, _, _ => .error (.noElementShape role)

/-- The place of an attribute. -/
def roleOf (owner name : String) : String := s!"{owner}.{name}"

/-- The collection with the shape of its elements. -/
def RawAttribute.pluralShape (owner name : String) (p : Plural RawElement) :
    Except Fault (Plural Element) := do
  let element ← p.element.shape (roleOf owner name)
  return { p with element }

/-- The shape of an attribute. -/
def RawAttribute.shape (a : RawAttribute) (owner : String) : Except Fault Shape :=
  match a.kind, a.embedded, a.toOne, a.plural, a.any with
  | some kind, none, none, none, none =>
      (require (.missingField owner a.name "column") a.column).map (.basic kind · a.storedAs)
  | none, some embeddable, none, none, none =>
      .ok (.embedded embeddable (a.columnStart.getD ""))
  | none, none, some target, none, none =>
      (require (.missingField owner a.name "join_column") a.joinColumn).map (.toOne target)
  | none, none, none, some plural, none => (pluralShape owner a.name plural).map .plural
  | none, none, none, none, some any => .ok (.any any)
  | _, _, _, _, _ => .error (.noShape owner a.name)

/-! ## References -/

variable {α : Type} (d : Definition α)

def checkEntity (owner name target : String) : Except Fault Unit :=
  ensure (.unknownEntity owner name target) (d.entity? target).isSome

def checkEmbeddable (owner name target : String) : Except Fault Unit :=
  ensure (.unknownEmbeddable owner name target) (d.embeddable? target).isSome

/-- Checks what the elements of a collection refer to. -/
def checkElement (owner name : String) : Element → Except Fault Unit
  | .basic _ _ => .ok ()
  | .embedded embeddable _ => d.checkEmbeddable owner name embeddable
  | .entity target _ => d.checkEntity owner name target

/-- Only entities can do without a table of the collection. -/
def Plural.hasTable (p : Plural Element) : Bool :=
  match p.element with
  | .entity _ _ => true
  | _ => p.table.isSome

/-- Checks what a collection refers to, and that it has what its classification needs. -/
def checkPlural (owner name : String) (p : Plural Element) : Except Fault Unit := do
  let role := roleOf owner name
  d.checkElement owner name p.element
  ensure (.missingTable role) p.hasTable
  ensure (.missingIndex p.classification role) (!p.classification.isIndexed || p.index.isSome)
  ensure (.missingIdColumn role) (!p.classification.hasIdentifier || p.idColumn.isSome)

/-- Checks what a shape refers to. -/
def checkShape (owner name : String) : Shape → Except Fault Unit
  | .basic _ _ _ => .ok ()
  | .embedded embeddable _ => d.checkEmbeddable owner name embeddable
  | .toOne target _ => d.checkEntity owner name target
  | .plural p => d.checkPlural owner name p
  | .any any => any.values.forM fun v => d.checkEntity owner name v.2

/-- The attribute with its shape, checked. -/
def checkAttribute (owner : String) (a : RawAttribute) : Except Fault Attribute := do
  let shape ← a.shape owner
  d.checkShape owner a.name shape
  return { name := a.name, shape, isGeneric := a.isGeneric }

/-! ## Types -/

/-- Checks the name of a supertype. -/
def checkSupertype (isEntity : Bool) (name : String) : Option String → Except Fault Unit
  | none => .ok ()
  | some s => ensure (.unknownSupertype isEntity name s) (d.isExtensible s)

def checkEntityType (e : Entity RawAttribute) : Except Fault (Entity Attribute) := do
  d.checkSupertype true e.name e.supertype
  ensure (.noTable e.name) (e.table.isSome || (d.tableOf? e.name).isSome)
  let attributes ← e.attributes.mapM (d.checkAttribute e.name)
  return { e with attributes }

def checkMappedSupertype (s : MappedSupertype RawAttribute) :
    Except Fault (MappedSupertype Attribute) := do
  d.checkSupertype false s.name s.supertype
  let attributes ← s.attributes.mapM (d.checkAttribute s.name)
  return { s with attributes }

def checkEmbeddableType (e : Embeddable RawAttribute) : Except Fault (Embeddable Attribute) := do
  let attributes ← e.attributes.mapM (d.checkAttribute e.name)
  return { e with attributes }

/-! ## Embeddables inside embeddables -/

/-- The embeddable that a value of the shape holds, itself or as elements of a collection. -/
def Shape.embedded? : Shape → Option String
  | .embedded embeddable _ => some embeddable
  | .plural p => match p.element with
      | .embedded embeddable _ => some embeddable
      | _ => none
  | _ => none

/-- The embeddables that an embeddable holds. -/
def embeddedIn (d : Definition Attribute) (name : String) : List String :=
  ((d.embeddable? name).map fun e => e.attributes.filterMap (·.shape.embedded?)).getD []

/-- Checks that nothing below `name` leads back to it or to one of the embeddables around it.
`allowed` names the embeddables that are not around it. -/
def checkNesting (d : Definition Attribute) (allowed : List String) (name : String) :
    Except Fault Unit :=
  if _h : name ∈ allowed then
    (d.embeddedIn name).forM fun inner => checkNesting d (allowed.erase name) inner
  else .error (.containsItself name)
termination_by allowed.length
decreasing_by
  rw [List.length_erase_of_mem _h]
  exact Nat.sub_one_lt (Nat.ne_of_gt (List.length_pos_of_mem _h))

/-- Checks that no embeddable holds itself. -/
def checkAllNesting (d : Definition Attribute) : Except Fault Unit :=
  let names := d.embeddables.map (·.name)
  names.forM fun name => d.checkNesting names name

/-- The definition with the shapes of all attributes, if nothing is wrong with it. -/
def check (d : Definition RawAttribute) : Except Fault (Definition Attribute) := do
  ensure .noEntities (!d.entities.isEmpty)
  match Logical.firstRepeated [] d.typeNames with
  | some name => throw (.duplicateType name)
  | none => pure ()
  let entities ← d.entities.mapM d.checkEntityType
  let mappedSupertypes ← d.mappedSupertypes.mapM d.checkMappedSupertype
  let embeddables ← d.embeddables.mapM d.checkEmbeddableType
  let checked : Definition Attribute := { d with entities, mappedSupertypes, embeddables }
  checked.checkAllNesting
  return checked

end QueryPath.Definition
