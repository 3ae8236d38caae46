import QueryPath.Physical.Mapping

/-!
# Metamodels

The entities of a model and the uses of its embeddables, in the order of their declaration.
-/

namespace QueryPath.Physical

/-- Why a descriptor was not found or a declaration refused. -/
inductive Error where
  | unknownEntity (name : String)
  | unknownUsage (id : UsageId)
  | unknownEmbeddable (name : String)
  | duplicateEntity (name : String)
  | duplicateMapping (owner name : String)
deriving DecidableEq, Repr

def Error.message : Error → String
  | unknownEntity name => s!"No entity descriptor registered for `{name}`"
  | unknownUsage id => s!"No embeddable descriptor numbered {id}"
  | unknownEmbeddable name => s!"No embeddable named `{name}`"
  | duplicateEntity name => s!"Entity descriptor `{name}` is registered twice"
  | duplicateMapping owner name => s!"Attribute mapping `{name}` is registered twice on `{owner}`"

structure Metamodel where
  entities : List Entity := []
  usages : List Usage := []
deriving DecidableEq, Repr

namespace Metamodel

/-! ## Looking descriptors up -/

def entity? (m : Metamodel) (name : String) : Option Entity :=
  m.entities.find? (·.name == name)

def usage? (m : Metamodel) (id : UsageId) : Option Usage := m.usages[id]?

/-- The entity of that name, whose absence is an error. -/
def entity (m : Metamodel) (name : String) : Except Error Entity :=
  match m.entity? name with
  | some e => .ok e
  | none => .error (.unknownEntity name)

/-- The table of an entity; an entity that is not described has none. -/
def tableOf (m : Metamodel) (entity : String) : String :=
  ((m.entity? entity).map (·.table)).getD ""

/-- The entity and those above it, nearest first, but no more than `n + 1` of them. -/
def lineageUpTo (m : Metamodel) : (n : Nat) → Entity → List Entity
  | 0, e => [e]
  | n + 1, e =>
      e :: match e.supertype.bind m.entity? with
        | none => []
        | some s => m.lineageUpTo n s

/-- The entity and those above it, nearest first. -/
def lineage (m : Metamodel) (e : Entity) : List Entity := m.lineageUpTo m.entities.length e

/-- Whether `candidate` is `supertype` or below it. -/
def isSubtype (m : Metamodel) (candidate supertype : Entity) : Bool :=
  (m.lineage candidate).any (·.name == supertype.name)

/-- The topmost entity above `e`. -/
def rootOf (m : Metamodel) (e : Entity) : Entity := (m.lineage e).getLast?.getD e

/-! ## Declaring descriptors -/

/-- Changes the entity of that name. -/
def modifyEntity (m : Metamodel) (name : String) (f : Entity → Entity) : Metamodel :=
  { m with entities := m.entities.map fun e => if e.name == name then f e else e }

def declareEntity (m : Metamodel) (name table : String) : Except Error Metamodel :=
  match m.entity? name with
  | some _ => .error (.duplicateEntity name)
  | none => .ok { m with entities := m.entities ++ [{ name, table }] }

/-- Puts an entity under another, which takes note of it. -/
def setSupertype (m : Metamodel) (name supertype : String) : Except Error Metamodel := do
  let _ ← m.entity name
  let _ ← m.entity supertype
  return (m.modifyEntity name fun e => { e with supertype := some supertype }).modifyEntity
    supertype fun e => { e with subtypes := e.subtypes ++ [name] }

/-- Adds a mapping to an entity. -/
def addMapping (m : Metamodel) (name : String) (mapping : Mapping) : Except Error Metamodel := do
  let e ← m.entity name
  match e.declared? mapping.name with
  | some _ => throw (.duplicateMapping name mapping.name)
  | none => return m.modifyEntity name fun e => { e with mappings := e.mappings ++ [mapping] }

/-- Adds the column of the identifier. -/
def setIdentifier (m : Metamodel) (name : String) (column : Column) : Except Error Metamodel := do
  let m ← m.addMapping name (.column column)
  return m.modifyEntity name fun e => { e with identifier := some column.name }

def setDiscriminator (m : Metamodel) (name : String) (d : Discriminator) :
    Except Error Metamodel := do
  let _ ← m.entity name
  return m.modifyEntity name fun e => { e with discriminator := some d }

/-- Adds a use of an embeddable, without mappings. -/
def addUsage (m : Metamodel) (role embeddable table : String) : UsageId × Metamodel :=
  (m.usages.length, { m with usages := m.usages ++ [{ role, embeddable, table }] })

/-- Adds a mapping to a use of an embeddable. -/
def addUsageMapping (m : Metamodel) (id : UsageId) (mapping : Mapping) : Except Error Metamodel :=
  match m.usage? id with
  | none => .error (.unknownUsage id)
  | some u =>
      match u.mapping? mapping.name with
      | some _ => .error (.duplicateMapping u.role mapping.name)
      | none =>
          .ok { m with
            usages := m.usages.modify id fun u => { u with mappings := u.mappings ++ [mapping] } }

end Metamodel

end QueryPath.Physical
