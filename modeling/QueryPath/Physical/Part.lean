import QueryPath.Physical.Metamodel

/-!
# Model parts

The descriptor that one step of a navigation leads to. From a container, names lead on to other
parts: on an entity to its own attributes and those it inherits, on a collection to its parts or
past them to the attributes of its elements.
-/

namespace QueryPath.Physical

/-- What a step leads to. -/
inductive Part where
  | column (column : Column)
  | usage (usage : Usage)
  | entity (entity : Entity)
  | toOne (toOne : ToOne)
  | plural (plural : Plural)
  | collection (part : CollectionPart)
  | any (any : AnyMapping)
deriving DecidableEq, Repr

namespace Part

def name : Part → String
  | column c => c.name
  | usage u => u.role
  | entity e => e.name
  | toOne t => t.name
  | plural p => p.name
  | collection p => p.nature.name
  | any a => a.name

/-- Whether names can lead on from the part. -/
def isContainer : Part → Bool
  | column _ => false
  | collection ⟨_, _, .column _⟩ => false
  | _ => true

/-- The part as shown to users. -/
def text : Part → String
  | column c => s!"basic({c.name} -> {c.table}.{c.column} : {c.kind.name})"
  | usage u => s!"embeddable({u.role} : {u.embeddable})"
  | entity e => s!"entity({e.name} -> {e.table})"
  | toOne t => s!"to-one({t.name} -> {t.target} via {t.fkColumn})"
  | plural p => s!"plural({p.role} : {p.classification.label})"
  | collection p => s!"collection-part({p.role}.{p.nature.name})"
  | any a => s!"any({a.name} -> {a.discriminator.column}/{a.key.column})"

/-- Kind of the column of a part that has just one. -/
def kind? : Part → Option Kind
  | column c => some c.kind
  | collection ⟨_, _, .column c⟩ => some c.kind
  | _ => none

end Part

namespace Metamodel

/-- The part that a mapping describes. -/
def partOf? (m : Metamodel) : Mapping → Option Part
  | .column c => some (.column c)
  | .embedded _ id => (m.usage? id).map .usage
  | .toOne t => some (.toOne t)
  | .plural p => some (.plural p)
  | .any a => some (.any a)

/-- The part of that name on the first of the entities that has one. -/
def findIn? (m : Metamodel) (entities : List Entity) (name : String) : Option Part :=
  entities.findSome? fun e => (e.mapping? name).bind m.partOf?

/-- The part that a name leads to from an entity. Where the entity and those above it have none,
the entities from `narrowing` up to it are searched, if `narrowing` is below it. -/
def entityPart? (m : Metamodel) (e : Entity) (name : String) (narrowing : Option Entity) :
    Option Part :=
  match m.findIn? (m.lineage e) name with
  | some p => some p
  | none => do
      let t ← narrowing
      if t.name != e.name && m.isSubtype t e then
        m.findIn? ((m.lineage t).takeWhile (·.name != e.name)) name
      else none

/-- The part that a name leads to from a use of an embeddable. -/
def usagePart? (m : Metamodel) (u : Usage) (name : String) : Option Part :=
  (u.mapping? name).bind m.partOf?

/-- The part that a name leads to from what a part of a collection holds. -/
def valuePart? (m : Metamodel) (v : PartValue) (name : String) (narrowing : Option Entity) :
    Option Part :=
  match v with
  | .column _ => none
  | .embedded id => (m.usage? id).bind (m.usagePart? · name)
  | .entity target _ => (m.entity? target).bind (m.entityPart? · name narrowing)

/-- The part that a name leads to. `narrowing` is an entity to which the query narrows an
entity-valued container; other containers take no notice of it. -/
def subPart? (m : Metamodel) (p : Part) (name : String) (narrowing : Option Entity) :
    Option Part :=
  match p with
  | .column _ => none
  | .usage u => m.usagePart? u name
  | .entity e => m.entityPart? e name narrowing
  | .toOne t => (m.entity? t.target).bind (m.entityPart? · name narrowing)
  | .plural p =>
      match PartNature.ofName? name with
      | some n => (p.part? n).map .collection
      | none => m.valuePart? p.element.value name narrowing
  | .collection c => m.valuePart? c.value name narrowing
  | .any a =>
      if name == discriminatorName then some (.column a.discriminator)
      else if name == keyName || name == "id" then some (.column a.key)
      else none

/-- The entity that a part stands for. -/
def entityOf? (m : Metamodel) : Part → Option Entity
  | .entity e => some e
  | .toOne t => m.entity? t.target
  | .collection c => c.entity?.bind m.entity?
  | .plural p => p.element.entity?.bind m.entity?
  | _ => none

/-- The table of what a part of a collection holds. -/
def valueTable (m : Metamodel) : PartValue → String
  | .column c => c.table
  | .embedded id => ((m.usage? id).map (·.table)).getD ""
  | .entity target _ => m.tableOf target

/-- The table that a join over the part reads. -/
def partTable (m : Metamodel) : Part → String
  | .column c => c.table
  | .usage u => u.table
  | .entity e => e.table
  | .toOne t => m.tableOf t.target
  | .plural p => p.table.getD (m.valueTable p.element.value)
  | .collection c => m.valueTable c.value
  | .any a => a.key.table

end Metamodel

end QueryPath.Physical
