import QueryPath.Logical.Registry
import QueryPath.Path.Navigable

/-!
# Query paths

A path starts at an entity or at a common table expression and takes steps: attributes, columns,
narrowing to a type, parts of collections. Steps are taken along the sources of the logical side
alone; a narrowing step may name any managed type here, whether it fits the base or not.
-/

namespace QueryPath

open Logical

/-- A column of a common table expression. -/
structure CteColumn where
  name : String
  kind : Kind
deriving DecidableEq, Repr

/-- A common table expression: a table that the query itself defines. -/
structure Cte where
  name : String
  columns : List CteColumn
deriving DecidableEq, Repr

def Cte.column? (t : Cte) (name : String) : Option CteColumn := t.columns.find? (·.name == name)

/-- A path. Roots and steps may have a variable of the query for their name. -/
inductive Path where
  | root (source : Source) (aliasName : Option String)
  | cteRoot (table : Cte) (aliasName : Option String)
  | cteColumn (base : Path) (column : CteColumn) (aliasName : Option String)
  /-- An attribute, with the parts of its collection if it is plural. -/
  | member (base : Path) (source : Source) (plural : Option PluralSource)
      (aliasName : Option String)
  | treat (base : Path) (target : Source)
  | part (base : Path) (nature : PartNature) (source : Source)
deriving DecidableEq, Repr

/-- Why a step cannot be taken. Paths are given by their texts. -/
inductive PathError where
  | unknownAttribute (path name : String)
  | notPlural (path : String)
  | notIndexed (path : String)
  | noCollectionId (path : String)
  | unknownManagedType (typeName : String)
  | notNavigable (path : String)
  | unknownCteColumn (table column : String)
  | source (error : SourceError)
deriving DecidableEq, Repr

def PathError.message : PathError → String
  | unknownAttribute path name => s!"Could not resolve attribute `{name}` of `{path}`"
  | notPlural path => s!"`{path}` is not a plural attribute"
  | notIndexed path => s!"Plural attribute `{path}` has no index or key"
  | noCollectionId path => s!"Plural attribute `{path}` has no collection id"
  | unknownManagedType typeName => s!"No managed type named `{typeName}` to treat as"
  | notNavigable path => s!"`{path}` is a basic value and cannot be de-referenced"
  | unknownCteColumn table column => s!"CTE `{table}` has no column `{column}`"
  | source error => error.message

namespace Path

/-! ## What a path says -/

/-- The path before the last step. -/
def base? : Path → Option Path
  | root _ _ | cteRoot _ _ => none
  | cteColumn b _ _ | member b _ _ _ | treat b _ | part b _ _ => some b

/-- Number of nodes, the root included. -/
def nodes : Path → Nat
  | root _ _ | cteRoot _ _ => 1
  | cteColumn b _ _ | member b _ _ _ | treat b _ | part b _ _ => b.nodes + 1

/-- The logical source of the last node; there is none in a common table expression. -/
def source? : Path → Option Source
  | root s _ | member _ s _ _ | treat _ s | part _ _ s => some s
  | cteRoot _ _ | cteColumn _ _ _ => none

/-- The name by which the last node is looked up on its base. -/
def name : Path → String
  | root s _ | member _ s _ _ | treat _ s => s.name
  | cteRoot t _ => t.name
  | cteColumn _ c _ => c.name
  | part _ n _ => n.name

/-- The entity to which the last step narrows its base. -/
def treatEntity? : Path → Option String
  | treat _ t => t.entity?
  | _ => none

def isTreat : Path → Bool
  | treat _ _ => true
  | _ => false

def isPart : Path → Bool
  | part _ _ _ => true
  | _ => false

/-- The navigation that the path stands for. -/
def navigable : Path → NavigablePath
  | root s a => .root s.name a
  | cteRoot t a => .root t.name a
  | cteColumn b c a => b.navigable.step c.name a
  | member b s _ a => b.navigable.step s.name a
  | treat b t => b.navigable.treat t.name
  | part b n _ => b.navigable.append n.name

/-- The path as a text. -/
def text (p : Path) : String := p.navigable.full

/-- The variable that the query gives to the path. -/
def aliasName? (p : Path) : Option String := p.navigable.aliasName

/-! ## Roots and steps -/

/-- A root over an entity. -/
def ofEntity (r : Registry) (entity : String) (aliasName : Option String) :
    Except PathError Path :=
  match r.root entity with
  | .ok s => .ok (.root s aliasName)
  | .error e => .error (.source e)

/-- One step to an attribute or a column, under a variable if one is given. -/
def step (r : Registry) (p : Path) (name : String) (aliasName : Option String) :
    Except PathError Path :=
  match p with
  | cteRoot t _ =>
      match t.column? name with
      | some c => .ok (.cteColumn p c aliasName)
      | none => .error (.unknownCteColumn t.name name)
  | _ =>
      match p.source? with
      | none => .error (.notNavigable p.text)
      | some s =>
          if s.kind.isNavigable then
            match r.member? s name with
            | some m => .ok (.member p m (r.plural? s name) aliasName)
            | none => .error (.unknownAttribute p.text name)
          else .error (.notNavigable p.text)

/-- The attribute or column of that name. -/
def get (r : Registry) (p : Path) (name : String) : Except PathError Path := p.step r name none

/-- The attribute or column of that name as a join under a variable. -/
def join (r : Registry) (p : Path) (name aliasName : String) : Except PathError Path :=
  p.step r name (some aliasName)

/-- The path narrowed to a managed type. -/
def treatAs (r : Registry) (p : Path) (typeName : String) : Except PathError Path :=
  match r.managed? typeName with
  | some t => .ok (.treat p t)
  | none => .error (.unknownManagedType typeName)

/-- The parts of the collection that the last node stands for. -/
def plural (p : Path) : Except PathError PluralSource :=
  match p with
  | member _ _ (some s) _ => .ok s
  | _ => .error (.notPlural p.text)

/-- The elements of a collection; the values of a map are its elements. -/
def element (p : Path) : Except PathError Path :=
  p.plural.map fun s => .part p .element s.element

/-- The index of a list or the key of a map. -/
def index (p : Path) : Except PathError Path :=
  match p.plural with
  | .error e => .error e
  | .ok s =>
      match s.index with
      | some i => .ok (.part p .index i)
      | none => .error (.notIndexed p.text)

/-- The id of the rows of an id-bag. -/
def collectionId (p : Path) : Except PathError Path :=
  match p.plural with
  | .error e => .error e
  | .ok s =>
      match s.identifier with
      | some i => .ok (.part p .identifier i)
      | none => .error (.noCollectionId p.text)

end Path

end QueryPath
