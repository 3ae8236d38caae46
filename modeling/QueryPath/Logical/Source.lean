import QueryPath.Logical.Model

/-!
# Path sources

What a step of a path refers to on the logical side: a name, a type, and whether the step stands
for one value or a collection. An inherited attribute has a source of its own on each type that
inherits it, which refines the source on the declaring type.
-/

namespace QueryPath.Logical

/-- What a source stands for. -/
inductive SourceKind where
  /-- A value of a kind, in a column of a kind. -/
  | basic (kind storedAs : Kind)
  | any (discriminator key : Kind)
  | embedded (embeddable : String)
  | entity (entity : String)
  | mappedSupertype (type : String)
deriving DecidableEq, Repr

namespace SourceKind

def typeName : SourceKind → String
  | basic k _ => k.name
  | any d k => anyName d k
  | embedded n | entity n | mappedSupertype n => n

def persistence : SourceKind → Persistence
  | basic _ _ | any _ _ => .basic
  | embedded _ => .embeddable
  | entity _ => .entity
  | mappedSupertype _ => .mappedSupertype

/-- Steps lead on from everything but a basic value. -/
def isNavigable : SourceKind → Bool
  | basic _ _ => false
  | _ => true

def entity? : SourceKind → Option String
  | entity n => some n
  | _ => none

end SourceKind

/-- What a query can bind at a source. -/
inductive Bindable where
  | singular
  | plural
  | entity
deriving DecidableEq, Repr

/-- What there is to say about a source apart from what it refines. For a plural attribute,
`type` and `kind` are those of its elements. -/
structure SourceInfo where
  name : String
  type : TypeId
  kind : SourceKind
  bindable : Bindable
  isGeneric : Bool
deriving DecidableEq, Repr

/-- A source of its own, or one that refines another. -/
inductive Source where
  | plain (info : SourceInfo)
  | refining (info : SourceInfo) (model : Source)
deriving DecidableEq, Repr

namespace Source

def info : Source → SourceInfo
  | plain i | refining i _ => i

/-- The source that this one refines. -/
def refines? : Source → Option Source
  | plain _ => none
  | refining _ m => some m

def name (s : Source) : String := s.info.name
def type (s : Source) : TypeId := s.info.type
def kind (s : Source) : SourceKind := s.info.kind
def bindable (s : Source) : Bindable := s.info.bindable
def isGeneric (s : Source) : Bool := s.info.isGeneric
def isPlural (s : Source) : Bool := s.bindable == .plural
def entity? (s : Source) : Option String := s.kind.entity?
def typeName (s : Source) : String := s.kind.typeName

/-- Name and type, as shown to users. -/
def text (s : Source) : String :=
  s!"{s.name} : {s.typeName}" ++ if s.isPlural then "[]" else ""

def ofInfo (refines : Option Source) (info : SourceInfo) : Source :=
  match refines with
  | none => plain info
  | some m => refining info m

@[simp] theorem info_ofInfo (r : Option Source) (i : SourceInfo) : (ofInfo r i).info = i := by
  cases r <;> rfl

@[simp] theorem refines?_ofInfo (r : Option Source) (i : SourceInfo) :
    (ofInfo r i).refines? = r := by cases r <;> rfl

end Source

/-- The sources of a plural attribute: itself and the parts of its collection. -/
structure PluralSource where
  plural : Source
  classification : Classification
  element : Source
  index : Option Source
  identifier : Option Source
deriving DecidableEq, Repr

/-- Why there is no source. -/
inductive SourceError where
  | unrecognizedType (name typeName : String)
  | notQueryRoot (typeName : String)
  | unknownType (typeName : String)
deriving DecidableEq, Repr

def SourceError.message : SourceError → String
  | unrecognizedType name typeName =>
      s!"Unrecognized domain type `{typeName}` for path source `{name}`"
  | notQueryRoot typeName => s!"`{typeName}` is not an entity and cannot be used as a query root"
  | unknownType typeName => s!"No managed type named `{typeName}`"

/-- The kind of the sources of a type; tuples have none. -/
def DomainType.sourceKind? (storedAs : Option Kind) : DomainType → Option SourceKind
  | .basic k => some (.basic k (storedAs.getD k))
  | .any d k => some (.any d k)
  | .embeddable n _ => some (.embedded n)
  | .entity n _ _ _ => some (.entity n)
  | .mappedSupertype n _ _ => some (.mappedSupertype n)
  | .tuple _ _ => none

/-- A source of a type. `storedAs` is the kind of the column of a basic value, when it differs
from the kind of the value, and has no meaning for other types. -/
def Model.source (m : Model) (name : String) (refines : Option Source) (type : TypeId)
    (storedAs : Option Kind) (bindable : Bindable) (isGeneric : Bool) :
    Except SourceError Source :=
  match (m.typeAt? type).bind (·.sourceKind? storedAs) with
  | some kind => .ok (.ofInfo refines ⟨name, type, kind, bindable, isGeneric⟩)
  | none => .error (.unrecognizedType name (m.nameOf type))

end QueryPath.Logical
