import QueryPath.Logical.Source

/-!
# Registry of path sources

All sources of a model, made once: for every managed type a source of its own and one for each of
its attributes, inherited ones included, with the sources of the parts of plural attributes; for
every association to any entity the sources of its discriminator and its key.
-/

namespace QueryPath.Logical

/-- The source of an attribute, with the parts of its collection if it is plural. -/
structure AttributeSource where
  source : Source
  plural : Option PluralSource
deriving DecidableEq, Repr

/-- The sources of one type. -/
structure TypeSources where
  /-- The source of a managed type itself. -/
  self : Option Source
  attributes : List AttributeSource
  /-- Discriminator and key of an association to any entity. -/
  anyParts : List Source
deriving DecidableEq, Repr

/-- The sources of all types, at the positions of the types. -/
structure Registry where
  types : List TypeSources
deriving DecidableEq, Repr

namespace Model

/-- The source of a managed type itself. -/
def selfSource (m : Model) (id : TypeId) : Except SourceError (Option Source) :=
  match m.typeAt? id with
  | some (.entity n _ _ _) | some (.mappedSupertype n _ _) =>
      some <$> m.source n none id none .entity false
  | some (.embeddable n _) => some <$> m.source n none id none .singular false
  | _ => .ok none

/-- The source of one column of an association to any entity. -/
def anyPart (m : Model) (name : String) (kind : Kind) : Except SourceError Source :=
  match m.findBasic? kind with
  | some id => m.source name none id none .singular false
  | none => .error (.unknownType kind.name)

/-- The sources of both columns of an association to any entity. -/
def anyParts (m : Model) (id : TypeId) : Except SourceError (List Source) :=
  match m.typeAt? id with
  | some (.any d k) => do
      let d ← m.anyPart discriminatorName d
      let k ← m.anyPart keyName k
      return [d, k]
  | _ => .ok []

/-- The source of the id of an id-bag; it is there if the model knows the kind of such ids. -/
def identifierSource (m : Model) (c : Classification) : Except SourceError (Option Source) :=
  match c.hasIdentifier, m.findBasic? .long with
  | true, some id => some <$> m.source PartNature.identifier.name none id none .singular false
  | _, _ => .ok none

/-- The sources of the parts of a collection. -/
def pluralSource (m : Model) (a : Attribute) (source : Source) (c : Classification)
    (index : Option TypeId) : Except SourceError PluralSource := do
  let element ← m.source PartNature.element.name none a.type a.storedAs .singular a.isGeneric
  let index ← index.mapM fun i => m.source PartNature.index.name none i none .singular a.isGeneric
  let identifier ← m.identifierSource c
  return ⟨source, c, element, index, identifier⟩

/-- The source of an attribute, refining another if it is inherited. -/
def attributeSource (m : Model) (refines : Option Source) (a : Attribute) :
    Except SourceError AttributeSource := do
  let bindable : Bindable := if a.isPlural then .plural else .singular
  let source ← m.source a.name refines a.type a.storedAs bindable a.isGeneric
  match a.nature with
  | .singular => return ⟨source, none⟩
  | .plural c index => return ⟨source, some (← m.pluralSource a source c index)⟩

end Model

/-- The source of the attribute of that name. -/
def findSource? (sources : List AttributeSource) (name : String) : Option AttributeSource :=
  sources.find? (·.source.name == name)

namespace Model

/-- The sources of the attributes that a type inherits, given those that each type declares. -/
def inheritedSources (m : Model) (declared : List (List AttributeSource)) (id : TypeId) :
    Except SourceError (List AttributeSource) :=
  ((m.attributesOf id).filter (·.1 != id)).mapM fun (t, a) =>
    m.attributeSource
      ((declared[t]?.bind (findSource? · a.name)).map (·.source)) a

/-- All sources of the model. -/
def registry (m : Model) : Except SourceError Registry := do
  let selves ← m.ids.mapM m.selfSource
  let anyParts ← m.ids.mapM m.anyParts
  let declared ← m.ids.mapM fun id => (m.declaredBy id).mapM (m.attributeSource none)
  let inherited ← m.ids.mapM (m.inheritedSources declared)
  let attributes := List.zipWith (· ++ ·) inherited declared
  return ⟨List.zipWith (fun (self, parts) as => ⟨self, as, parts⟩) (selves.zip anyParts) attributes⟩

end Model

namespace Registry

/-- The sources of the types themselves. -/
def selves (r : Registry) : List Source := r.types.filterMap (·.self)

/-- The source of a managed type. -/
def managed? (r : Registry) (name : String) : Option Source :=
  r.selves.find? (·.name == name)

/-- The source of an entity as a root of a query. -/
def root (r : Registry) (name : String) : Except SourceError Source :=
  match r.managed? name with
  | some s => if s.entity?.isSome then .ok s else .error (.notQueryRoot name)
  | none => .error (.unknownType name)

/-- Names of the entities. -/
def rootNames (r : Registry) : List String :=
  (r.selves.filter (·.entity?.isSome)).map (·.name)

/-- The attribute of that name on the type of a source. -/
def attribute? (r : Registry) (parent : Source) (name : String) : Option AttributeSource :=
  r.types[parent.type]?.bind (findSource? ·.attributes name)

/-- The column of that name of the association to any entity; `id` is another name of its key. -/
def anyPart? (r : Registry) (parent : Source) (name : String) : Option Source :=
  let name := if name == "id" then keyName else name
  r.types[parent.type]?.bind (·.anyParts.find? (·.name == name))

/-- The source that a name leads to from `parent`. -/
def member? (r : Registry) (parent : Source) (name : String) : Option Source :=
  match parent.kind with
  | .basic _ _ => none
  | .any _ _ => r.anyPart? parent name
  | _ => (r.attribute? parent name).map (·.source)

/-- The parts of the collection that a name leads to from `parent`. -/
def plural? (r : Registry) (parent : Source) (name : String) : Option PluralSource :=
  (r.attribute? parent name).bind (·.plural)

end Registry

end QueryPath.Logical
