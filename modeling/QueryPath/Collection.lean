/-!
# Collections

How a plural attribute keeps its elements (`Classification`), and the parts of a collection that
a path can name (`PartNature`): its elements, the index of a list or the key of a map, and the
surrogate id of the rows of an id-bag.
-/

namespace QueryPath

/-- How a plural attribute keeps its elements. -/
inductive Classification where
  | bag
  | set
  | list
  | map
  | idBag
deriving DecidableEq, Repr, Inhabited

namespace Classification

def all : List Classification := [bag, set, list, map, idBag]

/-- The spelling in definitions. -/
def name : Classification → String
  | bag => "bag"
  | set => "set"
  | list => "list"
  | map => "map"
  | idBag => "id_bag"

/-- The spelling in messages. -/
def label : Classification → String
  | bag => "Bag"
  | set => "Set"
  | list => "List"
  | map => "Map"
  | idBag => "IdBag"

def ofName? (name : String) : Option Classification := all.find? (·.name == name)

/-- Lists and maps have an index: the position or the key. -/
def isIndexed : Classification → Bool
  | list | map => true
  | _ => false

/-- Id-bags give each row an id. -/
def hasIdentifier : Classification → Bool
  | idBag => true
  | _ => false

end Classification

/-- A part of a collection. -/
inductive PartNature where
  | element
  | index
  | identifier
deriving DecidableEq, Repr

namespace PartNature

def all : List PartNature := [element, index, identifier]

/-- The reserved name of the part; no identifier of a path expression has braces. -/
def name : PartNature → String
  | element => "\x7belement\x7d"
  | index => "\x7bindex\x7d"
  | identifier => "\x7bcollection-id\x7d"

def ofName? (name : String) : Option PartNature := all.find? (·.name == name)

@[simp] theorem ofName?_name (n : PartNature) : ofName? n.name = some n := by
  cases n <;> decide

theorem ofName?_eq_some_iff {name : String} {n : PartNature} :
    ofName? name = some n ↔ n.name = name := by
  refine ⟨fun h => by simpa using List.find?_some h, fun h => by subst h; simp⟩

end PartNature

/-- Reserved names of what is not an attribute of its own: the identifier of an entity, and the
two columns of an association to any entity. -/
def identifierName : String := "\x7bid\x7d"

@[inherit_doc identifierName]
def discriminatorName : String := "\x7bdiscriminator\x7d"

@[inherit_doc identifierName]
def keyName : String := "\x7bkey\x7d"

end QueryPath
