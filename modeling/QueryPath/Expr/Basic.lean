/-!
# Path expressions

A path expression starts at an identification variable of the query and takes steps: an
attribute, a narrowing to a type, or a part of a collection. `Expr.text` is its written form.
-/

namespace QueryPath

/-- A function that names a part of a collection. `value` is another word for `element`, `key`
another word for `index`. -/
inductive PartFunction where
  | element
  | value
  | index
  | key
deriving DecidableEq, Repr

namespace PartFunction

def all : List PartFunction := [element, value, index, key]

def name : PartFunction → String
  | element => "element"
  | value => "value"
  | index => "index"
  | key => "key"

end PartFunction

/-- A path expression. -/
inductive Expr where
  | root (variableName : String)
  | member (base : Expr) (name : String)
  | treat (base : Expr) (target : String)
  | part (function : PartFunction) (base : Expr)
deriving DecidableEq, Repr

namespace Expr

/-- The identification variable at which the expression starts. -/
def rootName : Expr → String
  | root n => n
  | member base _ | treat base _ | part _ base => base.rootName

/-- Number of steps taken from the identification variable. -/
def steps : Expr → Nat
  | root _ => 0
  | member base _ | treat base _ | part _ base => base.steps + 1

/-- The written form. -/
def text : Expr → String
  | root n => n
  | member base n => s!"{base.text}.{n}"
  | treat base target => s!"treat({base.text} as {target})"
  | part f base => s!"{f.name}({base.text})"

end Expr

end QueryPath
