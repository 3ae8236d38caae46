/-!
# Navigable paths

The text by which one navigation from a query root is known.

```text
Auction(a)                      root, with its variable
Auction(a).bids                 attribute
Auction(a).bids.{element}       part of a collection
Node(n)#SpecialNode             narrowing to a type
Node(n)#SpecialNode.extra       attribute of the narrower type
```
-/

namespace QueryPath

/-- A navigation from a query root. -/
inductive NavigablePath where
  | root (name : String) (aliasName : Option String)
  | step (base : NavigablePath) (name : String) (aliasName : Option String)
  | treat (base : NavigablePath) (entity : String)
deriving DecidableEq, Repr

namespace NavigablePath

/-- The name, with the variable given to it in parentheses. -/
def labelled (name : String) : Option String → String
  | none => name
  | some a => s!"{name}({a})"

/-- The whole path as a text. -/
def full : NavigablePath → String
  | root name a => labelled name a
  | step base name a => base.full ++ "." ++ labelled name a
  | treat base entity => base.full ++ "#" ++ entity

/-- The last step alone. -/
def localName : NavigablePath → String
  | root name _ | step _ name _ => name
  | treat _ entity => "#" ++ entity

/-- The variable that the query gives to this path. -/
def aliasName : NavigablePath → Option String
  | root _ a | step _ _ a => a
  | treat _ _ => none

def parent? : NavigablePath → Option NavigablePath
  | root _ _ => none
  | step base _ _ | treat base _ => some base

/-- A step without a variable. -/
def append (base : NavigablePath) (name : String) : NavigablePath := base.step name none

/-- Two paths stand for the same navigation when they have the same text. -/
def same (p q : NavigablePath) : Bool := p.full == q.full

end NavigablePath

end QueryPath
