import QueryPath.Expr.Reader
import QueryPath.Path.Basic

/-!
# Identification variables

The variables of a query, in the order of their declaration, and the paths they stand for. Path
expressions are bound to paths in such a scope. Each name is declared once.
-/

namespace QueryPath

open Logical

/-- Why an expression is not bound, or a variable not declared. -/
inductive BindError where
  | expr (error : Expr.Error)
  | unknownVariable (name : String)
  | duplicateVariable (name : String)
  | invalidJoin (expression : String)
  | path (error : PathError)
deriving DecidableEq, Repr

def BindError.message : BindError → String
  | expr error => error.message
  | unknownVariable name => s!"Unknown identification variable `{name}`"
  | duplicateVariable name => s!"Identification variable `{name}` is already defined"
  | invalidJoin expression => s!"`{expression}` cannot be joined; expected `alias.attribute`"
  | path error => error.message

/-- The variables of a query and the sources that their paths are built from. -/
structure Scope where
  registry : Registry
  bindings : List (String × Path) := []
deriving DecidableEq, Repr

namespace Scope

/-- A result of a step on a path. -/
def ofPath {α : Type} : Except PathError α → Except BindError α
  | .ok a => .ok a
  | .error e => .error (.path e)

/-- A result of reading an expression. -/
def ofExpr {α : Type} : Except Expr.Error α → Except BindError α
  | .ok a => .ok a
  | .error e => .error (.expr e)

/-- The path of a variable. -/
def pathOf? (s : Scope) (name : String) : Option Path := s.bindings.lookup name

/-- The part of a collection that a function names. -/
def applyPart : PartFunction → Path → Except PathError Path
  | .element, p | .value, p => p.element
  | .index, p | .key, p => p.index

/-- The path that an expression stands for. -/
def bind (s : Scope) : Expr → Except BindError Path
  | .root name =>
      match s.pathOf? name with
      | some p => .ok p
      | none => .error (.unknownVariable name)
  | .member base name => do ofPath ((← s.bind base).get s.registry name)
  | .treat base target => do ofPath ((← s.bind base).treatAs s.registry target)
  | .part f base => do ofPath (applyPart f (← s.bind base))

/-- Reads an expression and binds it. -/
def bindText (s : Scope) (text : String) : Except BindError Path := do
  s.bind (← ofExpr (Expr.read text))

/-- Declares a variable for a path. -/
def declare (s : Scope) (name : String) (p : Path) : Path × Scope :=
  (p, { s with bindings := s.bindings ++ [(name, p)] })

/-- A name that is not declared yet. -/
def checkFree (s : Scope) (name : String) : Except BindError Unit :=
  match s.pathOf? name with
  | some _ => .error (.duplicateVariable name)
  | none => .ok ()

/-- Declares a variable over an entity. -/
def addRoot (s : Scope) (entity name : String) : Except BindError (Path × Scope) := do
  s.checkFree name
  return s.declare name (← ofPath (Path.ofEntity s.registry entity (some name)))

/-- Declares a variable over a common table expression. -/
def addCte (s : Scope) (table : Cte) (name : String) : Except BindError (Path × Scope) := do
  s.checkFree name
  return s.declare name (.cteRoot table (some name))

/-- Declares a variable over a joined attribute. -/
def addJoin (s : Scope) (expression name : String) : Except BindError (Path × Scope) := do
  s.checkFree name
  match ← ofExpr (Expr.read expression) with
  | .member base attributeName => do
      return s.declare name (← ofPath ((← s.bind base).join s.registry attributeName name))
  | e => throw (.invalidJoin e.text)

end Scope

end QueryPath
