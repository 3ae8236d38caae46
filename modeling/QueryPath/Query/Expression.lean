import QueryPath.Query.Resolution

/-!
# Types of expressions

A path has the model part that it resolves to for its type, any other expression the basic type
of its kind, if it has one. In a comparison, a side without a type takes the type of the other.
-/

namespace QueryPath

open Logical Physical

/-- An expression of a query. -/
inductive Expression where
  | path (path : Path)
  | literal (value : String) (kind : Kind)
  | parameter (name : String) (kind : Option Kind)
  | function (name : String) (arguments : List Expression) (kind : Option Kind)

/-- The type of an expression on the logical side. -/
inductive LogicalType where
  | basic (kind : Kind)
  | domain (type : TypeId)
deriving DecidableEq, Repr

/-- The type of an expression on the physical side. -/
inductive PhysicalType where
  | part (part : Part)
  | basic (kind : Kind)
deriving DecidableEq, Repr

namespace PhysicalType

def part? : PhysicalType → Option Part
  | part p => some p
  | basic _ => none

/-- Kind of the column, when the expression has a single one. -/
def kind? : PhysicalType → Option Kind
  | part p => p.kind?
  | basic k => some k

/-- The type as shown to users. -/
def text : PhysicalType → String
  | part p => p.text
  | basic k => k.text

end PhysicalType

namespace Expression

mutual

/-- The written form. -/
def text : Expression → String
  | path p => p.text
  | literal value kind => s!"{value}::{kind.name}"
  | parameter name _ => s!":{name}"
  | function name arguments _ => s!"{name}(" ++ textOfAll arguments ++ ")"

def textOfAll : List Expression → String
  | [] => ""
  | [e] => text e
  | e :: es => text e ++ ", " ++ textOfAll es

end

def path? : Expression → Option Path
  | path p => some p
  | _ => none

/-- The logical type of a path. -/
def typeOfPath? : Path → Option LogicalType
  | .cteColumn _ c _ => some (.basic c.kind)
  | p => p.source?.map fun s =>
      match s.kind with
      | .basic kind _ => .basic kind
      | _ => .domain s.type

/-- The logical type of an expression. -/
def logicalType? : Expression → Option LogicalType
  | path p => typeOfPath? p
  | literal _ kind => some (.basic kind)
  | parameter _ kind => kind.map .basic
  | function _ _ kind => kind.map .basic

end Expression

namespace Resolver

/-- The physical type of an expression. -/
def typeOf? (r : Resolver) : Expression → Option PhysicalType
  | .path p => (r.resolve? p).map .part
  | e =>
      match e.logicalType? with
      | some (.basic kind) => some (.basic kind)
      | _ => none

/-- The physical types of the two sides of a comparison. -/
def comparisonTypes (r : Resolver) (lhs rhs : Expression) :
    Option PhysicalType × Option PhysicalType :=
  let l := r.typeOf? lhs
  let r := r.typeOf? rhs
  (l <|> r, r <|> l)

end Resolver

end QueryPath
