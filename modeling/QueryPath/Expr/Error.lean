import QueryPath.Expr.Basic

/-!
# Refused path expressions
-/

namespace QueryPath

/-- The construct of a path expression in which reading stopped. -/
inductive Construct where
  | start
  | memberName
  | treat
  | treatTarget
  | function (function : PartFunction)
  | closing
deriving DecidableEq, Repr

def Construct.text : Construct → String
  | start => "unexpected input"
  | memberName => "attribute name"
  | treat => "treat"
  | treatTarget => "treat target"
  | function f => f.name
  | closing => "closing parenthesis"

namespace Expr

/-- Largest number of steps in one expression. -/
def maxSteps : Nat := 256

/-- Why a text is no path expression. Positions are byte offsets. -/
inductive Error where
  | empty
  | invalid (position : Nat) (construct : Construct) (near : String)
  | tooManySteps
  | trailing (position : Nat) (remaining : String)
deriving DecidableEq, Repr

def Error.message : Error → String
  | empty => "Empty path expression"
  | invalid position construct near =>
      s!"Invalid path expression at offset {position} ({construct.text}): `{near}`"
  | tooManySteps => s!"Path expression has more than {maxSteps} navigation steps"
  | trailing position remaining => s!"Unexpected input at offset {position}: `{remaining}`"

end Expr

end QueryPath
