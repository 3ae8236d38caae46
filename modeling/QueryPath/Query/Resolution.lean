import QueryPath.Query.FromClause
import QueryPath.Query.Treat

/-!
# Resolution of paths

The model part that a path denotes. The first rule that applies decides.

| path | part |
|---|---|
| `treat(p as E)`, `E` an entity | the entity `E` |
| `treat(p as E).x` | `x` on `E`, narrowed to `E` |
| `element(p.c)`, `key(p.c)` | the part of the collection `c`, which is found from `p`; an element that is an entity counts as that entity |
| a root | its entity; a common table expression has none |
| `p.x` | `x` on the table group of `p`, or on the part of `p` where it has no group |

A path that leads nowhere has no part, which is no error. Resolution gives up when it has to
resolve more than `maxDepth` paths, one inside the other.
-/

namespace QueryPath

open Logical Physical

/-- What a path is resolved against. -/
structure Resolver where
  metamodel : Metamodel
  /-- The part of the table group of a path, if it has one. -/
  groupPart? : NavigablePath → Option Part
  maxDepth : Nat := 64
  /-- Refuse narrowing steps that do not lead to a subtype. -/
  validatesTreats : Bool := false

namespace Resolver

/-- No path has a table group. -/
def noGroups (_ : NavigablePath) : Option Part := none

/-- The container that a path stands for: the part of its table group, or else the part that it
resolves to. -/
def container? (r : Resolver) (p : Path) (resolved : Unit → Option Part) : Option Part :=
  match r.groupPart? p.navigable with
  | some part => some part
  | none => resolved ()

/-- The part that a name leads to from a base. -/
def member? (r : Resolver) (base : Path) (name : String) (resolved : Unit → Option Part) :
    Option Part :=
  match base.treatEntity? with
  | some entity => do
      let t ← r.metamodel.entity? entity
      r.metamodel.subPart? (.entity t) name (some t)
  | none => do r.metamodel.subPart? (← r.container? base resolved) name none

/-- A part of a collection as the part of a path: an entity counts as itself. -/
def collapse? (r : Resolver) : Part → Option Part
  | .collection c =>
      match c.entity? with
      | some entity => (r.metamodel.entity? entity).map .entity
      | none => some (.collection c)
  | part => some part

/-- The part of a path, `depth` being the number of paths around it that wait for it. -/
def resolveAt (r : Resolver) (p : Path) (depth : Nat) : Option Part :=
  if r.maxDepth ≤ depth then none
  else
    match p with
    | .root s _ => (s.entity?.bind r.metamodel.entity?).map .entity
    | .cteRoot _ _ => none
    | .treat base target =>
        match target.entity? with
        | some entity => (r.metamodel.entity? entity).map .entity
        | none => r.member? base target.name fun _ => r.resolveAt base (depth + 1)
    | .cteColumn base column _ =>
        r.member? base column.name fun _ => r.resolveAt base (depth + 1)
    | .member base source _ _ =>
        r.member? base source.name fun _ => r.resolveAt base (depth + 1)
    | .part (.member base source _ _) nature _ => do
        let owner ← r.container? base fun _ => r.resolveAt base (depth + 1)
        let plural ← r.metamodel.subPart? owner source.name none
        r.collapse? (← r.metamodel.subPart? plural nature.name none)
    | .part _ _ _ => none

/-- The part of a path. -/
def resolve? (r : Resolver) (p : Path) : Option Part := r.resolveAt p 0

/-- The part of a path whose narrowing steps are checked first, if they are to be. -/
def resolve (r : Resolver) (p : Path) : Except ResolutionError (Option Part) := do
  if r.validatesTreats then validateTreats r.metamodel p
  return r.resolve? p

/-- The part of a path, whose absence is an error. -/
def require (r : Resolver) (p : Path) : Except ResolutionError Part := do
  match ← r.resolve p with
  | some part => return part
  | none => throw (.unresolvedPath p.text)

end Resolver

/-- The part of the table group of a path. -/
def FromClause.groupPart? (f : FromClause) (path : NavigablePath) : Option Part :=
  (f.find? path).map (·.part)

end QueryPath
