import QueryPath.Path.Basic
import QueryPath.Physical.Part

/-!
# Table groups

The from-clause of a query: a table group for each of its roots and joins. A group is found by
the text of its navigable path. The variable of a group is the first letter of the name of its
part, followed by a number that counts the groups of that letter:

```text
from Auction a join a.bids b join a.seller s
  Auction(a)            auctions   a1_0
  Auction(a).bids(b)    bids       b1_0
  Auction(a).seller(s)  members    s1_0
```
-/

namespace QueryPath

open Physical

/-- The tables behind one path. -/
structure TableGroup where
  path : NavigablePath
  /-- The container on which names are looked up. -/
  part : Part
  /-- The variable that the query gives to the path. -/
  aliasName : Option String
  table : String
  /-- The variable of the table. -/
  identification : String
deriving DecidableEq, Repr

/-- The group as shown to users. -/
def TableGroup.text (g : TableGroup) : String :=
  s!"{g.path.full} => {g.table} {g.identification} [{g.part.text}]"

/-- Why a path cannot be joined. -/
inductive JoinFault where
  | notEntityRoot
  | noDescriptor (entity : String)
  | root
  | unknownTreatTarget
  | noSuchMapping
  | basicValue
deriving DecidableEq, Repr

def JoinFault.reason : JoinFault → String
  | notEntityRoot => "not an entity root"
  | noDescriptor entity => s!"no entity descriptor for `{entity}`"
  | root => "a root cannot be joined"
  | unknownTreatTarget => "unknown treat target"
  | noSuchMapping => "no such physical attribute"
  | basicValue => "basic values cannot be joined"

inductive FromClauseError where
  | duplicateGroup (path : String)
  | missingGroup (path : String)
  | unresolvedJoin (path : String) (fault : JoinFault)
deriving DecidableEq, Repr

def FromClauseError.message : FromClauseError → String
  | duplicateGroup path => s!"A table group is already registered for `{path}`"
  | missingGroup path => s!"No table group for `{path}`"
  | unresolvedJoin path fault => s!"Cannot join `{path}`: {fault.reason}"

/-- The table groups of a query in the order of their registration, and the stems of the
variables that were given out, in the order in which they were. -/
structure FromClause where
  groups : List TableGroup := []
  stems : List Char := []
deriving DecidableEq, Repr

namespace FromClause

/-- The group of a path. -/
def find? (f : FromClause) (path : NavigablePath) : Option TableGroup :=
  f.groups.find? (·.path.same path)

/-- The group of a path, whose absence is an error. -/
def get (f : FromClause) (path : NavigablePath) : Except FromClauseError TableGroup :=
  match f.find? path with
  | some g => .ok g
  | none => .error (.missingGroup path.full)

/-- Adds a group; a path has no more than one. -/
def register (f : FromClause) (g : TableGroup) : Except FromClauseError (TableGroup × FromClause) :=
  match f.find? g.path with
  | some _ => .error (.duplicateGroup g.path.full)
  | none => .ok (g, { f with groups := f.groups ++ [g] })

/-- First ASCII letter of a name in lower case, or `t` if it has none. -/
def stemOf (name : String) : Char :=
  ((name.toList.find? Char.isAlpha).map Char.toLower).getD 't'

/-- The variable of the next group of a stem. -/
def nextIdentification (f : FromClause) (stem : Char) : String :=
  s!"{stem}{f.stems.count stem + 1}_0"

/-- Adds a group for a path and its part, under a new variable. -/
def materialize (m : Metamodel) (f : FromClause) (p : Path) (part : Part) :
    Except FromClauseError (TableGroup × FromClause) :=
  let stem := stemOf part.name
  let f' := { f with stems := f.stems ++ [stem] }
  f'.register ⟨p.navigable, part, p.aliasName?, m.partTable part, f.nextIdentification stem⟩

/-- Adds the group of a root over an entity. -/
def addRoot (m : Metamodel) (f : FromClause) (p : Path) :
    Except FromClauseError (TableGroup × FromClause) :=
  match p with
  | .root s _ =>
      match s.entity? with
      | none => .error (.unresolvedJoin p.text .notEntityRoot)
      | some entity =>
          match m.entity? entity with
          | none => .error (.unresolvedJoin p.text (.noDescriptor entity))
          | some e => f.materialize m p (.entity e)
  | _ => .error (.unresolvedJoin p.text .notEntityRoot)

/-- The part that a joined path leads to, from the group of its base. A base that is narrowed to
an entity stands on the group of the path that it narrows. -/
def joinedPart (m : Metamodel) (f : FromClause) (p base : Path) :
    Except FromClauseError (Option Part) :=
  match base with
  | .treat anchor target =>
      match target.entity? with
      | some entity => do
          let _ ← f.get anchor.navigable
          match m.entity? entity with
          | none => throw (.unresolvedJoin p.text .unknownTreatTarget)
          | some t => return m.subPart? (.entity t) p.name (some t)
      | none => do return m.subPart? (← f.get base.navigable).part p.name none
  | _ => do return m.subPart? (← f.get base.navigable).part p.name none

/-- Adds the group of a join; the base of the path has its group already. -/
def addJoin (m : Metamodel) (f : FromClause) (p : Path) :
    Except FromClauseError (TableGroup × FromClause) :=
  match p.base? with
  | none => .error (.unresolvedJoin p.text .root)
  | some base => do
      match ← f.joinedPart m p base with
      | none => throw (.unresolvedJoin p.text .noSuchMapping)
      | some part =>
          if part.isContainer then f.materialize m p part
          else throw (.unresolvedJoin p.text .basicValue)

end FromClause

end QueryPath
