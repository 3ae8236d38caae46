import QueryPath.Path.Basic
import QueryPath.Physical.Metamodel

/-!
# Narrowing steps

A step `treat(p as T)` narrows a path to a subtype, so that the attributes of the subtype come
within reach. Building a path does not check such steps; `validateTreat` does.
-/

namespace QueryPath

open Logical Physical

/-- What is wrong with a narrowing step. -/
inductive TreatFault where
  | notTreated
  | notEntity (typeName : String)
  | baseNotEntity
  | notSubtype (target base : String)
deriving DecidableEq, Repr

def TreatFault.reason : TreatFault → String
  | notTreated => "not a treated path"
  | notEntity typeName => s!"`{typeName}` is not an entity type"
  | baseNotEntity => "the treated path is not entity-valued"
  | notSubtype target base => s!"`{target}` is not a subtype of `{base}`"

/-- Why a path has no part when one is wanted. -/
inductive ResolutionError where
  | unresolvedPath (path : String)
  | invalidTreat (path target : String) (fault : TreatFault)
  | physical (error : Physical.Error)
deriving DecidableEq, Repr

def ResolutionError.message : ResolutionError → String
  | unresolvedPath path => s!"Could not resolve `{path}` to a physical model part"
  | invalidTreat path target fault =>
      s!"Invalid treat target `{target}` for `{path}`: {fault.reason}"
  | physical error => error.message

/-- The entity that a source stands for. Where it stands for none, none of the name of its type is
looked for. -/
def entityOfSource (m : Metamodel) (s : Source) : Except Physical.Error Entity :=
  match s.entity? with
  | some entity => m.entity entity
  | none => .error (.unknownEntity s.typeName)

/-- The entity to which the base of a path is narrowed, looking no further than that base. -/
def explicitTreatTarget (m : Metamodel) (p : Path) : Except Physical.Error (Option Entity) :=
  match p.base?.bind Path.treatEntity? with
  | none => .ok none
  | some entity => some <$> m.entity entity

/-- A result of looking an entity up. -/
def ofPhysical {α : Type} : Except Physical.Error α → Except ResolutionError α
  | .ok a => .ok a
  | .error e => .error (.physical e)

/-- Checks that a path narrows an entity-valued base to an entity at or below the type of the
base, and returns that entity. -/
def validateTreat (m : Metamodel) (p : Path) : Except ResolutionError Entity :=
  match p with
  | .treat base target =>
      let invalid := fun fault => Except.error (.invalidTreat p.text target.name fault)
      match target.entity?, base.source?.bind Source.entity? with
      | none, _ => invalid (.notEntity target.typeName)
      | some _, none => invalid .baseNotEntity
      | some target, some base => do
          let base ← ofPhysical (m.entity base)
          let target ← ofPhysical (m.entity target)
          if m.isSubtype target base then return target
          else invalid (.notSubtype target.name base.name)
  | _ => .error (.invalidTreat p.text p.name .notTreated)

/-- Checks all narrowing steps of a path, the last one first. -/
def validateTreats (m : Metamodel) (p : Path) : Except ResolutionError Unit :=
  match p with
  | .root _ _ | .cteRoot _ _ => .ok ()
  | .cteColumn b _ _ | .member b _ _ _ | .part b _ _ => validateTreats m b
  | .treat b _ => do
      let _ ← validateTreat m p
      validateTreats m b

end QueryPath
