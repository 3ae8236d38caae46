import QueryPath.Text.Blank
import QueryPath.Text.Natural

/-!
# Arguments of the command line

```text
[OPTIONS] PATHS...
  --model FILE            --root ENTITY=ALIAS   (repeatable)
  --max-path-depth N      --join PATH=ALIAS     (repeatable)
  --validate-treat        --log FILTER          --format text|json
```

The value of an option follows it, or stands behind an equals sign. Behind `--` every argument is
a path.
-/

namespace QueryPath.CommandLine

open Text

/-- How results are printed. -/
inductive OutputFormat where
  | text
  | json
deriving DecidableEq, Repr

/-- What the arguments ask for. -/
structure Arguments where
  model : Option String := none
  /-- Entities with their variables. -/
  roots : List (String × String) := []
  /-- Joined paths with their variables. -/
  joins : List (String × String) := []
  maxPathDepth : Option Nat := none
  validatesTreats : Bool := false
  log : Option String := none
  format : Option OutputFormat := none
  paths : List String := []
deriving DecidableEq, Repr

/-- The text before and behind the first equals sign. -/
def splitAtEquals? (s : List Char) : Option (List Char × List Char) :=
  match s.dropWhile (· != '=') with
  | _ :: r => some (s.takeWhile (· != '='), r)
  | [] => none

/-- The two sides of `name=variable`, neither of which may be blank. -/
def assignmentSides? (text : String) : Option (String × String) := do
  let (left, right) ← splitAtEquals? text.toList
  let left := trim (String.ofList left)
  let right := trim (String.ofList right)
  if left = "" ∨ right = "" then none else some (left, right)

/-- The names of the options that take a value. -/
inductive ValueOption where
  | model
  | root
  | join
  | maxPathDepth
  | log
  | format
deriving DecidableEq, Repr

def ValueOption.ofName? : String → Option ValueOption
  | "model" => some model
  | "root" => some root
  | "join" => some join
  | "max-path-depth" => some maxPathDepth
  | "log" => some log
  | "format" => some format
  | _ => none

namespace Arguments

/-- The value of an option that is given once. -/
def once? {α : Type} (old : Option α) (new : α) : Option (Option α) :=
  match old with
  | none => some (some new)
  | some _ => none

/-- The arguments with one more option. -/
def withValue? (a : Arguments) (option : ValueOption) (text : String) : Option Arguments := do
  match option with
  | .model => return { a with model := ← once? a.model text }
  | .root => return { a with roots := a.roots ++ [← assignmentSides? text] }
  | .join => return { a with joins := a.joins ++ [← assignmentSides? text] }
  | .maxPathDepth =>
      return { a with maxPathDepth := ← once? a.maxPathDepth (← (natural wordBound text).toOption) }
  | .log => return { a with log := ← once? a.log text }
  | .format =>
      match text with
      | "text" => return { a with format := ← once? a.format .text }
      | "json" => return { a with format := ← once? a.format .json }
      | _ => none

/-- Whether an argument reads as an option: it begins with a dash, and is more than that. -/
def isOption (text : String) : Bool :=
  match text.toList with
  | '-' :: _ :: _ => true
  | _ => false

/-- The arguments after those that have been read. -/
def readFrom? (a : Arguments) : List String → Option Arguments
  | [] => some a
  | "--" :: rest => some { a with paths := a.paths ++ rest }
  | text :: rest =>
      if !isOption text then readFrom? { a with paths := a.paths ++ [text] } rest
      else match text.toList with
        | '-' :: '-' :: name =>
            match splitAtEquals? name with
            | some (name, value) => do
                let option ← ValueOption.ofName? (String.ofList name)
                readFrom? (← a.withValue? option (String.ofList value)) rest
            | none =>
                if name == "validate-treat".toList then
                  if a.validatesTreats then none
                  else readFrom? { a with validatesTreats := true } rest
                else match rest with
                  | [] => none
                  | value :: rest => do
                      let option ← ValueOption.ofName? (String.ofList name)
                      if isOption value then none
                      readFrom? (← a.withValue? option value) rest
        | _ => none

/-- What the arguments ask for, if they are in order: at least one path is asked for. -/
def read? (arguments : List String) : Option Arguments := do
  let a ← readFrom? {} arguments
  if a.paths.isEmpty then none else some a

end Arguments

end QueryPath.CommandLine
