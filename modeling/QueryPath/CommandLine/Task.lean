import QueryPath.Catalog.Basic
import QueryPath.CommandLine.Arguments
import QueryPath.CommandLine.Environment
import QueryPath.Configuration
import QueryPath.Document.Json
import QueryPath.Query.Resolution
import QueryPath.Query.Scope

/-!
# Resolving paths from the command line

A task is what arguments and environment ask for. It names the file that defines the model, and
with the content of that file it has an outcome: one line for each path that is resolved, and a
message for each that is not. The first fault before the paths ends a task.
-/

namespace QueryPath.CommandLine

open Document

/-- The result of a run. The exit code is 2 where the arguments are not in order, and 1 where a
run failed. -/
structure Outcome where
  code : Nat := 0
  /-- Texts for the standard output, each on lines of its own. -/
  output : List String := []
  /-- Texts for the error output, each on lines of its own. -/
  errors : List String := []
deriving DecidableEq, Repr

/-- A text whose lines are indented; the first one may begin with a number. -/
def indented (number : Option Nat) (text : String) : String :=
  let (first, next) := match number with
    | some n =>
        let blanks := String.ofList (List.replicate (5 - n.repr.length) ' ')
        (s!"{blanks}{n}: ", "       ")
    | none => ("    ", "    ")
  first ++ (("\n" ++ next).intercalate (text.splitOn "\n"))

/-- The report of an error with its causes, which are numbered if there are several. -/
def errorReport (message : String) (causes : List String) : String :=
  let shown := match causes with
    | [] => []
    | [cause] => [indented none cause]
    | _ => causes.zipIdx.map fun (cause, i) => indented (some i) cause
  let head := s!"Error: {message}"
  if shown.isEmpty then head else "\n".intercalate (head :: "" :: "Caused by:" :: shown)

namespace Outcome

/-- The arguments are not in order. -/
def usage : Outcome := { code := 2, errors := ["usage: pathmap [OPTIONS] PATHS..."] }

/-- The run failed. -/
def failure (message : String) (causes : List String) : Outcome :=
  { code := 1, errors := [errorReport message causes] }

end Outcome

/-- A run that is ready to begin. -/
structure Task where
  arguments : Arguments
  configuration : Configuration
  /-- The file that defines the model. -/
  model : String
deriving DecidableEq, Repr

namespace Task

/-- The configuration that the arguments give over that of the environment. -/
def overridden (a : Arguments) (c : Configuration) : Configuration :=
  { maxPathDepth := a.maxPathDepth.getD c.maxPathDepth
    validatesTreats := a.validatesTreats || c.validatesTreats
    logFilter := a.log.getD c.logFilter
    modelPath := a.model }

/-- The task that arguments and environment ask for. -/
def of (environment : Environment) (arguments : List String) : Except Outcome Task := do
  let a ← match Arguments.read? arguments with
    | some a => .ok a
    | none => .error .usage
  let fromEnvironment ← (Configuration.ofEnvironment environment.value?).mapError fun e =>
    .failure "Invalid environment configuration" e.chain
  let fromArguments ← ((overridden a fromEnvironment).check).mapError fun e =>
    .failure "Invalid command line configuration" e.chain
  let configuration := fromEnvironment.merge fromArguments
  match configuration.modelPath with
  | some model => return ⟨a, configuration, model⟩
  | none => throw (.failure "No model definition given; pass --model or set PATHMAP_MODEL" [])

/-- Scope and from-clause of a task, or the message of the first error. -/
def declared (t : Task) (c : Catalog) : Except String (Scope × FromClause) := do
  let mut scope : Scope := { registry := c.registry }
  let mut fromClause : FromClause := {}
  for (entity, name) in t.arguments.roots do
    let (root, next) ← (scope.addRoot entity name).mapError (·.message)
    scope := next
    fromClause := (← (fromClause.addRoot c.metamodel root).mapError (·.message)).2
  for (expression, name) in t.arguments.joins do
    let (join, next) ← (scope.addJoin expression name).mapError (·.message)
    scope := next
    fromClause := (← (fromClause.addJoin c.metamodel join).mapError (·.message)).2
  return (scope, fromClause)

/-- The line of a path that was bound. -/
def line (format : OutputFormat) (expression : String) (p : Path) (part : Option Physical.Part) :
    String :=
  match format with
  | .text =>
      "\t".intercalate
        [expression, p.navigable.full, (part.map (·.text)).getD "unresolved"]
  | .json => (Json.object [
      ("expression", .string expression),
      ("navigable_path", .string p.navigable.full),
      ("model_part", Json.ofText? (part.map (·.text))),
      ("jdbc_type", Json.ofText? ((part.bind (·.kind?)).map (·.name)))]).compact

/-- The line of an expression, or why it has none. -/
def answer (format : OutputFormat) (scope : Scope) (r : Resolver) (expression : String) :
    Except String String := do
  let p ← (scope.bindText expression).mapError (·.message)
  let part ← (r.resolve p).mapError (·.message)
  return line format expression p part

/-- The outcome over a catalog. -/
def outcome (t : Task) (c : Catalog) : Outcome :=
  match t.declared c with
  | .error message => .failure message []
  | .ok (scope, fromClause) =>
      let r : Resolver := {
        metamodel := c.metamodel
        groupPart? := fromClause.groupPart?
        maxDepth := t.configuration.maxPathDepth
        validatesTreats := t.configuration.validatesTreats }
      let format := t.arguments.format.getD .text
      let answers := t.arguments.paths.map fun e => (e, answer format scope r e)
      let output := answers.filterMap fun (_, a) => a.toOption
      let errors := answers.filterMap fun
        | (e, .error message) => some s!"{e}: {message}"
        | (_, .ok _) => none
      if errors.isEmpty then { output }
      else
        let summary := s!"{errors.length} of {answers.length} paths failed"
        { code := 1, output, errors := errors ++ [errorReport summary []] }

/-- The outcome, given the content of the file that defines the model. -/
def run (t : Task) (content : Except FileError String) : Outcome :=
  match Catalog.ofFile t.model content with
  | .error e => .failure s!"Failed to load model `{t.model}`" [e.message]
  | .ok c => t.outcome c

end Task

end QueryPath.CommandLine
