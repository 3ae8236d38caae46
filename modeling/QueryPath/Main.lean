import QueryPath.CommandLine.Task

/-!
# Running from the command line

Reads arguments, environment and files, and prints the outcome of the task they ask for.
-/

namespace QueryPath.CommandLine

open Document

/-- Why reading failed. The code of an error of the system may have a minus sign. -/
def fileError (e : IO.Error) : FileError :=
  let number (code : UInt32) : Nat := (min code (0 - code)).toNat
  match e with
  | .noFileOrDirectory .. => .notFound
  | .inappropriateType _ code _ => if number code = 20 then .notDirectory else .directory
  | .invalidArgument _ code details =>
      if number code = 36 then .nameTooLong else .other s!"{details} (os error {number code})"
  | .permissionDenied _ _ _ => .other "Permission denied (os error 13)"
  | e => .other e.toString

/-- The bytes in a file. -/
def readBytes (path : String) : IO (Except FileError ByteArray) := do
  try
    return .ok (← IO.FS.readBinFile path)
  catch e => return .error (fileError e)

/-- The text of the file `.env` in the working directory or in the nearest one around it. -/
def environmentFile : IO String := do
  let depth := (← IO.currentDir).components.length
  for level in List.range (depth + 1) do
    if let .ok bytes ← readBytes (String.join (List.replicate level "../") ++ ".env") then
      return leadingText bytes
  return ""

/-- The variables of the process that a run may ask for, and those that the file sets. -/
def environment (file : String) : IO Environment := do
  let used := (assignments file).flatMap fun a =>
    a.name :: a.value.filterMap fun
      | .reference name => some name
      | .char _ => none
  let names := [Configuration.depthVariable, Configuration.treatVariable,
    Configuration.logVariable, Configuration.modelVariable] ++ used
  let values ← names.filterMapM fun name => do
    return (← IO.getEnv name).map (name, ·)
  return Environment.withFile values file

/-- The outcome of a run with the arguments. -/
def execute (arguments : List String) : IO Outcome := do
  match Task.of (← environment (← environmentFile)) arguments with
  | .error outcome => return outcome
  | .ok task => return task.run ((← readBytes task.model).bind textOf)

end QueryPath.CommandLine

def main (arguments : List String) : IO UInt32 := do
  let outcome ← QueryPath.CommandLine.execute arguments
  outcome.output.forM IO.println
  outcome.errors.forM IO.eprintln
  return outcome.code.toUInt32
