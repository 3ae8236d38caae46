import QueryPath.Document.File
import QueryPath.Text.Natural

/-!
# Configuration

The settings of a run. They come from variables of the environment, from the command line or from
a file, are checked wherever they come from, and are merged in that order.
-/

namespace QueryPath

open Document Text

structure Configuration where
  /-- How many paths may be resolved one inside the other. -/
  maxPathDepth : Nat := 64
  /-- Refuse narrowing steps that do not lead to a subtype. -/
  validatesTreats : Bool := false
  logFilter : String := "info"
  /-- The file that defines the model. -/
  modelPath : Option String := none
deriving DecidableEq, Repr, Inhabited

namespace Configuration

/-- What is wrong with a setting. -/
inductive Fault where
  | emptyLogFilter
  | depthOutOfRange
  | emptyModelPath
deriving DecidableEq, Repr

namespace Fault

/-- The setting at fault. -/
def field : Fault → String
  | emptyLogFilter => "log_filter"
  | depthOutOfRange => "max_path_depth"
  | emptyModelPath => "model_path"

/-- The rule that the setting breaks. -/
def rule : Fault → String
  | depthOutOfRange => "range"
  | emptyLogFilter | emptyModelPath => "length"

def message : Fault → String
  | emptyLogFilter => "Log filter cannot be empty"
  | depthOutOfRange => "Max path depth must be between 1 and 1024"
  | emptyModelPath => "Model path cannot be empty"

/-- The faults with their fields, one a line. -/
def report (faults : List Fault) : String :=
  "\n".intercalate (faults.map fun f => s!"{f.field}: {f.message}")

end Fault

/-- The faults of a configuration, in the order of the names of their fields. -/
def faults (c : Configuration) : List Fault :=
  (if c.logFilter = "" then [.emptyLogFilter] else [])
    ++ (if 1 ≤ c.maxPathDepth ∧ c.maxPathDepth ≤ 1024 then [] else [.depthOutOfRange])
    ++ (if c.modelPath = some "" then [.emptyModelPath] else [])

/-- Why a text is no value of a setting. -/
inductive ValueError where
  | number (error : NumeralError)
  | notFlag
deriving DecidableEq, Repr

def ValueError.message : ValueError → String
  | number error => error.message
  | notFlag => "provided string was not `true` or `false`"

/-- Why there is no configuration. -/
inductive Error where
  | value (name text : String) (error : ValueError)
  | unreadable (error : FileError)
  /-- The text of a file is no configuration. -/
  | malformed (text : String) (error : Yaml.Error)
  | invalid (faults : List Fault)
deriving DecidableEq, Repr

namespace Error

def message : Error → String
  | value name text error => s!"Parse error for {name}: {text} - {error.message}"
  | unreadable error => s!"Parse error for yaml_file: file read failed - {error.message}"
  | malformed text error => s!"Parse error for yaml_content: {text} - {error.message}"
  | invalid faults => s!"Validation error: {Fault.report faults}"

/-- The message and those of the errors behind it. -/
def chain (e : Error) : List String :=
  match e with
  | invalid faults => [e.message, Fault.report faults]
  | _ => [e.message]

end Error

/-- The configuration, if it has no fault. -/
def check (c : Configuration) : Except Error Configuration :=
  match c.faults with
  | [] => .ok c
  | faults => .error (.invalid faults)

/-! ### From the environment -/

/-- Names of the variables that hold the settings. -/
def depthVariable : String := "PATHMAP_MAX_PATH_DEPTH"

@[inherit_doc depthVariable]
def treatVariable : String := "PATHMAP_VALIDATE_TREAT"

@[inherit_doc depthVariable]
def logVariable : String := "PATHMAP_LOG"

@[inherit_doc depthVariable]
def modelVariable : String := "PATHMAP_MODEL"

/-- The truth value that a text writes. -/
def flag (text : String) : Except ValueError Bool :=
  if text = "true" then .ok true
  else if text = "false" then .ok false
  else .error .notFlag

/-- The value of a variable, or the default where it is not set. -/
def setting {α : Type} (lookup : String → Option String) (name : String) (default : α)
    (read : String → Except ValueError α) : Except Error α :=
  match lookup name with
  | none => .ok default
  | some text => (read text).mapError (.value name text)

/-- The configuration that the variables of the environment give. -/
def ofEnvironment (lookup : String → Option String) : Except Error Configuration := do
  let maxPathDepth ← setting lookup depthVariable 64 fun text =>
    (natural wordBound text).mapError .number
  let validatesTreats ← setting lookup treatVariable false flag
  check {
    maxPathDepth
    validatesTreats
    logFilter := (lookup logVariable).getD "info"
    modelPath := lookup modelVariable }

/-! ### From a file -/

/-- How a configuration is written. -/
def form : Form Configuration :=
  .record "a configuration"
    (.defaulting "max_path_depth" 64 .number <|
      .defaulting "validate_treat_targets" false .flag <|
      .defaulting "log_filter" "info" .text <|
      .defaulting "model_path" none (.optional .text) .none)
    fun (maxPathDepth, validatesTreats, logFilter, modelPath, _) =>
      { maxPathDepth, validatesTreats, logFilter, modelPath }

/-- The configuration in a file. -/
def ofFile (content : Except FileError String) : Except Error Configuration := do
  let text ← content.mapError .unreadable
  check (← (Yaml.read form text).mapError (.malformed text))

/-! ### Merging -/

/-- The later configuration, with the model path of the earlier one where it has none. -/
def merge (earlier later : Configuration) : Configuration :=
  { later with modelPath := later.modelPath <|> earlier.modelPath }

end Configuration

end QueryPath
