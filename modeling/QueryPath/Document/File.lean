import QueryPath.Document.Directory
import QueryPath.Document.Json.Reader
import QueryPath.Document.Yaml.Reader

/-!
# Documents in files

The name of a file says in which format its text is.
-/

namespace QueryPath.Document

/-- The last component of a path, unless it leads upwards. -/
def fileName? (path : String) : Option (List Char) :=
  ((components path).getLast?.filter (· != "..")).map String.toList

/-- What follows the last dot in the name of a file, unless the name begins with that dot. -/
def extension? (path : String) : Option (List Char) := do
  let reversed := (← fileName? path).reverse
  match reversed.dropWhile (· != '.') with
  | _ :: _ :: _ => some (reversed.takeWhile (· != '.')).reverse
  | _ => none

inductive Format where
  | json
  | yaml
deriving DecidableEq, Repr

/-- Why a text is no document of a form. -/
inductive ReadError where
  | json (error : Json.Error)
  | yaml (error : Yaml.Error)
deriving DecidableEq, Repr

def ReadError.message : ReadError → String
  | json error => error.message
  | yaml error => error.message

namespace Format

/-- A file is JSON if its extension says so, in letters of any case, and YAML otherwise. -/
def ofPath (path : String) : Format :=
  if (extension? path).map (·.map Char.toLower) == some ['j', 's', 'o', 'n'] then json else yaml

/-- The value of a form that a text writes. -/
def read {α : Type} (format : Format) (form : Form α) (text : String) : Except ReadError α :=
  match format with
  | json => (Json.read form text).mapError .json
  | yaml => (Yaml.read form text).mapError .yaml

end Format

end QueryPath.Document
