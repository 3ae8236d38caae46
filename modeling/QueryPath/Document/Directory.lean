/-!
# Directories

Files with their bytes, and the paths that lead to them from the directory in which a program
runs. A path is followed name by name. What lies outside of the directory is not known, but for the
directories above it and the empty file `/dev/null`.
-/

namespace QueryPath.Document

/-- Why a file could not be read. -/
inductive FileError where
  | notFound
  /-- The path goes on behind a file. -/
  | notDirectory
  /-- The path leads to a directory. -/
  | directory
  | nameTooLong
  | notText
  | other (description : String)
deriving DecidableEq, Repr

def FileError.message : FileError → String
  | notFound => "No such file or directory (os error 2)"
  | notDirectory => "Not a directory (os error 20)"
  | directory => "Is a directory (os error 21)"
  | nameTooLong => "File name too long (os error 36)"
  | notText => "stream did not contain valid UTF-8"
  | other description => description

/-- The text in a file of these bytes. -/
def textOf (bytes : ByteArray) : Except FileError String :=
  match String.fromUTF8? bytes with
  | some text => .ok text
  | none => .error .notText

/-- The components of a path that lead somewhere. -/
def components (path : String) : List String :=
  (path.splitOn "/").filter fun c => c != "" && c != "."

/-- The files at or below a directory, each with the names that lead to it. -/
structure Directory where
  files : List (List String × ByteArray) := []

namespace Directory

/-- The directory with the files that have these paths. -/
def ofFiles (files : List (String × ByteArray)) : Directory :=
  { files := files.map fun (path, bytes) => (components path, bytes) }

/-- Where a path leads. -/
inductive Location where
  | file (bytes : ByteArray)
  /-- The names lead from a directory to one below it. -/
  | inside (directory : Directory) (names : List String)
  /-- A directory above the one that is known. -/
  | outside

/-- The directory of the device that is an empty file. -/
def devices : Directory := { files := [(["dev", "null"], .empty)] }

/-- Most bytes of one name in a path. -/
def maxNameLength : Nat := 255

/-- Most bytes of a path. -/
def maxPathLength : Nat := 4095

/-- The location of a name below a directory. -/
def lookup (d : Directory) (names : List String) : Except FileError Location :=
  match d.files.find? (·.1 == names) with
  | some (_, bytes) => .ok (.file bytes)
  | none =>
      if d.files.any fun (path, _) => names.isPrefixOf path then .ok (.inside d names)
      else .error .notFound

/-- The location of a name that stands for no directory by itself. -/
def Location.enter (l : Location) (name : String) : Except FileError Location :=
  if maxNameLength < name.utf8ByteSize then .error .nameTooLong
  else match l with
    | .inside d names => d.lookup (names ++ [name])
    | _ => .error .notFound

/-- The location behind one component of a path. -/
def Location.next (l : Location) (component : String) : Except FileError Location :=
  match l with
  | .file _ => .error .notDirectory
  | _ =>
      if component = "" ∨ component = "." then .ok l
      else if component = ".." then
        match l with
        | .inside d (name :: names) => .ok (.inside d (name :: names).dropLast)
        | _ => .ok .outside
      else l.enter component

/-- The location to which a path leads from the directory. -/
def follow (d : Directory) (path : String) : Except FileError Location :=
  if path = "" then .error .notFound
  else if maxPathLength < path.utf8ByteSize then .error .nameTooLong
  else
    let start := if path.toList.head? = some '/' then devices else d
    (path.splitOn "/").foldlM Location.next (.inside start [])

/-- The bytes of the file to which a path leads. -/
def read (d : Directory) (path : String) : Except FileError ByteArray := do
  match ← d.follow path with
  | .file bytes => return bytes
  | _ => throw .directory

end Directory

end QueryPath.Document
