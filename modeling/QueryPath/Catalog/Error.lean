import QueryPath.Definition.Check
import QueryPath.Document.File
import QueryPath.Logical.Registry
import QueryPath.Physical.Metamodel

/-!
# What goes wrong with catalogs

A catalog is made in stages: a text is read, the definition in it is checked, and then a domain
model, its sources and a metamodel are made of the definition. Each stage has faults of its own.
The last ones also find fault with the definition, in the words of its check, where a type or a
table that they look up is missing.
-/

namespace QueryPath

open Document

/-- Why there is no catalog. -/
inductive CatalogError where
  | unreadable (error : FileError)
  /-- The text is no definition. -/
  | malformed (error : ReadError)
  | invalid (fault : Definition.Fault)
  | logical (error : Logical.Error)
  | physical (error : Physical.Error)
  | source (error : Logical.SourceError)
deriving DecidableEq, Repr

def CatalogError.message : CatalogError → String
  | unreadable error => s!"Failed to read model definition: {error.message}"
  | malformed error => s!"Failed to parse model definition: {error.message}"
  | invalid fault => s!"Invalid model definition: {fault.message}"
  | logical error => error.message
  | physical error => error.message
  | source error => error.message

end QueryPath
