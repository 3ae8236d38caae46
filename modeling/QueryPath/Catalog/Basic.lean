import QueryPath.Catalog.Layout
import QueryPath.Catalog.Types
import QueryPath.Definition.Form
import QueryPath.Physical.Part

/-!
# Catalogs

A catalog is a model ready for use: its domain model, the sources of paths over it, and its
metamodel, all made from one definition.
-/

namespace QueryPath

open Document

structure Catalog where
  name : String
  logical : Logical.Model
  registry : Logical.Registry
  metamodel : Physical.Metamodel
deriving DecidableEq, Repr

namespace Catalog

/-- The catalog of a definition that was checked. -/
def ofChecked (d : Definition Definition.Attribute) : Except CatalogError Catalog := do
  let logical ← d.logicalModel
  let registry ← logical.registry.mapError .source
  let metamodel ← d.metamodel
  return { name := d.name.getD "default", logical, registry, metamodel }

/-- The catalog of a definition. -/
def ofDefinition (d : Definition Definition.RawAttribute) : Except CatalogError Catalog := do
  ofChecked (← d.check.mapError .invalid)

/-- The catalog of the definition that a text holds. -/
def ofText (format : Format) (text : String) : Except CatalogError Catalog := do
  ofDefinition (← (format.read Definition.form text).mapError .malformed)

/-- The catalog of the definition in a file. -/
def ofFile (path : String) (content : Except FileError String) : Except CatalogError Catalog := do
  ofText (.ofPath path) (← content.mapError .unreadable)

end Catalog

end QueryPath
