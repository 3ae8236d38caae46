import QueryPath.Catalog.Basic
import QueryPath.CommandLine.Task
import QueryPath.Main
import QueryPath.Query.Expression
import QueryPath.Proofs.Definition.Outline
import QueryPath.Proofs.Outcome
import QueryPath.Proofs.Catalog.Acceptance
import QueryPath.Proofs.Catalog.Agreement
import QueryPath.Proofs.Catalog.Names
import QueryPath.Proofs.Expr.Text
import QueryPath.Proofs.Query.Binding
import QueryPath.Proofs.Query.Depth
import QueryPath.Proofs.Query.Identity
import QueryPath.Proofs.Query.TableGroups
import QueryPath.Proofs.Query.Typing
import QueryPath.Proofs.Logical.Run
import QueryPath.Proofs.Logical.Completion
import QueryPath.Proofs.Logical.Interning
import QueryPath.Proofs.Catalog.Hierarchy
import QueryPath.Proofs.Query.Treat
import QueryPath.Proofs.Catalog.Graph
import QueryPath.Proofs.Logical.Tabled
import QueryPath.Proofs.Query.Variables
import QueryPath.Proofs.Query.Bound
import QueryPath.Proofs.Query.Anchor
import QueryPath.Proofs.Query.Isolation
import QueryPath.Proofs.Catalog.Narrowing
import QueryPath.Proofs.Catalog.Nesting
import QueryPath.Proofs.Catalog.Collections
import QueryPath.Proofs.Expr.Failure
import QueryPath.Proofs.Expr.Surroundings
import QueryPath.Proofs.Query.TreatLookup
import QueryPath.Proofs.Catalog.CollectionParts
import QueryPath.Proofs.Query.Stems
import QueryPath.Proofs.Query.NarrowedJoins
import QueryPath.Proofs.Physical.Links
import QueryPath.Proofs.Definition.Guards
import QueryPath.Proofs.Query.Abbreviation
