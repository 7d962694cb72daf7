import SearchQuery.Proofs.Closing
import SearchQuery.Proofs.Compilation
import SearchQuery.Proofs.Edit
import SearchQuery.Proofs.Fold
import SearchQuery.Proofs.Form
import SearchQuery.Proofs.Layout
import SearchQuery.Proofs.Lookup
import SearchQuery.Proofs.Mutation
import SearchQuery.Proofs.Mutation.Everywhere
import SearchQuery.Proofs.Mutation.Runs
import SearchQuery.Proofs.OrderedMap
import SearchQuery.Proofs.Position
import SearchQuery.Proofs.Reduction
import SearchQuery.Proofs.Reduction.Content
import SearchQuery.Proofs.Reduction.Normal
import SearchQuery.Proofs.Reordering
import SearchQuery.Proofs.Sinks
import SearchQuery.Proofs.Slot
import SearchQuery.Proofs.Walk
import SearchQuery.Proofs.Writing
import SearchQuery.Request
import SearchQuery.Proofs.Reduction.Confluence
import SearchQuery.Proofs.Equality.Levels
import SearchQuery.Proofs.Equality
import SearchQuery.Proofs.Independence
import SearchQuery.Proofs.Keys
import SearchQuery.Proofs.Keys.Typed
import SearchQuery.Proofs.Keys.Queries
import SearchQuery.Proofs.Reduction.Rules
import SearchQuery.Proofs.Reduction.Size
import SearchQuery.Proofs.Nesting
import SearchQuery.Proofs.Outline
import SearchQuery.Proofs.Reduction.Substitution
import SearchQuery.Proofs.Reduction.Handles
import SearchQuery.Proofs.Copying
import SearchQuery.Proofs.Enumeration
import SearchQuery.Proofs.Parameters
import SearchQuery.Proofs.Parameters.History
import SearchQuery.Proofs.Parameters.Merging
import SearchQuery.Proofs.Parameters.Spelling
import SearchQuery.Proofs.Defaults
import SearchQuery.Proofs.Position.Replacement
import SearchQuery.Proofs.Fold.Recursion
import SearchQuery.Proofs.Renaming
