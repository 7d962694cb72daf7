/-!
# Why a request to the library is refused

There is no input and output here and nothing to parse: a refusal is a combination of arguments
that makes no sense, a handle that does not lead to exactly one node, or a query nested too deeply
to be written.
-/

namespace SearchQuery

/-- The causes of a refusal. -/
inductive QueryError where
  /-- A constructor was given an impossible combination of arguments. -/
  | invalidArgument (message : String)
  /-- No node is bound to the handle. -/
  | handleNotFound (handle : String)
  /-- Several nodes are bound to the handle. -/
  | duplicateHandle (handle : String) (count : Nat)
  /-- The reduced query nests deeper than is ever written. -/
  | depthLimitExceeded (depth limit : Nat)
  deriving DecidableEq, Repr

namespace QueryError

/-- The wording of a refusal. -/
def message : QueryError → String
  | invalidArgument message => s!"Invalid argument: {message}"
  | handleNotFound handle => s!"Handle not found: {handle}"
  | duplicateHandle handle count => s!"Handle {handle} is bound to {count} nodes"
  | depthLimitExceeded depth limit =>
    s!"Query nesting depth {depth} exceeds the limit of {limit}"

end QueryError

end SearchQuery
