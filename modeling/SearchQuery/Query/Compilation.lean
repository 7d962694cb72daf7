import SearchQuery.Error
import SearchQuery.Json
import SearchQuery.Query.Reduction
import SearchQuery.Query.Writing

/-!
# Compiling a query

To compile is to reduce and then to write. Only queries up to a fixed depth are written; the depth
that counts is the one after reduction, and it is checked before anything is written.
-/

namespace SearchQuery

namespace Query

/-- The depth of the deepest query that is written. -/
def maxDepth : Nat := 128

/-- Refuses a query nested deeper than is ever written. -/
def checkDepth (q : Query) : Except QueryError Unit :=
  let depth := q.depth
  if maxDepth < depth then .error (.depthLimitExceeded depth maxDepth) else .ok ()

/-- Reduces a query and writes what is left into a sink. Answers whether anything was written, with
the sink after it. -/
def compileInto {σ : Type} [ObjectSink σ] (out : σ) (q : Query) :
    Except QueryError (Bool × σ) :=
  match q.reduce with
  | none => .ok (false, out)
  | some r => do
    r.checkDepth
    return (true, writeAll out r.members)

/-- The document of a query as it is, neither reduced nor checked. -/
def toJson (q : Query) : JsonObject := JsonObject.ofMembers q.members

/-- The container of a query as it is, neither reduced nor checked. -/
def toParameters (q : Query) : Parameters := Parameters.ofMembers q.members

/-- The document of a query after reduction; `none` if the query contributes nothing. -/
def compile (q : Query) : Except QueryError (Option JsonObject) :=
  match q.reduce with
  | none => .ok none
  | some r => do
    r.checkDepth
    return some r.toJson

end Query

end SearchQuery
