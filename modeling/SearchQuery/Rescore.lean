import SearchQuery.Query.Equality
import SearchQuery.Query.Reduction
import SearchQuery.Query.Writing

/-!
# Rescorers

A rescorer scores the best hits of each shard again, by a query of its own.
-/

namespace SearchQuery

structure Rescore where
  /-- How many hits of each shard are scored again. -/
  windowSize : Option UInt32 := none
  query : Query
  options : Parameters := OrderedMap.empty
  deriving BEq

namespace Rescore

/-- The rescorer with its query reduced; a rescorer whose query comes to nothing is dropped. -/
def reduce (r : Rescore) : Option Rescore := r.query.reduce.map fun query => { r with query }

/-- What a rescorer writes into its object. -/
def members (r : Rescore) : List Member :=
  optionalMember r.windowSize (fun n => (toValue n).member "window_size") ++
    [.object "query" (.object "rescore_query" r.query.members :: Parameters.members r.options)]

end Rescore

end SearchQuery
