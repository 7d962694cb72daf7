import SearchQuery.Query.Compilation
import SearchQuery.Query.Mutation
import SearchQuery.Request.Defaults
import SearchQuery.Rescore
import SearchQuery.SortKey

/-!
# Search requests

A request gathers the root query, the window of results, sort keys and rescorers, extra fields of
the body, and the parameters of the address. Compiling it gives the body as a document and the
address parameters as they are. A request is built step by step; the one step that can be refused is
an edit through a handle.
-/

namespace SearchQuery

structure SearchRequest where
  query : Option Query := none
  /-- How many hits are skipped. -/
  offset : Option UInt64 := none
  size : Option UInt64 := none
  /-- A boolean or the number up to which hits are counted. -/
  trackTotalHits : Option Value := none
  sort : List SortKey := []
  rescore : List Rescore := []
  /-- Extra fields of the body. -/
  body : Parameters := OrderedMap.empty
  /-- The parameters of the address. -/
  params : Parameters := OrderedMap.empty

/-- What a request is sent as. -/
structure Compiled where
  body : JsonObject
  params : Parameters

instance : BEq Compiled :=
  ⟨fun a b => Json.object a.body == Json.object b.body && a.params == b.params⟩

namespace SearchRequest

/-! ## 1. Steps -/

/-- A step in building a request. -/
inductive Step where
  | query (query : Query)
  | offset (n : UInt64)
  | size (n : UInt64)
  /-- The null value takes the setting back. -/
  | trackTotalHits (value : Value)
  | sort (key : SortKey)
  | rescore (rescore : Rescore)
  | bodyParam (key : String) (value : Value)
  | param (key : String) (value : Value)
  | routing (value : String)
  | searchType (type : SearchType)
  | preference (value : String)
  | timeout (value : String)
  | withDefaults (defaults : SearchDefaults)
  | mutate {kind : NodeKind} (handle : Handle kind) (edits : List (Edit Query kind))

/-- Sets an address parameter; the null value removes it. -/
def setParam (r : SearchRequest) (key : String) (value : Value) : SearchRequest :=
  { r with params := Parameters.assign r.params key value }

/-- Sets an address parameter that is not there yet. -/
def fillParam (r : SearchRequest) (key : String) (value : Value) : SearchRequest :=
  if r.params.contains key then r else r.setParam key value

/-- Takes over the defaults where the request sets nothing itself. -/
def withDefaults (r : SearchRequest) (d : SearchDefaults) : SearchRequest :=
  let filled := { r with
    size := r.size <|> d.size
    trackTotalHits := r.trackTotalHits <|> d.trackTotalHits.map toValue }
  ((filled.fillParam "search_type" (toValue d.searchType)).fillParam "timeout"
    (toValue d.timeout)).fillParam "preference" (toValue d.preference)

/-- The trees in which handles are looked up: the root query, then the rescorers' queries. -/
def trees (r : SearchRequest) : List Query := r.query.toList ++ r.rescore.map Rescore.query

/-- The request with its trees replaced, in the order of `trees`. -/
def withTrees (r : SearchRequest) (ts : List Query) : SearchRequest :=
  let (query, rest) := match r.query with
    | some _ => (ts.head?, ts.tail)
    | none => (none, ts)
  { r with query, rescore := r.rescore.zipWith (fun entry query => { entry with query }) rest }

/-- Changes the node that a handle is bound to, in any of the trees. -/
def edit {kind : NodeKind} {τ : Type} (handle : Handle kind)
    (change : Node Query kind → τ → Node Query kind × τ) : Steps (SearchRequest × τ) Unit :=
  (Query.editIn handle change).onFirst trees withTrees

/-- Changes the node that a handle is bound to, and nothing else, in any of the trees. -/
def mutateSteps {kind : NodeKind} (handle : Handle kind)
    (change : Node Query kind → Node Query kind) : Steps SearchRequest Unit :=
  (edit handle (Query.onlyNode change)).alone

/-- The request after a change. -/
def mutate {kind : NodeKind} (r : SearchRequest) (handle : Handle kind)
    (change : Node Query kind → Node Query kind) : Except QueryError SearchRequest :=
  (mutateSteps handle change).result r

/-- Takes a step. -/
def take : Step → Steps SearchRequest Unit
  | .query query => modify fun r => { r with query := some query }
  | .offset n => modify fun r => { r with offset := some n }
  | .size n => modify fun r => { r with size := some n }
  | .trackTotalHits value =>
    modify fun r => { r with trackTotalHits := if value.isNull then none else some value }
  | .sort key => modify fun r => { r with sort := r.sort ++ [key] }
  | .rescore rescore => modify fun r => { r with rescore := r.rescore ++ [rescore] }
  | .bodyParam key value => modify fun r => { r with body := Parameters.assign r.body key value }
  | .param key value => modify fun r => r.setParam key value
  | .routing value => modify fun r => r.setParam "routing" (toValue value)
  | .searchType type => modify fun r => r.setParam "search_type" (toValue type)
  | .preference value => modify fun r => r.setParam "preference" (toValue value)
  | .timeout value => modify fun r => r.setParam "timeout" (toValue value)
  | .withDefaults d => modify fun r => r.withDefaults d
  | .mutate handle edits => mutateSteps handle (Edit.applyAll edits)

/-- The request after a step. -/
def apply (r : SearchRequest) (step : Step) : Except QueryError SearchRequest :=
  (take step).result r

/-! ## 2. Compiling -/

/-- The root query after reduction. -/
def reducedQuery (r : SearchRequest) : Option Query := r.query.bind Query.reduce

/-- The rescorers whose queries do not come to nothing, reduced. -/
def reducedRescore (r : SearchRequest) : List Rescore := r.rescore.filterMap Rescore.reduce

/-- What a request writes into its body, in order: query, window, sort, rescorers, and then the
extra fields. Parts that are not set are left out. A query nested too deeply refuses the whole
request, the root query first. -/
def members (r : SearchRequest) : Except QueryError (List Member) := do
  r.reducedQuery.toList.forM Query.checkDepth
  r.reducedRescore.forM fun entry => entry.query.checkDepth
  return optionalMember r.reducedQuery (fun q => .object "query" q.members) ++
    optionalMember r.offset (fun n => (toValue n).member "from") ++
    optionalMember r.size (fun n => (toValue n).member "size") ++
    optionalMember r.trackTotalHits (Value.member "track_total_hits") ++
    (if r.sort.isEmpty then [] else [.array "sort" (r.sort.map SortKey.item)]) ++
    nonemptyArray "rescore" (r.reducedRescore.map Rescore.members) ++
    Parameters.members r.body

/-- Writes the body into a sink, or nothing if the request is refused. -/
def writeBody {σ : Type} [ObjectSink σ] (out : σ) (r : SearchRequest) : Except QueryError σ :=
  r.members.map (writeAll out)

/-- The body as a document, with the address parameters. -/
def compile (r : SearchRequest) : Except QueryError Compiled :=
  (r.writeBody (OrderedMap.empty : JsonObject)).map fun body => ⟨body, r.params⟩

end SearchRequest

namespace Compiled

/-- Numbers in an address are never written with an exponent, and a whole number has no fractional
part; an exact tie goes up. -/
def numberStyle : NumberStyle := ⟨none, false, .up⟩

/-- The text of a value in an address; arrays, objects and null have none. -/
def paramText? : Value → Option String
  | .boolean b => some (if b then "true" else "false")
  | .integer n => some (toString n.toInt)
  | .float x => some (numberStyle.text x)
  | .string s => some s
  | .field f => some f.name
  | .null | .array _ | .object _ => none

/-- The address parameters as texts, in order. -/
def paramPairs (c : Compiled) : List (String × String) :=
  c.params.entries.filterMap fun e => (paramText? e.2).map fun text => (e.1, text)

end Compiled

end SearchQuery
