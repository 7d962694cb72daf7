import SearchQuery.Query

/-!
# Writing a query

A query is written as one object under its name. What a form writes is settled here once its
sub-queries are written: each clause list is an array of objects, left out when it is empty, and the
options follow the parts. A node writes what the query it stands for would write.
-/

namespace SearchQuery

/-- An array of objects, left out when there are none. -/
def nonemptyArray (key : String) (objects : List (List Member)) : List Member :=
  if objects.isEmpty then [] else [.array key (objects.map Item.object)]

/-- A member for something that may be absent. -/
def optionalMember {α : Type} (o : Option α) (f : α → Member) : List Member :=
  match o with
  | some a => [f a]
  | none => []

namespace FieldValueFactor

def members (f : FieldValueFactor) : List Member :=
  .string "field" f.field.name :: Parameters.members f.options

end FieldValueFactor

namespace ScoreFunction

/-- A function writes its filter, what it computes, and its weight. -/
def members (s : ScoreFunction (List Member)) : List Member :=
  optionalMember s.filter (.object "filter") ++
  (match s.kind with
    | .weight => []
    | .fieldValueFactor factor => [.object "field_value_factor" factor.members]
    | .scriptScore script => [.object "script_score" [.object "script" script.members]]) ++
  optionalMember s.weight (.float "weight")

end ScoreFunction

namespace Compound

/-- What the parts of a compound query write, without its options. -/
def members : Compound (List Member) → List Member
  | bool b =>
    (WireName.all : List Occur).flatMap
      (fun occur => nonemptyArray (WireName.wire occur) (b.clauses occur)) ++
    optionalMember b.minimumShouldMatch (Value.member "minimum_should_match")
  | disMax b =>
    nonemptyArray "queries" b.queries ++ optionalMember b.tieBreaker (.float "tie_breaker")
  | functionScore b =>
    optionalMember b.query (.object "query") ++
    nonemptyArray "functions" (b.functions.map ScoreFunction.members) ++
    optionalMember b.scoreMode (fun mode => .string "score_mode" (WireName.wire mode)) ++
    optionalMember b.boostMode (fun mode => .string "boost_mode" (WireName.wire mode)) ++
    optionalMember b.minScore (.float "min_score")

end Compound

namespace Form

/-- What a form writes inside the object of its name. -/
def body : Form (List Member) → List Member
  | leaf test options => test.members options
  | nested path query options =>
    .string "path" path.name :: .object "query" query :: Parameters.members options
  | compound c options => c.members ++ Parameters.members options
  | node n => n.body.members ++ Parameters.members n.options

/-- What a form writes: one object under its name. -/
def members (f : Form (List Member)) : List Member := [.object f.name f.body]

end Form

namespace Query

/-- What a query writes into an open object: exactly one member. -/
def members (q : Query) : List Member := q.cata Form.members

end Query

end SearchQuery
