import SearchQuery.Script
import SearchQuery.TypedOption

/-!
# Compound queries, with a hole for their parts

A bool, dis_max or function_score query is described over a type `α` of sub-queries. Over queries
it is a part of a query; over the results of a traversal it holds, in the place of each sub-query,
what the traversal made of it. Three operations connect the two readings: `children` lists the
sub-queries from left to right, `map` replaces each by something else, and `refill` deals a list
out to the places of the sub-queries, in the order of `children`.

The options of a compound query stand beside its body and not in it, because the same body also
stands in a node, which has no container of options.
-/

namespace SearchQuery

/-! ## 1. Score functions -/

/-- The settings of a score computed from a field. -/
structure FieldValueFactor where
  field : Field
  options : Parameters := OrderedMap.empty
  deriving BEq

/-- What a score function computes. -/
inductive FunctionKind where
  /-- Nothing but its weight. -/
  | weight
  | fieldValueFactor (factor : FieldValueFactor)
  | scriptScore (script : Script)
  deriving BEq

/-- A score function: it counts for the documents that pass its filter. -/
structure ScoreFunction (α : Type) where
  filter : Option α := none
  weight : Option Double := none
  kind : FunctionKind

namespace ScoreFunction

variable {α β : Type}

def ofWeight (w : Double) : ScoreFunction α := { weight := some w, kind := .weight }

def ofFactor (f : FieldValueFactor) : ScoreFunction α := { kind := .fieldValueFactor f }

def ofScript (s : Script) : ScoreFunction α := { kind := .scriptScore s }

/-- The function with its filter changed. -/
def map (f : α → β) (s : ScoreFunction α) : ScoreFunction β :=
  { filter := s.filter.map f, weight := s.weight, kind := s.kind }

/-- A filter that came to nothing leaves its function unfiltered. -/
def prune (s : ScoreFunction (Option α)) : ScoreFunction α :=
  { filter := s.filter.join, weight := s.weight, kind := s.kind }

/-- Deals filters out to the functions that have one; a function gets none when the list has run
out. -/
def refill : List (ScoreFunction α) → List β → List (ScoreFunction β)
  | [], _ => []
  | s :: rest, cs =>
    match s.filter with
    | none => { filter := none, weight := s.weight, kind := s.kind } :: refill rest cs
    | some _ =>
      { filter := cs.head?, weight := s.weight, kind := s.kind } :: refill rest cs.tail

/-- Each filter returns to the function it came from. -/
theorem refill_filters_map (g : α → β) (l : List (ScoreFunction α)) :
    refill l ((l.filterMap filter).map g) = l.map (map g) := by
  induction l with
  | nil => rfl
  | cons s l ih =>
    rcases s with ⟨filter, weight, kind⟩
    cases filter <;> simpa [refill, map] using ih

theorem filters_map (g : α → β) (l : List (ScoreFunction α)) :
    (l.map (map g)).filterMap filter = (l.filterMap filter).map g := by
  induction l with
  | nil => rfl
  | cons s l ih =>
    rcases s with ⟨filter, weight, kind⟩
    cases filter <;> simpa [map] using ih

/-- Replaces the `i`-th of the filters. -/
def setFilter (x : α) : List (ScoreFunction α) → Nat → List (ScoreFunction α)
  | [], _ => []
  | s :: rest, i =>
    match s.filter, i with
    | none, i => s :: setFilter x rest i
    | some _, 0 => { s with filter := some x } :: rest
    | some _, i + 1 => s :: setFilter x rest i

end ScoreFunction

/-! ## 2. Bodies -/

/-- Where a clause of a bool query stands. -/
inductive Occur where
  | filter
  | should
  | must
  | mustNot
  deriving DecidableEq, Repr

instance : WireName Occur where
  all := [.filter, .should, .must, .mustNot]
  wire
    | .filter => "filter"
    | .should => "should"
    | .must => "must"
    | .mustNot => "must_not"

/-- A boolean combination of clauses. -/
structure BoolBody (α : Type) where
  filter : List α := []
  should : List α := []
  must : List α := []
  mustNot : List α := []
  /-- A count or a percentage. -/
  minimumShouldMatch : Option Value := none

namespace BoolBody

variable {α β : Type}

def children (b : BoolBody α) : List α := b.filter ++ b.should ++ b.must ++ b.mustNot

def isEmpty (b : BoolBody α) : Bool :=
  b.filter.isEmpty && b.should.isEmpty && b.must.isEmpty && b.mustNot.isEmpty

/-- The clauses that stand in a place. -/
def clauses (b : BoolBody α) : Occur → List α
  | .filter => b.filter
  | .should => b.should
  | .must => b.must
  | .mustNot => b.mustNot

/-- Changes the clauses that stand in a place. -/
def modifyClauses (b : BoolBody α) (f : List α → List α) : Occur → BoolBody α
  | .filter => { b with filter := f b.filter }
  | .should => { b with should := f b.should }
  | .must => { b with must := f b.must }
  | .mustNot => { b with mustNot := f b.mustNot }

/-- Appends a clause. -/
def add (b : BoolBody α) (occur : Occur) (clause : α) : BoolBody α :=
  b.modifyClauses (· ++ [clause]) occur

/-- Sets how many of the `should` clauses have to match; the null value sets nothing. -/
def withMinimumShouldMatch (b : BoolBody α) (value : Value) : BoolBody α :=
  { b with minimumShouldMatch := if value.isNull then none else some value }

def map (f : α → β) (b : BoolBody α) : BoolBody β :=
  { filter := b.filter.map f
    should := b.should.map f
    must := b.must.map f
    mustNot := b.mustNot.map f
    minimumShouldMatch := b.minimumShouldMatch }

/-- Drops the clauses that came to nothing. -/
def prune (b : BoolBody (Option α)) : BoolBody α :=
  { filter := b.filter.filterMap id
    should := b.should.filterMap id
    must := b.must.filterMap id
    mustNot := b.mustNot.filterMap id
    minimumShouldMatch := b.minimumShouldMatch }

/-- Deals a list out: each place gets as many as it has clauses. -/
def refill (b : BoolBody α) (cs : List β) : BoolBody β :=
  let afterFilter := cs.drop b.filter.length
  let afterShould := afterFilter.drop b.should.length
  let afterMust := afterShould.drop b.must.length
  { filter := cs.take b.filter.length
    should := afterFilter.take b.should.length
    must := afterShould.take b.must.length
    mustNot := afterMust.take b.mustNot.length
    minimumShouldMatch := b.minimumShouldMatch }

theorem children_map (g : α → β) (b : BoolBody α) : (b.map g).children = b.children.map g := by
  simp only [children, map, List.map_append]

/-- Each clause returns to its place. -/
theorem refill_children_map (g : α → β) (b : BoolBody α) :
    b.refill (b.children.map g) = b.map g := by
  have take_all (l : List α) : (l.map g).take l.length = l.map g := by
    rw [← List.length_map (f := g), List.take_length]
  simp only [refill, map, children, List.map_append, List.append_assoc]
  simp [take_all]

/-- Replaces the `i`-th clause, counted over all four places. -/
def setChild (b : BoolBody α) (i : Nat) (x : α) : BoolBody α :=
  let j := i - b.filter.length
  let k := j - b.should.length
  let l := k - b.must.length
  if i < b.filter.length then { b with filter := b.filter.set i x }
  else if j < b.should.length then { b with should := b.should.set j x }
  else if k < b.must.length then { b with must := b.must.set k x }
  else { b with mustNot := b.mustNot.set l x }

end BoolBody

/-- The best of several queries, and a share of the others. -/
structure DisMaxBody (α : Type) where
  queries : List α := []
  tieBreaker : Option Double := none

/-- A query whose scores are computed anew by functions. -/
structure FunctionScoreBody (α : Type) where
  query : Option α := none
  functions : List (ScoreFunction α) := []
  scoreMode : Option ScoreMode := none
  boostMode : Option BoostMode := none
  /-- Documents below this score are left out, which is why it keeps the query from being
  simplified away. -/
  minScore : Option Double := none

namespace FunctionScoreBody

variable {α β : Type}

/-- The inner query, then the filters of the functions. -/
def children (b : FunctionScoreBody α) : List α :=
  b.query.toList ++ b.functions.filterMap ScoreFunction.filter

def map (f : α → β) (b : FunctionScoreBody α) : FunctionScoreBody β :=
  { query := b.query.map f
    functions := b.functions.map (ScoreFunction.map f)
    scoreMode := b.scoreMode
    boostMode := b.boostMode
    minScore := b.minScore }

/-- Drops the inner query and the filters that came to nothing. -/
def prune (b : FunctionScoreBody (Option α)) : FunctionScoreBody α :=
  { query := b.query.join
    functions := b.functions.map ScoreFunction.prune
    scoreMode := b.scoreMode
    boostMode := b.boostMode
    minScore := b.minScore }

/-- Deals a list out: its head to the inner query if there is one, the rest to the filters. -/
def refill (b : FunctionScoreBody α) (cs : List β) : FunctionScoreBody β :=
  let (query, filters) := match b.query with
    | some _ => (cs.head?, cs.tail)
    | none => (none, cs)
  { query
    functions := ScoreFunction.refill b.functions filters
    scoreMode := b.scoreMode
    boostMode := b.boostMode
    minScore := b.minScore }

theorem children_map (g : α → β) (b : FunctionScoreBody α) :
    (b.map g).children = b.children.map g := by
  simp only [children, map, ScoreFunction.filters_map, List.map_append]
  cases b.query <;> rfl

theorem refill_children_map (g : α → β) (b : FunctionScoreBody α) :
    b.refill (b.children.map g) = b.map g := by
  rcases b with ⟨query, functions, scoreMode, boostMode, minScore⟩
  cases query <;> simp [refill, children, map, ScoreFunction.refill_filters_map]

/-- Replaces the inner query or one of the filters, counted from the left. -/
def setChild (b : FunctionScoreBody α) (i : Nat) (x : α) : FunctionScoreBody α :=
  match b.query, i with
  | some _, 0 => { b with query := some x }
  | some _, i + 1 => { b with functions := ScoreFunction.setFilter x b.functions i }
  | none, i => { b with functions := ScoreFunction.setFilter x b.functions i }

end FunctionScoreBody

/-! ## 3. The three compounds together -/

/-- A compound query without its options. -/
inductive Compound (α : Type) where
  | bool (body : BoolBody α)
  | disMax (body : DisMaxBody α)
  | functionScore (body : FunctionScoreBody α)

namespace Compound

variable {α β : Type}

def kind : Compound α → QueryKind
  | bool _ => .bool
  | disMax _ => .disMax
  | functionScore _ => .functionScore

def children : Compound α → List α
  | bool b => b.children
  | disMax b => b.queries
  | functionScore b => b.children

def map (f : α → β) : Compound α → Compound β
  | bool b => .bool (b.map f)
  | disMax b => .disMax { queries := b.queries.map f, tieBreaker := b.tieBreaker }
  | functionScore b => .functionScore (b.map f)

/-- Drops the sub-queries that came to nothing. -/
def prune : Compound (Option α) → Compound α
  | bool b => .bool b.prune
  | disMax b => .disMax { queries := b.queries.filterMap id, tieBreaker := b.tieBreaker }
  | functionScore b => .functionScore b.prune

/-- Deals a list out to the places of the sub-queries. -/
def refill (c : Compound α) (cs : List β) : Compound β :=
  match c with
  | bool b => .bool (b.refill cs)
  | disMax b => .disMax { queries := cs, tieBreaker := b.tieBreaker }
  | functionScore b => .functionScore (b.refill cs)

theorem children_map (g : α → β) (c : Compound α) : (c.map g).children = c.children.map g := by
  cases c with
  | bool b => exact b.children_map g
  | disMax b => rfl
  | functionScore b => exact b.children_map g

theorem refill_children_map (g : α → β) (c : Compound α) :
    c.refill (c.children.map g) = c.map g := by
  cases c with
  | bool b => exact congrArg bool (b.refill_children_map g)
  | disMax b => rfl
  | functionScore b => exact congrArg functionScore (b.refill_children_map g)

/-- Replaces the `i`-th sub-query; nothing changes when there is none. -/
def setChild (c : Compound α) (i : Nat) (x : α) : Compound α :=
  match c with
  | bool b => .bool (b.setChild i x)
  | disMax b => .disMax { b with queries := b.queries.set i x }
  | functionScore b => .functionScore (b.setChild i x)

end Compound

end SearchQuery
