import SearchQuery.Proofs.Reduction

/-!
# The table of rules

`Query.reduce` runs over a stack of frames, collects the results of all sub-queries of a level in one
flat list and cuts that list up again by how many sub-queries stood in each place. `Query.byRules`
is the table of rules by structural recursion instead: every list of clauses is reduced by itself,
every function keeps the filter that is reduced for it, and nothing is ever laid side by side.

The two agree on every query (`reduce_is_byRules`), so that no mix of dropped clauses, absent inner
queries and functions without a filter moves a sub-query to another place.
-/

namespace SearchQuery

/-! ## 1. The rules -/

namespace Compound

/-- What becomes of a compound query, given what is left of its sub-queries.

* Without clauses a bool query is nothing, and a single clause that is a `should` or a `must` takes
  its place.
* A dis_max query without queries is nothing, and a single query takes its place.
* A function_score query without functions and without a least score is its inner query. -/
def rule (options : Parameters) : Compound Query → Option Query
  | bool b =>
    match b.children with
    | [] => none
    | [clause] =>
      if b.filter.isEmpty && b.mustNot.isEmpty then some clause else some (.bool b options)
    | _ => some (.bool b options)
  | disMax b =>
    match b.queries with
    | [] => none
    | [query] => some query
    | _ => some (.disMax b options)
  | functionScore b =>
    if b.functions.isEmpty && b.minScore.isNone then b.query
    else some (.functionScore b options)

/-- A single clause that is neither a `filter` nor a `must_not` is a `should` or a `must`. -/
theorem stands_bool_singleton_iff {b : BoolBody Query} {clause : Query}
    (h : b.children = [clause]) :
    (bool b).Stands ↔ ¬ (b.filter.isEmpty && b.mustNot.isEmpty) = true := by
  have hone : b.children.length = 1 := by rw [h, List.length_singleton]
  have hsum : b.children.length
      = b.filter.length + b.should.length + b.must.length + b.mustNot.length := by
    simp only [BoolBody.children, List.length_append]
  rw [Bool.and_eq_true, List.isEmpty_iff_length_eq_zero, List.isEmpty_iff_length_eq_zero, Stands,
    BoolBody.Stands]
  omega

/-- The rules settle a body as reduction does. -/
theorem rule_eq_settle (options : Parameters) (c : Compound Query) :
    c.rule options = Query.settle c options := by
  rw [Query.settle_eq]
  cases c with
  | bool b =>
      simp only [rule]
      rcases h : b.children with _ | ⟨clause, _ | ⟨second, rest⟩⟩
      · have hstands : ¬ (bool b).Stands := by
          intro hs
          exact hs.1 (by rw [h, List.length_nil])
        rw [if_neg hstands, children, h]
        rfl
      · have hstands := stands_bool_singleton_iff h
        by_cases hplain : (b.filter.isEmpty && b.mustNot.isEmpty) = true
        · rw [if_neg (fun hs => hstands.mp hs hplain), children, h]
          simp only [hplain, if_true, List.head?_cons]
        · rw [if_pos (hstands.mpr hplain)]
          simp only [hplain, if_false, Bool.false_eq_true]
          rfl
      · -- Two clauses never make way for one, wherever they stand.
        have hstands : (bool b).Stands := by
          rw [Stands, BoolBody.Stands, h, List.length_cons, List.length_cons]
          omega
        rw [if_pos hstands]
        rfl
  | disMax b =>
      obtain ⟨queries, tieBreaker⟩ := b
      rcases queries with _ | ⟨query, _ | ⟨second, rest⟩⟩
      · rfl
      · rfl
      · rw [if_pos (by simp only [Stands, List.length_cons]; omega)]
        rfl
  | functionScore b => exact (Query.settle_eq (functionScore b) options)

end Compound

/-! ## 2. The recursion -/

namespace Query

mutual

/-- Reduction by the table of rules. A leaf and a nested query are left as they are, a compound
query follows the rule of its kind once its sub-queries are reduced, and a node follows the rule of
the query that it stands for. -/
def byRules : Query → Option Query
  | of (.leaf test options) => some (leaf test options)
  | of (.nested path query options) => some (nested path query options)
  | of (.compound (.bool b) options) => (Compound.bool (boolByRules b)).rule options
  | of (.compound (.disMax b) options) => (Compound.disMax (disMaxByRules b)).rule options
  | of (.compound (.functionScore b) options) =>
    (Compound.functionScore (functionScoreByRules b)).rule options
  | of (.node (.bool handle n)) =>
    (Compound.bool (boolByRules n.body)).rule (BoundNode.bool handle n).options
  | of (.node (.disMax handle n)) =>
    (Compound.disMax (disMaxByRules n.body)).rule (BoundNode.disMax handle n).options
  | of (.node (.functionScore handle n)) =>
    (Compound.functionScore (functionScoreByRules n.body)).rule
      (BoundNode.functionScore handle n).options

/-- Each of the four lists of clauses is reduced by itself. -/
def boolByRules : BoolBody Query → BoolBody Query
  | ⟨filter, should, must, mustNot, minimumShouldMatch⟩ =>
    ⟨allByRules filter, allByRules should, allByRules must, allByRules mustNot,
      minimumShouldMatch⟩

def disMaxByRules : DisMaxBody Query → DisMaxBody Query
  | ⟨queries, tieBreaker⟩ => ⟨allByRules queries, tieBreaker⟩

def functionScoreByRules : FunctionScoreBody Query → FunctionScoreBody Query
  | ⟨query, functions, scoreMode, boostMode, minScore⟩ =>
    ⟨anyByRules query, functionsByRules functions, scoreMode, boostMode, minScore⟩

/-- Each function keeps its kind, its weight and what is left of its own filter. -/
def functionsByRules : List (ScoreFunction Query) → List (ScoreFunction Query)
  | [] => []
  | ⟨filter, weight, kind⟩ :: rest => ⟨anyByRules filter, weight, kind⟩ :: functionsByRules rest

/-- What is left of the queries of a list, in their order. -/
def allByRules : List Query → List Query
  | [] => []
  | q :: rest => (byRules q).toList ++ allByRules rest

/-- What is left of a query that may be absent. -/
def anyByRules : Option Query → Option Query
  | none => none
  | some q => byRules q

end

theorem allByRules_eq (qs : List Query) : allByRules qs = (qs.map byRules).filterMap id := by
  induction qs with
  | nil => rfl
  | cons q qs ih =>
      rw [allByRules, List.map_cons, ih, List.filterMap_cons, id_eq]
      cases q.byRules with
      | none => rfl
      | some r => rfl

theorem anyByRules_eq (o : Option Query) : anyByRules o = (o.map byRules).join := by
  cases o with
  | none => rfl
  | some q => rfl

theorem functionsByRules_eq (fs : List (ScoreFunction Query)) :
    functionsByRules fs = (fs.map (ScoreFunction.map byRules)).map ScoreFunction.prune := by
  induction fs with
  | nil => rfl
  | cons f fs ih =>
      obtain ⟨filter, weight, kind⟩ := f
      rw [functionsByRules, ih, anyByRules_eq]
      rfl

/-- Reducing the parts of a body one by one is reducing all of them and pruning the body. -/
theorem byRules_compound (body : Compound Query) (options : Parameters) :
    (compound body options).byRules = (body.map byRules).prune.rule options := by
  cases body with
  | bool b =>
      show (Compound.bool (boolByRules b)).rule options = _
      rw [boolByRules]
      simp only [allByRules_eq]
      rfl
  | disMax b =>
      show (Compound.disMax (disMaxByRules b)).rule options = _
      rw [disMaxByRules, allByRules_eq]
      rfl
  | functionScore b =>
      show (Compound.functionScore (functionScoreByRules b)).rule options = _
      rw [functionScoreByRules, anyByRules_eq, functionsByRules_eq]
      rfl

/-- A node is treated as the query that it stands for. -/
theorem byRules_node (n : BoundNode Query) :
    (of (.node n)).byRules = (compound n.body n.options).byRules := by
  cases n with
  | bool handle node => rfl
  | disMax handle node => rfl
  | functionScore handle node => rfl

/-! ## 3. The stack computes the table -/

theorem reduce_eq_byRules (q : Query) : q.reduce = q.byRules := by
  refine reduce_induction (motive := fun q result => result = q.byRules) ?_ ?_ ?_ ?_ q
  · intro test options
    rfl
  · intro path query options
    rfl
  · intro body options ih
    rw [Compound.map_congr ih, byRules_compound, Compound.rule_eq_settle]
  · intro n result ih
    rw [byRules_node, ih]

/-- **Reduction follows the rules.** The fold over the stack always ends with a result, and on every
query this result is what the rules make of the query by structural recursion. A node comes to what
the query that it stands for comes to. -/
theorem reduce_is_byRules (q : Query) :
    fold (fun q => !q.form.isNested) reduceStep q = some q.byRules ∧
    q.reduce = q.byRules ∧
    q.byRules = q.close.byRules := by
  have hreduce := reduce_eq_byRules q
  refine ⟨?_, hreduce, ?_⟩
  · rw [reduce, fold_eq, Option.join_some] at hreduce
    rw [fold_eq, hreduce]
  · obtain ⟨form⟩ := q
    cases form with
    | leaf test options => rfl
    | nested path query options => rfl
    | compound body options => rfl
    | node n => exact byRules_node n

/-- A filter that makes way for its only clause stays with the second function: the first function
has no filter to take it from. -/
example (w x : Double) (test : LeafTest) :
    (functionScore { functions := [.ofWeight w,
      { filter := some (bool { must := [leaf test] }), weight := some x, kind := .weight }] }).byRules
    = some (functionScore { functions := [.ofWeight w,
      { filter := some (leaf test), weight := some x, kind := .weight }] }) := rfl

end Query

end SearchQuery
