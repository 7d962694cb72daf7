import SearchQuery.Query.Fold

/-!
# Reduction

Reducing a query drops what contributes nothing and removes wrappers around a single query. The
sub-queries are reduced first; a compound query is then pruned of those that came to nothing, and
`settle` decides what becomes of what is left: nothing, one of its sub-queries, or itself. A node is
reduced as the query it stands for. A nested query stays as it is, with everything below it, since
its inner query is asked of other documents.
-/

namespace SearchQuery

namespace Query

/-- What becomes of a compound query without useless sub-queries.

* A bool query without clauses disappears, and one with a single clause that is a `should` or a
  `must` is that clause. A single `filter` does not score and a single `mustNot` negates, so these
  stay.
* A dis_max query disappears without queries, and is its query if it has one.
* A function_score query without functions and without a least score is its inner query. -/
def settle (body : Compound Query) (options : Parameters) : Option Query :=
  match body with
  | .bool b =>
    match b.filter, b.should, b.must, b.mustNot with
    | [], [], [], [] => none
    | [], [q], [], [] => some q
    | [], [], [q], [] => some q
    | _, _, _, _ => some (compound body options)
  | .disMax b =>
    match b.queries with
    | [] => none
    | [q] => some q
    | _ => some (compound body options)
  | .functionScore b =>
    if b.functions.isEmpty && b.minScore.isNone then b.query
    else some (compound body options)

/-- What becomes of a form whose sub-queries have been reduced. -/
def settleForm : Form (Option Query) → Option Query
  | .leaf test options => some (leaf test options)
  | .nested path query options => query.map fun q => nested path q options
  | .compound body options => settle body.prune options
  | .node n => settle n.body.prune n.options

/-- What becomes of a query, given the reductions of its sub-queries. -/
def reduceStep (q : Query) (reduced : List (Option Query)) : Option Query :=
  match q.form with
  | .nested .. => some q
  | f => settleForm (f.refill reduced)

/-- The query without what contributes nothing; `none` if nothing is left. -/
def reduce (q : Query) : Option Query :=
  (fold (fun q => !q.form.isNested) reduceStep q).join

end Query

end SearchQuery
