import SearchQuery.Proofs.Form

/-!
# Edits and the sub-queries of a node

What one edit does to the sub-queries of a node, in two laws. `Edit.map_apply`: an edit does not
look at the sub-queries, so it may be made before or after a function that replaces them, as long as
that function leaves alone what the edit brings in. `Edit.children_apply_perm`: an edit that only
appends or assigns keeps every sub-query and adds what it brings in. Both are carried to several
edits made one after the other.
-/

namespace SearchQuery

variable {α β : Type} {kind : NodeKind}

/-! ## 1. Nodes -/

namespace Node

/-- The node with each sub-query replaced. -/
def map (f : α → β) : {kind : NodeKind} → Node α kind → Node β kind
  | .bool, n => { body := n.body.map f, boost := n.boost }
  | .disMax, n =>
    { body := { queries := n.body.queries.map f, tieBreaker := n.body.tieBreaker }
      boost := n.boost }
  | .functionScore, n => { body := n.body.map f, maxBoost := n.maxBoost, boost := n.boost }

/-- The sub-queries of a node, from left to right. -/
def children : {kind : NodeKind} → Node α kind → List α
  | .bool, n => n.body.children
  | .disMax, n => n.body.queries
  | .functionScore, n => n.body.children

end Node

namespace BoundNode

theorem map_bind (f : α → β) (h : Handle kind) (n : Node α kind) :
    (bind h n).map f = bind h (Node.map f n) := by
  cases kind with
  | bool => rfl
  | disMax => rfl
  | functionScore => rfl

theorem children_bind (h : Handle kind) (n : Node α kind) :
    (bind h n).body.children = Node.children n := by
  cases kind with
  | bool => rfl
  | disMax => rfl
  | functionScore => rfl

end BoundNode

/-! ## 2. One edit -/

namespace Edit

/-- The sub-queries that an edit brings in: a clause, a query, or the filter of a function. -/
def brought : Edit α kind → List α
  | addClause _ clause => [clause]
  | addQuery query => [query]
  | setQuery query => query.toList
  | addFunction function => function.filter.toList
  | setBoost _ | clearClauses _ | dropLastClause _ | setMinimumShouldMatch _ | clearQueries
  | dropLastQuery | setTieBreaker _ | clearFunctions | dropLastFunction | setScoreMode _
  | setBoostMode _ | setMinScore _ | setMaxBoost _ => []

/-- The edit appends a clause, a query or a function, or it assigns a setting. The other edits take
sub-queries out of the node. -/
def grows : Edit α kind → Bool
  | addClause _ _ | addQuery _ | addFunction _ | setBoost _ | setMinimumShouldMatch _
  | setTieBreaker _ | setScoreMode _ | setBoostMode _ | setMinScore _ | setMaxBoost _ => true
  | clearClauses _ | dropLastClause _ | clearQueries | dropLastQuery | setQuery _
  | clearFunctions | dropLastFunction => false

theorem map_modifyClauses {f : α → α} {g : List α → List α}
    (hg : ∀ l, (g l).map f = g (l.map f)) (b : BoolBody α) (occur : Occur) :
    (b.modifyClauses g occur).map f = (b.map f).modifyClauses g occur := by
  cases occur with
  | filter => simp only [BoolBody.modifyClauses, BoolBody.map, hg]
  | should => simp only [BoolBody.modifyClauses, BoolBody.map, hg]
  | must => simp only [BoolBody.modifyClauses, BoolBody.map, hg]
  | mustNot => simp only [BoolBody.modifyClauses, BoolBody.map, hg]

/-- An edit does not look at the sub-queries of the node. -/
theorem map_apply {f : α → α} {e : Edit α kind} (hfix : ∀ x ∈ e.brought, f x = x)
    (n : Node α kind) : Node.map f (e.apply n) = e.apply (Node.map f n) := by
  cases e with
  | setBoost boost =>
      cases kind with
      | bool => rfl
      | disMax => rfl
      | functionScore => rfl
  | addClause occur clause =>
      have hclause : f clause = clause := hfix clause List.mem_cons_self
      have happend (l : List α) : (l ++ [clause]).map f = l.map f ++ [clause] := by
        rw [List.map_append, List.map_singleton, hclause]
      simp only [apply, applyBool, Node.map, BoolBody.add, map_modifyClauses happend]
  | clearClauses occur =>
      have hclear (l : List α) : ([] : List α).map f = [] := List.map_nil
      simp only [apply, applyBool, Node.map, map_modifyClauses hclear]
  | dropLastClause occur =>
      have hdrop (l : List α) : l.dropLast.map f = (l.map f).dropLast := List.map_dropLast
      simp only [apply, applyBool, Node.map, map_modifyClauses hdrop]
  | setMinimumShouldMatch value => rfl
  | addQuery query =>
      have hquery : f query = query := hfix query List.mem_cons_self
      simp only [apply, applyDisMax, Node.map, List.map_append, List.map_singleton, hquery]
  | clearQueries => rfl
  | dropLastQuery => simp only [apply, applyDisMax, Node.map, List.map_dropLast]
  | setTieBreaker x => rfl
  | setQuery query =>
      have hquery : query.map f = query := by
        cases query with
        | none => rfl
        | some q => rw [Option.map_some, hfix q List.mem_cons_self]
      simp only [apply, applyFunctionScore, Node.map, FunctionScoreBody.map, hquery]
  | addFunction function =>
      obtain ⟨filter, weight, kind⟩ := function
      have hfilter : filter.map f = filter := by
        cases filter with
        | none => rfl
        | some q => rw [Option.map_some, hfix q List.mem_cons_self]
      simp only [apply, applyFunctionScore, Node.map, FunctionScoreBody.map, List.map_append,
        List.map_singleton, ScoreFunction.map, hfilter]
  | clearFunctions => rfl
  | dropLastFunction =>
      simp only [apply, applyFunctionScore, Node.map, FunctionScoreBody.map, List.map_dropLast]
  | setScoreMode mode => rfl
  | setBoostMode mode => rfl
  | setMinScore x => rfl
  | setMaxBoost x => rfl

theorem children_add_perm (b : BoolBody α) (occur : Occur) (clause : α) :
    (b.add occur clause).children.Perm (b.children ++ [clause]) := by
  -- The clause goes to the end of one of the four lists, and from there to the end of all.
  have hmove (l m : List α) : (l ++ [clause] ++ m).Perm (l ++ m ++ [clause]) := by
    rw [List.append_assoc, List.append_assoc]
    exact List.Perm.append_left l List.perm_append_comm
  cases occur with
  | filter =>
      have h := hmove b.filter (b.should ++ b.must ++ b.mustNot)
      simpa only [BoolBody.add, BoolBody.modifyClauses, BoolBody.children,
        List.append_assoc] using h
  | should =>
      have h := hmove (b.filter ++ b.should) (b.must ++ b.mustNot)
      simpa only [BoolBody.add, BoolBody.modifyClauses, BoolBody.children,
        List.append_assoc] using h
  | must =>
      have h := hmove (b.filter ++ b.should ++ b.must) b.mustNot
      simpa only [BoolBody.add, BoolBody.modifyClauses, BoolBody.children,
        List.append_assoc] using h
  | mustNot =>
      have h := hmove (b.filter ++ b.should ++ b.must ++ b.mustNot) []
      simpa only [BoolBody.add, BoolBody.modifyClauses, BoolBody.children,
        List.append_assoc, List.append_nil] using h

/-- An edit that appends or assigns keeps every sub-query and adds those that it brings in. -/
theorem children_apply_perm {e : Edit α kind} (hgrows : e.grows = true) (n : Node α kind) :
    (Node.children (e.apply n)).Perm (Node.children n ++ e.brought) := by
  have hsame {l : List α} : l.Perm (l ++ []) := by rw [List.append_nil]
  cases e with
  | setBoost boost =>
      cases kind with
      | bool => exact hsame
      | disMax => exact hsame
      | functionScore => exact hsame
  | addClause occur clause => exact children_add_perm n.body occur clause
  | setMinimumShouldMatch value => exact hsame
  | addQuery query => exact List.Perm.refl _
  | setTieBreaker x => exact hsame
  | addFunction function =>
      have hfilters : [function].filterMap ScoreFunction.filter = function.filter.toList := by
        rw [List.filterMap_cons]
        cases function.filter with
        | none => rfl
        | some q => rfl
      have heq : Node.children (apply (addFunction function) n)
          = Node.children n ++ function.filter.toList := by
        simp only [apply, applyFunctionScore, Node.children, FunctionScoreBody.children,
          List.filterMap_append, hfilters, List.append_assoc]
      rw [heq]
      exact List.Perm.refl _
  | setScoreMode mode => exact hsame
  | setBoostMode mode => exact hsame
  | setMinScore x => exact hsame
  | setMaxBoost x => exact hsame
  | clearClauses occur => exact absurd hgrows Bool.false_ne_true
  | dropLastClause occur => exact absurd hgrows Bool.false_ne_true
  | clearQueries => exact absurd hgrows Bool.false_ne_true
  | dropLastQuery => exact absurd hgrows Bool.false_ne_true
  | setQuery query => exact absurd hgrows Bool.false_ne_true
  | clearFunctions => exact absurd hgrows Bool.false_ne_true
  | dropLastFunction => exact absurd hgrows Bool.false_ne_true

/-! ## 3. Several edits -/

/-- Several edits do not look at the sub-queries of the node either. -/
theorem map_applyAll {f : α → α} {edits : List (Edit α kind)}
    (hfix : ∀ e ∈ edits, ∀ x ∈ e.brought, f x = x) (n : Node α kind) :
    Node.map f (applyAll edits n) = applyAll edits (Node.map f n) := by
  unfold applyAll
  induction edits generalizing n with
  | nil => rfl
  | cons e edits ih =>
      have hhead := map_apply (hfix e List.mem_cons_self) n
      have htail := ih (fun e' he' => hfix e' (List.mem_cons_of_mem e he')) (e.apply n)
      rw [List.foldl_cons, List.foldl_cons, htail, hhead]

/-- Several edits that append or assign keep every sub-query and add those that they bring in. -/
theorem children_applyAll_perm {edits : List (Edit α kind)}
    (hgrow : ∀ e ∈ edits, e.grows = true) (n : Node α kind) :
    (Node.children (applyAll edits n)).Perm (Node.children n ++ edits.flatMap brought) := by
  unfold applyAll
  induction edits generalizing n with
  | nil =>
      rw [List.flatMap_nil, List.append_nil]
      exact List.Perm.refl _
  | cons e edits ih =>
      have hhead := children_apply_perm (hgrow e List.mem_cons_self) n
      have htail := ih (fun e' he' => hgrow e' (List.mem_cons_of_mem e he')) (e.apply n)
      rw [List.foldl_cons, List.flatMap_cons, ← List.append_assoc]
      exact htail.trans (hhead.append_right _)

end Edit

end SearchQuery
