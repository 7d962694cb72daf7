import SearchQuery.Proofs.Reduction.Rules

/-!
# Reduction and what the leaves are

Reduction looks at how many clauses, queries and functions there are and never at what a leaf asks.
So leaves may be replaced before the query is reduced or after it (`reduce_substitute`), as long as
nothing is left to be reduced in what takes their place: that may be a wrapper, and it may end up
just where another wrapper goes. A nested query counts as a leaf, since reduction does not look
into it either.

`Query.skeleton` is the query without its leaves. What is left of the skeleton is decided by the
skeleton alone.
-/

namespace SearchQuery

namespace Query

/-! ## 1. Atoms -/

/-- Reduction does not look into the query: it is a leaf or a nested query. -/
def isAtom (q : Query) : Bool :=
  match q.form with
  | .leaf .. | .nested .. => true
  | _ => false

theorem reduce_of_isAtom {q : Query} (h : q.isAtom = true) : q.reduce = some q := by
  obtain ⟨form⟩ := q
  cases form with
  | leaf test options => exact reduce_leaf test options
  | nested path query options => exact reduce_nested path query options
  | compound body options => cases h
  | node n => cases h

/-! ## 2. Substitution -/

/-- Replaces every leaf, and every nested query that is not below another one. -/
def substitute (σ : Query → Query) (q : Query) : Query :=
  match q.form with
  | .leaf .. | .nested .. => σ q
  | f => of (f.refill (q.children.attach.map fun c => substitute σ c.1))
termination_by sizeOf q
decreasing_by exact sizeOf_lt_of_mem_children c.2

theorem substitute_of_isAtom (σ : Query → Query) {q : Query} (h : q.isAtom = true) :
    q.substitute σ = σ q := by
  obtain ⟨form⟩ := q
  cases form with
  | leaf test options => rw [substitute]; rfl
  | nested path query options => rw [substitute]; rfl
  | compound body options => cases h
  | node n => cases h

/-- Any other query stays, and its sub-queries are replaced in turn. -/
theorem substitute_of_not_isAtom (σ : Query → Query) {q : Query} (h : q.isAtom = false) :
    q.substitute σ = of (q.form.map (substitute σ)) := by
  obtain ⟨form⟩ := q
  cases form with
  | leaf test options => cases h
  | nested path query options => cases h
  | compound body options =>
      rw [substitute, List.attach_map_val (f := substitute σ), ← Form.refill_children_map]
      rfl
  | node n =>
      rw [substitute, List.attach_map_val (f := substitute σ), ← Form.refill_children_map]
      rfl

theorem substitute_compound (σ : Query → Query) (body : Compound Query) (options : Parameters) :
    (compound body options).substitute σ = compound (body.map (substitute σ)) options :=
  substitute_of_not_isAtom σ rfl

theorem substitute_node (σ : Query → Query) (n : BoundNode Query) :
    (of (.node n)).substitute σ = of (.node (n.map (substitute σ))) :=
  substitute_of_not_isAtom σ rfl

/-- Substitution passes through reduction, provided that nothing is left to be reduced in what takes
the place of a leaf. A node keeps its handle and its settings, so it still stands for the query in
which the same is replaced. -/
theorem reduce_substitute {σ : Query → Query}
    (hσ : ∀ x : Query, x.isAtom = true → (σ x).reduce = some (σ x)) (t : Query) :
    (t.substitute σ).reduce = t.reduce.map (substitute σ) := by
  refine reduce_comm ?_ ?_ (substitute_compound σ) ?_ t
  · intro test options
    rw [substitute_of_isAtom σ rfl, hσ _ rfl]
  · intro path query options
    rw [substitute_of_isAtom σ rfl, hσ _ rfl]
  · intro n
    rw [substitute_node, substitute_compound, reduce_node, BoundNode.body_map,
      BoundNode.options_map]

/-! ## 3. Skeletons -/

/-- The query with one and the same leaf in the place of every leaf and every nested query. -/
def skeleton (q : Query) : Query := q.substitute fun _ => leaf .matchAll

theorem reduce_skeleton (t : Query) : t.skeleton.reduce = t.reduce.map skeleton :=
  reduce_substitute (fun _ _ => reduce_leaf .matchAll OrderedMap.empty) t

/-- **Reduction commutes with replacing leaves**, also where a wrapper takes the place of a leaf.
What is left is made of the same wrappers whatever the leaves are: it has the same skeleton in all
queries of one skeleton. -/
theorem reduce_commutes_with_substitution {σ : Query → Query}
    (hσ : ∀ x : Query, x.isAtom = true → (σ x).reduce = some (σ x)) (t : Query) :
    (t.substitute σ).reduce = t.reduce.map (substitute σ) ∧
    ∀ u : Query, u.skeleton = t.skeleton → u.reduce.map skeleton = t.reduce.map skeleton := by
  refine ⟨reduce_substitute hσ t, fun u hu => ?_⟩
  rw [← reduce_skeleton, ← reduce_skeleton, hu]

/-! A wrapper that stays takes the place of a leaf in wrappers that go. -/

/-- A query that filters and does not score, which is why it is no mere wrapper. -/
def filterOnly (q : Query) : Query := .bool { filter := [q] }

theorem reduce_filterOnly {q : Query} (h : q.isAtom = true) :
    (filterOnly q).reduce = some (filterOnly q) := by
  rw [filterOnly, bool, reduce_compound]
  show settle (Compound.prune (.bool { filter := [q.reduce] })) _ = _
  rw [reduce_of_isAtom h]
  rfl

/-- Two wrappers around a leaf, and a clause that comes to nothing. -/
def wrappedLeaf : Query :=
  .bool { must := [.disMax { queries := [.leaf .matchAll] }], should := [.bool {}] }

theorem reduce_wrappedLeaf : wrappedLeaf.reduce = some (.leaf .matchAll) := by
  rw [reduce_eq_byRules]
  rfl

theorem substitution_in_wrappers :
    (∀ x : Query, x.isAtom = true → (filterOnly x).reduce = some (filterOnly x)) ∧
    (wrappedLeaf.substitute filterOnly).reduce = some (filterOnly (.leaf .matchAll)) := by
  have hfilters : ∀ x : Query, x.isAtom = true → (filterOnly x).reduce = some (filterOnly x) :=
    fun x hx => reduce_filterOnly hx
  have hleaf : (leaf .matchAll).substitute filterOnly = filterOnly (leaf .matchAll) :=
    substitute_of_isAtom filterOnly rfl
  have hcommutes := (reduce_commutes_with_substitution hfilters wrappedLeaf).1
  rw [reduce_wrappedLeaf, Option.map_some, hleaf] at hcommutes
  exact ⟨hfilters, hcommutes⟩

end Query

end SearchQuery
