import SearchQuery.Proofs.Reduction
import SearchQuery.Proofs.Walk
import SearchQuery.Proofs.Writing

/-!
# Open nodes are transparent

A node stands for a query. `Query.closeAll` puts that query in the place of every node, at every
depth and also under nested queries, where reduction does not go. Nothing that is asked of a query
but its nodes can tell the difference: one level is closed without a change to its name, to its
sub-queries or to what it writes (`Form.body_close`), and each traversal carries this to the whole
query by induction over the levels. Reduction is the one traversal that gives a query back, and
there closing passes through (`reduce_closeAll`).
-/

namespace SearchQuery

/-! ## 1. One level -/

namespace Form

theorem body_close (f : Form (List Member)) : f.close.body = f.body := by
  cases f with
  | leaf test options => rfl
  | nested path query options => rfl
  | compound body options => rfl
  | node n => rfl

theorem members_close (f : Form (List Member)) : f.close.members = f.members := by
  rw [members, name_close, body_close, members]

end Form

namespace Query

/-! ## 2. All levels -/

/-- Closes a query at every level: each node in it becomes the query it stands for. -/
def closeAll (q : Query) : Query := q.cata fun f => of f.close

theorem closeAll_of (f : Form Query) : (of f).closeAll = of (f.close.map closeAll) := by
  rw [closeAll, cata_of, Form.close_map]
  rfl

theorem closeAll_leaf (test : LeafTest) (options : Parameters) :
    (leaf test options).closeAll = leaf test options :=
  closeAll_of (.leaf test options)

theorem closeAll_nested (path : Field) (query : Query) (options : Parameters) :
    (nested path query options).closeAll = nested path query.closeAll options :=
  closeAll_of (.nested path query options)

theorem closeAll_compound (body : Compound Query) (options : Parameters) :
    (compound body options).closeAll = compound (body.map closeAll) options :=
  closeAll_of (.compound body options)

/-- A node becomes what the query it stands for becomes. -/
theorem closeAll_node (n : BoundNode Query) :
    (of (.node n)).closeAll = (compound n.body n.options).closeAll := by
  rw [closeAll_of, Form.close, closeAll_compound]
  rfl

theorem name_closeAll (q : Query) : q.closeAll.name = q.name := by
  obtain ⟨form⟩ := q
  rw [closeAll_of, name, form_of, Form.name_map, Form.name_close]
  rfl

theorem children_closeAll (q : Query) : q.closeAll.children = q.children.map closeAll := by
  obtain ⟨form⟩ := q
  rw [closeAll_of, children_of, Form.children_map, Form.children_close]
  rfl

/-- No node is left at the topmost level, and so at no level. -/
theorem node?_closeAll (q : Query) : q.closeAll.node? = none := by
  obtain ⟨form⟩ := q
  rw [closeAll_of]
  cases form with
  | leaf test options => rfl
  | nested path query options => rfl
  | compound body options => rfl
  | node n => rfl

/-! ## 3. What a closed query looks like -/

theorem depth_closeAll (q : Query) : q.closeAll.depth = q.depth := by
  induction q using Query.induction with
  | step q ih =>
      have hchildren : q.children.map (depth ∘ closeAll) = q.children.map depth :=
        List.map_congr_left ih
      rw [depth_eq, depth_eq, children_closeAll, List.map_map, hchildren]

/-- A walk over the closed query visits the closed sub-queries, in the same order. -/
theorem walk_closeAll (q : Query) : q.closeAll.walk = q.walk.map closeAll :=
  walk_of_children_map children_closeAll q

theorem nodes_closeAll (q : Query) : q.closeAll.nodes = [] := by
  rw [nodes, walk_closeAll, List.filterMap_map, List.filterMap_eq_nil_iff]
  intro x _
  exact node?_closeAll x

theorem countNodes_closeAll (q : Query) : q.closeAll.countNodes = q.countNodes := by
  rw [countNodes, countNodes, walk_closeAll, List.length_map]

theorem names_closeAll (q : Query) : q.closeAll.walk.map name = q.walk.map name := by
  rw [walk_closeAll, List.map_map]
  exact List.map_congr_left fun c _ => name_closeAll c

/-- A node writes what the query it stands for would write, so closing goes unnoticed at every
level. -/
theorem members_closeAll (q : Query) : q.closeAll.members = q.members := by
  induction q using Query.induction with
  | step q ih =>
      obtain ⟨form⟩ := q
      have hsub : form.map (members ∘ closeAll) = form.map members := Form.map_congr ih
      rw [closeAll_of, members_of, members_of, Form.map_map]
      -- The level is closed last, when its sub-queries are already written.
      rw [← Form.close_map, Form.members_close, hsub]

/-! ## 4. Reduction and compilation -/

/-- Closing before the reduction is closing after it. A node is reduced as the query it stands for,
settling does not look into sub-queries, and a nested query is closed as it stays. -/
theorem reduce_closeAll (q : Query) : q.closeAll.reduce = q.reduce.map closeAll := by
  refine reduce_comm ?_ ?_ closeAll_compound ?_ q
  · intro test options
    rw [closeAll_leaf, reduce_leaf]
  · intro path query options
    rw [closeAll_nested, reduce_nested]
  · intro n
    rw [closeAll_node]

theorem checkDepth_closeAll (q : Query) : q.closeAll.checkDepth = q.checkDepth := by
  rw [checkDepth, checkDepth, depth_closeAll]

theorem compileInto_closeAll {σ : Type} [ObjectSink σ] (out : σ) (q : Query) :
    q.closeAll.compileInto out = q.compileInto out := by
  rw [compileInto, compileInto, reduce_closeAll]
  rcases q.reduce with _ | r
  · rfl
  · simp only [Option.map_some, checkDepth_closeAll, members_closeAll]

theorem compile_closeAll (q : Query) : q.closeAll.compile = q.compile := by
  rw [compile, compile, reduce_closeAll]
  rcases q.reduce with _ | r
  · rfl
  · simp only [Option.map_some, checkDepth_closeAll, toJson, members_closeAll]

/-- **Open nodes are transparent.** The closed query has no node left, and yet has the depth, the
number of queries and the names in walk order of the query, writes what the query writes, step for
step, and is reduced to the closed reduction. So it compiles to the same document, or is refused
with the same error. -/
theorem nodes_transparent (q : Query) :
    q.closeAll.nodes = [] ∧
    q.closeAll.depth = q.depth ∧
    q.closeAll.countNodes = q.countNodes ∧
    q.closeAll.walk.map name = q.walk.map name ∧
    q.closeAll.members = q.members ∧
    (∀ log : List Event, writeAll log q.closeAll.members = writeAll log q.members) ∧
    q.closeAll.reduce = q.reduce.map closeAll ∧
    q.closeAll.compile = q.compile ∧
    (∀ (σ : Type) [ObjectSink σ] (out : σ), q.closeAll.compileInto out = q.compileInto out) := by
  refine ⟨nodes_closeAll q, depth_closeAll q, countNodes_closeAll q, names_closeAll q,
    members_closeAll q, fun log => ?_, reduce_closeAll q, compile_closeAll q, ?_⟩
  · rw [members_closeAll]
  · intro σ _ out
    exact compileInto_closeAll out q

end Query

end SearchQuery
