import SearchQuery.Query

/-!
# Walking a query

A walk visits every query in a tree, each before those below it, and of the direct sub-queries the
last one first: it takes the top query off a stack, visits it and pushes its sub-queries from left
to right. The order is the same for every walk over the same tree.
-/

namespace SearchQuery

namespace Query

/-- Works off a stack of queries, its top first. `visited` holds those visited so far, the latest
first. -/
def walkLoop : List Query → List Query → List Query
  | [], visited => visited.reverse
  | q :: stack, visited => walkLoop (q.children.reverse ++ stack) (q :: visited)
termination_by stack => total sizeOf stack
decreasing_by
  have := q.total_sizeOf_children_lt
  simp only [total_append, total_reverse, total_cons]
  omega

/-- Every query of the tree in walk order, the topmost one first. -/
def walk (q : Query) : List Query := walkLoop [q] []

/-- The number of queries in the tree. -/
def countNodes (q : Query) : Nat := q.walk.length

/-- The node at the top, if the query is one. -/
def node? (q : Query) : Option (BoundNode Query) :=
  match q.form with
  | .node n => some n
  | _ => none

/-- Every node of the tree, in walk order. -/
def nodes (q : Query) : List (BoundNode Query) := q.walk.filterMap node?

/-- The first node bound to the handle, in walk order. -/
def find? {kind : NodeKind} (q : Query) (handle : Handle kind) : Option (Node Query kind) :=
  ((q.nodes.filterMap (BoundNode.project kind)).find? fun b => b.1 == handle).map Prod.snd

/-- The number of nodes bound to the handle. -/
def boundCount {kind : NodeKind} (q : Query) (handle : Handle kind) : Nat :=
  ((q.nodes.filterMap (BoundNode.project kind)).filter fun b => b.1 == handle).length

end Query

end SearchQuery
