import SearchQuery.Query.Position
import SearchQuery.Query.Walk
import SearchQuery.Steps

/-!
# Editing through a handle

Several trees share one set of handles and are edited in their places. An edit is carried out only
if its handle is bound to exactly one node in all of them: a first pass counts, and a second pass
looks for the node and changes it where it stands. A change may do more than change its node: what
else it reads and writes is a state of its own.
-/

namespace SearchQuery

namespace Query

variable {kind : NodeKind} {τ β : Type}

/-! ## 1. The search -/

/-- A query still to be searched: the tree it is in, its position there (innermost index first),
and the query. -/
structure Pending where
  tree : Nat
  path : List Nat
  query : Query

/-- The contents of the query, if it is a node bound to the handle. -/
def contentsIfBound (handle : Handle kind) (q : Query) : Option (Node Query kind) :=
  ((q.node?.bind (BoundNode.project kind)).filter fun b => b.1 == handle).map Prod.snd

/-- The trees as work to be done. -/
def Pending.roots (trees : List Query) : List Pending := trees.zipIdx.map fun t => ⟨t.2, [], t.1⟩

/-- The direct sub-queries as work to be done, with their positions. -/
def Pending.children (p : Pending) : List Pending :=
  p.query.children.zipIdx.map fun c => ⟨p.tree, c.2 :: p.path, c.1⟩

private theorem total_children (p : Pending) :
    total (fun c => sizeOf c.query) p.children = total sizeOf p.query.children := by
  conv => rhs; rw [← List.zipIdx_map_fst 0 p.query.children]
  rw [Pending.children, total_map, total_map]
  rfl

/-- Searches the pending queries, the first one first, for a node bound to the handle. The first
such node ends the search: it has been `found` in a tree, at a position, with its contents. When no
query is left the node is `missing`. -/
def searchLoop (handle : Handle kind) (found : Nat → Position → Node Query kind → β) (missing : β) :
    List Pending → β
  | [] => missing
  | p :: stack =>
    match p.query.contentsIfBound handle with
    | some contents => found p.tree p.path.reverse contents
    | none => searchLoop handle found missing (p.children.reverse ++ stack)
termination_by stack => total (fun p => sizeOf p.query) stack
decreasing_by
  have := p.query.total_sizeOf_children_lt
  simp only [total_append, total_reverse, total_cons, total_children]
  omega

/-! ## 2. The edit -/

/-- Changes a query that is a node of the given kind. -/
def modifyNode (kind : NodeKind) (change : Node Query kind → Node Query kind) (q : Query) : Query :=
  match q.form with
  | .node n => of (.node (n.modify kind change))
  | _ => q

/-- Makes a change to the contents that have been found at a position of a tree, and puts them back
there. -/
def changeAt (change : Node Query kind → τ → Node Query kind × τ) (tree : Nat)
    (position : Position) (contents : Node Query kind) : Steps (List Query × τ) Unit :=
  modify fun (trees, x) =>
    let (changed, x') := change contents x
    let put (t : Query) := (t.modifyAt position (modifyNode kind fun _ => changed)).getD t
    (trees.modify tree put, x')

/-- Changes the node that a handle is bound to, in trees that share their handles. Without exactly
one such node the change is refused. -/
def editIn (handle : Handle kind) (change : Node Query kind → τ → Node Query kind × τ) :
    Steps (List Query × τ) Unit := do
  let (trees, _) ← get
  match total (fun t => t.boundCount handle) trees with
  | 0 => throw (.handleNotFound handle.display)
  | 1 =>
    searchLoop handle (changeAt change) (throw (.handleNotFound handle.display))
      (Pending.roots trees)
  | count => throw (.duplicateHandle handle.display count)

/-- Changes the node that a handle is bound to in one tree. -/
def edit (handle : Handle kind) (change : Node Query kind → τ → Node Query kind × τ) :
    Steps (Query × τ) Unit :=
  (editIn handle change).onFirst (fun tree => [tree]) fun tree trees => trees.headD tree

/-! ## 3. Changes that only change their node -/

/-- A change that does nothing else. -/
def onlyNode (change : Node Query kind → Node Query kind) (contents : Node Query kind) (x : Unit) :
    Node Query kind × Unit :=
  (change contents, x)

/-- Changes the node that a handle is bound to, and nothing else, in trees that share their
handles. -/
def mutateInSteps (handle : Handle kind) (change : Node Query kind → Node Query kind) :
    Steps (List Query) Unit :=
  (editIn handle (onlyNode change)).alone

/-- Changes the node that a handle is bound to, and nothing else, in one tree. -/
def mutateSteps (handle : Handle kind) (change : Node Query kind → Node Query kind) :
    Steps Query Unit :=
  (edit handle (onlyNode change)).alone

/-- The trees after a change. -/
def mutateIn (trees : List Query) (handle : Handle kind)
    (change : Node Query kind → Node Query kind) : Except QueryError (List Query) :=
  (mutateInSteps handle change).result trees

/-- The tree after a change. -/
def mutate (tree : Query) (handle : Handle kind)
    (change : Node Query kind → Node Query kind) : Except QueryError Query :=
  (mutateSteps handle change).result tree

end Query

end SearchQuery
