import SearchQuery.Query.Leaf
import SearchQuery.Query.Node
import SearchQuery.Total

/-!
# The form of a query

The form of a query is everything about its topmost level, over a type of sub-queries. A query is
then a form over queries. What a form does with its sub-queries is settled here once: how they are
listed, how they are replaced, and how a list of them is dealt out. Traversals only say what they
make of one form.
-/

namespace SearchQuery

/-- One level of a query. -/
inductive Form (α : Type) where
  | leaf (test : LeafTest) (options : Parameters)
  /-- A query asked of the objects nested under a path. -/
  | nested (path : Field) (query : α) (options : Parameters)
  | compound (body : Compound α) (options : Parameters)
  | node (node : BoundNode α)

namespace Form

variable {α β : Type}

def kind : Form α → QueryKind
  | leaf test _ => test.kind
  | nested .. => .nested
  | compound body _ => body.kind
  | node n => n.body.kind

/-- The name under which a query of this form is written. -/
def name (f : Form α) : String := WireName.wire f.kind

/-- The direct sub-queries, from left to right. -/
def children : Form α → List α
  | leaf .. => []
  | nested _ query _ => [query]
  | compound body _ => body.children
  | node n => n.body.children

def map (f : α → β) : Form α → Form β
  | leaf test options => .leaf test options
  | nested path query options => .nested path (f query) options
  | compound body options => .compound (body.map f) options
  | node n => .node (n.map f)

/-- The same form with its sub-queries taken from a list, in the order of `children`. Only a list
that is too short leaves a nested query without one, and then the default takes its place. -/
def refill [Inhabited β] (f : Form α) (cs : List β) : Form β :=
  match f with
  | leaf test options => .leaf test options
  | nested path _ options => .nested path (cs.headD default) options
  | compound body options => .compound (body.refill cs) options
  | node n => .node (n.refill cs)

/-- Replaces the `i`-th sub-query; nothing changes when there is none. -/
def setChild (f : Form α) (i : Nat) (x : α) : Form α :=
  match f with
  | leaf test options => .leaf test options
  | nested path query options => .nested path (if i = 0 then x else query) options
  | compound body options => .compound (body.setChild i x) options
  | node n => .node (n.setChild i x)

/-- Closes a node: it becomes the query it stands for, and any other form stays. -/
def close : Form α → Form α
  | node n => .compound n.body n.options
  | f => f

def isNested : Form α → Bool
  | nested .. => true
  | _ => false

/-- Dealing out what a function makes of the sub-queries is applying the function to each. -/
theorem refill_children_map [Inhabited β] (g : α → β) (f : Form α) :
    f.refill (f.children.map g) = f.map g := by
  cases f with
  | leaf => rfl
  | nested => rfl
  | compound body options => simp only [refill, children, map, Compound.refill_children_map]
  | node n => simp only [refill, children, map, BoundNode.refill_children_map]

theorem children_map (g : α → β) (f : Form α) : (f.map g).children = f.children.map g := by
  cases f with
  | leaf => rfl
  | nested => rfl
  | compound body options => exact Compound.children_map g body
  | node n => simp only [map, children, BoundNode.body_map, Compound.children_map]

end Form

/-! ## Sizes

A traversal ends because the sub-queries of a form are together smaller than the form. -/

section Sizes

variable {α : Type}

theorem total_sizeOf_le [SizeOf α] (l : List α) : total sizeOf l ≤ sizeOf l := by
  induction l with
  | nil => simp
  | cons a l ih => simp only [total_cons, List.cons.sizeOf_spec]; omega

theorem total_sizeOf_toList_le [SizeOf α] (o : Option α) :
    total sizeOf o.toList ≤ sizeOf o := by
  cases o <;> simp

theorem total_sizeOf_filters_le [SizeOf α] (l : List (ScoreFunction α)) :
    total sizeOf (l.filterMap ScoreFunction.filter) ≤ sizeOf l := by
  induction l with
  | nil => simp
  | cons s l ih =>
    rcases s with ⟨filter, weight, kind⟩
    cases filter <;> simp <;> omega

theorem Compound.total_sizeOf_children_le [SizeOf α] (c : Compound α) :
    total sizeOf c.children ≤ sizeOf c := by
  cases c with
  | bool b =>
    have := total_sizeOf_le b.filter
    have := total_sizeOf_le b.should
    have := total_sizeOf_le b.must
    have := total_sizeOf_le b.mustNot
    cases b
    simp only [Compound.children, BoolBody.children, total_append,
      Compound.bool.sizeOf_spec, BoolBody.mk.sizeOf_spec] at *
    omega
  | disMax b =>
    have := total_sizeOf_le b.queries
    cases b
    simp only [Compound.children, Compound.disMax.sizeOf_spec, DisMaxBody.mk.sizeOf_spec] at *
    omega
  | functionScore b =>
    have := total_sizeOf_toList_le b.query
    have := total_sizeOf_filters_le b.functions
    cases b
    simp only [Compound.children, FunctionScoreBody.children, total_append,
      Compound.functionScore.sizeOf_spec, FunctionScoreBody.mk.sizeOf_spec] at *
    omega

theorem BoundNode.sizeOf_body_le [SizeOf α] (n : BoundNode α) : sizeOf n.body ≤ sizeOf n := by
  cases n with
  | bool h n => cases n; simp [BoundNode.body]; omega
  | disMax h n => cases n; simp [BoundNode.body]; omega
  | functionScore h n => cases n; simp [BoundNode.body]; omega

/-- The sub-queries of a form are together smaller than the form. -/
theorem Form.total_sizeOf_children_lt [SizeOf α] (f : Form α) :
    total sizeOf f.children < sizeOf f := by
  cases f with
  | leaf => simp only [children, total_nil, Form.leaf.sizeOf_spec]; omega
  | nested => simp [children]; omega
  | compound body =>
    have := Compound.total_sizeOf_children_le body
    simp only [children, Form.compound.sizeOf_spec]
    omega
  | node n =>
    have := Compound.total_sizeOf_children_le n.body
    have := BoundNode.sizeOf_body_le n
    simp only [children, Form.node.sizeOf_spec]
    omega

end Sizes

end SearchQuery
