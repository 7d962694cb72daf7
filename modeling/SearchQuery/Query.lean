import SearchQuery.Query.Form

/-!
# Queries

A query is a form over queries. Everything that is said of a query by recursion is said through one
scheme, `Query.cata`: what a form is worth once its sub-queries have been evaluated.
-/

namespace SearchQuery

/-- A query: one level, whose sub-queries are queries. -/
inductive Query where
  | of (form : Form Query)

namespace Query

/-- The topmost level. -/
def form : Query → Form Query
  | of f => f

/-! ## 1. Queries by kind -/

def leaf (test : LeafTest) (options : Parameters := OrderedMap.empty) : Query :=
  of (.leaf test options)

def nested (path : Field) (query : Query) (options : Parameters := OrderedMap.empty) : Query :=
  of (.nested path query options)

def compound (body : Compound Query) (options : Parameters := OrderedMap.empty) : Query :=
  of (.compound body options)

def bool (body : BoolBody Query) (options : Parameters := OrderedMap.empty) : Query :=
  compound (.bool body) options

def disMax (body : DisMaxBody Query) (options : Parameters := OrderedMap.empty) : Query :=
  compound (.disMax body) options

def functionScore (body : FunctionScoreBody Query) (options : Parameters := OrderedMap.empty) :
    Query :=
  compound (.functionScore body) options

/-- A node bound to a handle. -/
def node {kind : NodeKind} (handle : Handle kind) (node : Node Query kind) : Query :=
  of (.node (.bind handle node))

/-- The query that every document passes. -/
instance : Inhabited Query := ⟨leaf .matchAll⟩

/-! ## 2. One level -/

/-- The name under which a query is written. -/
def name (q : Query) : String := q.form.name

/-- The direct sub-queries, from left to right. -/
def children (q : Query) : List Query := q.form.children

/-- The query with its direct sub-queries taken from a list. -/
def withChildren (q : Query) (cs : List Query) : Query := of (q.form.refill cs)

/-- The query with its `i`-th direct sub-query replaced. -/
def setChild (q : Query) (i : Nat) (x : Query) : Query := of (q.form.setChild i x)

/-- Closes the topmost level: a node becomes the query it stands for. -/
def close (q : Query) : Query := of q.form.close

@[simp] theorem form_of (f : Form Query) : (of f).form = f := rfl

@[simp] theorem of_form (q : Query) : of q.form = q := by cases q; rfl

theorem children_of (f : Form Query) : (of f).children = f.children := rfl

/-! ## 3. Recursion -/

theorem total_sizeOf_children_lt (q : Query) : total sizeOf q.children < sizeOf q := by
  cases q with
  | of f =>
    have := f.total_sizeOf_children_lt
    simp only [children_of, of.sizeOf_spec]
    omega

/-- A sub-query is smaller than the query. -/
theorem sizeOf_lt_of_mem_children {c q : Query} (h : c ∈ q.children) : sizeOf c < sizeOf q := by
  have hle : sizeOf c ≤ total sizeOf q.children := le_total_of_mem h
  have hlt := q.total_sizeOf_children_lt
  omega

/-- Evaluates a query from its leaves up: `alg` says what a form is worth once each of its
sub-queries has been replaced by what that is worth. -/
def cata {β : Type} [Inhabited β] (alg : Form β → β) (q : Query) : β :=
  alg (q.form.refill (q.children.attach.map fun c => cata alg c.1))
termination_by sizeOf q
decreasing_by exact sizeOf_lt_of_mem_children c.2

/-- The equation of the scheme. -/
theorem cata_of {β : Type} [Inhabited β] (alg : Form β → β) (f : Form Query) :
    (of f).cata alg = alg (f.map (cata alg)) := by
  rw [cata, ← Form.refill_children_map]
  conv => rhs; rw [← List.attach_map_subtype_val f.children, List.map_map]
  rfl

/-- A statement about all queries follows from its passing from the sub-queries to the query. -/
theorem induction {motive : Query → Prop}
    (step : ∀ q : Query, (∀ c ∈ q.children, motive c) → motive q) (q : Query) : motive q :=
  step q fun c _ => induction step c
termination_by sizeOf q
decreasing_by exact sizeOf_lt_of_mem_children ‹_›

end Query

end SearchQuery
