import SearchQuery.Handle
import SearchQuery.Query.Compound

/-!
# Nodes that stay open for edits

A node is a compound query bound to a handle. In a tree it stands for the query with the same body
and with the options that its own few settings amount to. An `Edit` is one change to a node; which
edits there are depends on the kind of the node.
-/

namespace SearchQuery

/-! ## 1. Nodes -/

/-- An open bool query. -/
structure BoolNode (α : Type) where
  body : BoolBody α := {}
  boost : Option Double := none

/-- An open dis_max query. -/
structure DisMaxNode (α : Type) where
  body : DisMaxBody α := {}
  boost : Option Double := none

/-- An open function_score query. -/
structure FunctionScoreNode (α : Type) where
  body : FunctionScoreBody α := {}
  maxBoost : Option Double := none
  boost : Option Double := none

/-- The open query of a kind. -/
abbrev Node (α : Type) : NodeKind → Type
  | .bool => BoolNode α
  | .disMax => DisMaxNode α
  | .functionScore => FunctionScoreNode α

/-- The kind of the query that a node stands for. -/
def NodeKind.queryKind : NodeKind → QueryKind
  | .bool => .bool
  | .disMax => .disMax
  | .functionScore => .functionScore

/-- A node is called after the query that it stands for. -/
instance : WireName NodeKind where
  all := [.bool, .disMax, .functionScore]
  wire kind := WireName.wire kind.queryKind

namespace Node

variable {α : Type}

/-- A new node without any part. -/
def empty : (kind : NodeKind) → Node α kind
  | .bool => {}
  | .disMax => {}
  | .functionScore => {}

end Node

/-- A node with the handle it is bound to. -/
inductive BoundNode (α : Type) where
  | bool (handle : Handle .bool) (node : BoolNode α)
  | disMax (handle : Handle .disMax) (node : DisMaxNode α)
  | functionScore (handle : Handle .functionScore) (node : FunctionScoreNode α)

namespace BoundNode

variable {α β : Type}

/-- Binds a node of any kind to a handle. -/
def bind : {kind : NodeKind} → Handle kind → Node α kind → BoundNode α
  | .bool, handle, node => .bool handle node
  | .disMax, handle, node => .disMax handle node
  | .functionScore, handle, node => .functionScore handle node

/-- The handle and the node, if the node is of the given kind. -/
def project : (kind : NodeKind) → BoundNode α → Option (Handle kind × Node α kind)
  | .bool, bool handle node => some (handle, node)
  | .disMax, disMax handle node => some (handle, node)
  | .functionScore, functionScore handle node => some (handle, node)
  | _, _ => none

/-- The node is of the handle's kind and bound to it. -/
def isBoundTo {kind : NodeKind} (n : BoundNode α) (handle : Handle kind) : Bool :=
  match n.project kind with
  | some (bound, _) => bound == handle
  | none => false

/-- The label of the handle. -/
def label : BoundNode α → Option String
  | bool handle _ => handle.label
  | disMax handle _ => handle.label
  | functionScore handle _ => handle.label

/-- The body of the query that the node stands for. -/
def body : BoundNode α → Compound α
  | bool _ node => .bool node.body
  | disMax _ node => .disMax node.body
  | functionScore _ node => .functionScore node.body

/-- The options of the query that the node stands for. -/
def options : BoundNode α → Parameters
  | bool _ node => Parameters.ofEntries [("boost", toValue node.boost)]
  | disMax _ node => Parameters.ofEntries [("boost", toValue node.boost)]
  | functionScore _ node =>
    Parameters.ofEntries [("max_boost", toValue node.maxBoost), ("boost", toValue node.boost)]

def map (f : α → β) : BoundNode α → BoundNode β
  | bool handle node => .bool handle { body := node.body.map f, boost := node.boost }
  | disMax handle node =>
    .disMax handle
      { body := { queries := node.body.queries.map f, tieBreaker := node.body.tieBreaker }
        boost := node.boost }
  | functionScore handle node =>
    .functionScore handle
      { body := node.body.map f, maxBoost := node.maxBoost, boost := node.boost }

/-- Deals a list out to the places of the sub-queries. -/
def refill (n : BoundNode α) (cs : List β) : BoundNode β :=
  match n with
  | bool handle node => .bool handle { body := node.body.refill cs, boost := node.boost }
  | disMax handle node =>
    .disMax handle
      { body := { queries := cs, tieBreaker := node.body.tieBreaker }, boost := node.boost }
  | functionScore handle node =>
    .functionScore handle
      { body := node.body.refill cs, maxBoost := node.maxBoost, boost := node.boost }

theorem body_map (g : α → β) (n : BoundNode α) : (n.map g).body = n.body.map g := by
  cases n <;> rfl

theorem refill_children_map (g : α → β) (n : BoundNode α) :
    n.refill (n.body.children.map g) = n.map g := by
  cases n with
  | bool handle node =>
    simp only [refill, map, body, Compound.children, BoolBody.refill_children_map]
  | disMax handle node => rfl
  | functionScore handle node =>
    simp only [refill, map, body, Compound.children, FunctionScoreBody.refill_children_map]

/-- Replaces the `i`-th sub-query; nothing changes when there is none. -/
def setChild (n : BoundNode α) (i : Nat) (x : α) : BoundNode α :=
  match n with
  | bool handle node => .bool handle { node with body := node.body.setChild i x }
  | disMax handle node =>
    .disMax handle { node with body := { node.body with queries := node.body.queries.set i x } }
  | functionScore handle node =>
    .functionScore handle { node with body := node.body.setChild i x }

/-- Changes the node if it is of the given kind; the handle stays. -/
def modify : (kind : NodeKind) → (Node α kind → Node α kind) → BoundNode α → BoundNode α
  | .bool, f, bool handle node => .bool handle (f node)
  | .disMax, f, disMax handle node => .disMax handle (f node)
  | .functionScore, f, functionScore handle node => .functionScore handle (f node)
  | _, _, n => n

end BoundNode

/-! ## 2. Edits -/

/-- One change to a node of the given kind. -/
inductive Edit (α : Type) : NodeKind → Type where
  | setBoost {kind : NodeKind} (boost : Option Double) : Edit α kind
  | addClause (occur : Occur) (clause : α) : Edit α .bool
  | clearClauses (occur : Occur) : Edit α .bool
  | dropLastClause (occur : Occur) : Edit α .bool
  /-- Unlike a query under construction, a node keeps a null value here, and writes it. -/
  | setMinimumShouldMatch (value : Option Value) : Edit α .bool
  | addQuery (query : α) : Edit α .disMax
  | clearQueries : Edit α .disMax
  | dropLastQuery : Edit α .disMax
  | setTieBreaker (x : Option Double) : Edit α .disMax
  | setQuery (query : Option α) : Edit α .functionScore
  | addFunction (function : ScoreFunction α) : Edit α .functionScore
  | clearFunctions : Edit α .functionScore
  | dropLastFunction : Edit α .functionScore
  | setScoreMode (mode : Option ScoreMode) : Edit α .functionScore
  | setBoostMode (mode : Option BoostMode) : Edit α .functionScore
  | setMinScore (x : Option Double) : Edit α .functionScore
  | setMaxBoost (x : Option Double) : Edit α .functionScore

namespace Edit

variable {α : Type}

/-- A bool node after an edit. -/
def applyBool (n : BoolNode α) : Edit α .bool → BoolNode α
  | setBoost boost => { n with boost }
  | addClause occur clause => { n with body := n.body.add occur clause }
  | clearClauses occur => { n with body := n.body.modifyClauses (fun _ => []) occur }
  | dropLastClause occur => { n with body := n.body.modifyClauses List.dropLast occur }
  | setMinimumShouldMatch value => { n with body := { n.body with minimumShouldMatch := value } }

/-- A dis_max node after an edit. -/
def applyDisMax (n : DisMaxNode α) : Edit α .disMax → DisMaxNode α
  | setBoost boost => { n with boost }
  | addQuery query => { n with body := { n.body with queries := n.body.queries ++ [query] } }
  | clearQueries => { n with body := { n.body with queries := [] } }
  | dropLastQuery => { n with body := { n.body with queries := n.body.queries.dropLast } }
  | setTieBreaker x => { n with body := { n.body with tieBreaker := x } }

/-- A function_score node after an edit. -/
def applyFunctionScore (n : FunctionScoreNode α) : Edit α .functionScore → FunctionScoreNode α
  | setBoost boost => { n with boost }
  | setQuery query => { n with body := { n.body with query } }
  | addFunction function =>
    { n with body := { n.body with functions := n.body.functions ++ [function] } }
  | clearFunctions => { n with body := { n.body with functions := [] } }
  | dropLastFunction =>
    { n with body := { n.body with functions := n.body.functions.dropLast } }
  | setScoreMode mode => { n with body := { n.body with scoreMode := mode } }
  | setBoostMode mode => { n with body := { n.body with boostMode := mode } }
  | setMinScore x => { n with body := { n.body with minScore := x } }
  | setMaxBoost x => { n with maxBoost := x }

/-- A node after an edit. -/
def apply : {kind : NodeKind} → Edit α kind → Node α kind → Node α kind
  | .bool, e, n => applyBool n e
  | .disMax, e, n => applyDisMax n e
  | .functionScore, e, n => applyFunctionScore n e

/-- A node after several edits, first to last. -/
def applyAll {kind : NodeKind} (edits : List (Edit α kind)) (n : Node α kind) : Node α kind :=
  edits.foldl (fun m e => e.apply m) n

end Edit

end SearchQuery
