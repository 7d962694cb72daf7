import SearchQuery.Query

/-!
# Folding a query without the call stack

Queries nest arbitrarily deep, so a traversal from the leaves up keeps its own stack. A frame on it
either enters a query or leaves it: entering pushes the sub-queries, to be entered from left to
right before their query is left, and leaving takes as many results as there were sub-queries off
the stack of results and puts the query's own result there.

The function that combines results also carries a state through its calls, so that a statement about
a fold can speak of the order of the calls. `Query.foldRec` is the same fold by plain recursion.
-/

namespace SearchQuery

namespace Query

variable {ρ σ : Type}

/-! ## 1. The fold that runs -/

/-- A step that is still to be done. -/
inductive Frame where
  | enter (q : Query)
  /-- Combines the given number of results. -/
  | leave (q : Query) (count : Nat)

/-- What is left to do for a frame: entering is done before leaving. -/
noncomputable def Frame.weight : Frame → Nat
  | .enter q => 2 * sizeOf q
  | .leave _ _ => 1

private theorem total_weight_enter (l : List Query) :
    total Frame.weight (l.map Frame.enter) = 2 * total sizeOf l := by
  induction l with
  | nil => rfl
  | cons q l ih => simp only [List.map_cons, total_cons, ih, Frame.weight]; omega

private theorem sizeOf_pos (q : Query) : 0 < sizeOf q := by
  cases q; simp only [of.sizeOf_spec]; omega

/-- A fold part way through: the frames still to be worked off, the results that no `leave` has
taken yet, the latest first, and the state of `combine`. -/
structure FoldState (ρ σ : Type) where
  frames : List Frame
  results : List ρ
  state : σ

namespace FoldState

noncomputable def weight (f : FoldState ρ σ) : Nat := total Frame.weight f.frames

/-- Works off the topmost frame. -/
def step (descend : Query → Bool) (combine : Query → List ρ → σ → ρ × σ)
    (f : FoldState ρ σ) : FoldState ρ σ :=
  match f.frames with
  | [] => f
  | .enter q :: frames =>
    if descend q then
      { f with frames := q.children.map .enter ++ .leave q q.children.length :: frames }
    else { f with frames := .leave q 0 :: frames }
  | .leave q count :: frames =>
    let (r, state) := combine q (f.results.take count).reverse f.state
    { frames, results := r :: f.results.drop count, state }

theorem weight_step_lt (descend : Query → Bool) (combine : Query → List ρ → σ → ρ × σ)
    (f : FoldState ρ σ) (h : f.frames ≠ []) : (f.step descend combine).weight < f.weight := by
  rcases f with ⟨frames, results, state⟩
  match frames, h with
  | .enter q :: frames, _ =>
    have := q.total_sizeOf_children_lt
    have := sizeOf_pos q
    cases hd : descend q <;>
      simp only [step, weight, hd, if_true, if_false, Bool.false_eq_true, total_append,
        total_cons, total_weight_enter, Frame.weight] <;>
      omega
  | .leave q count :: frames, _ =>
    simp only [step, weight, total_cons, Frame.weight]
    omega

/-- Works off all frames. -/
def run (descend : Query → Bool) (combine : Query → List ρ → σ → ρ × σ)
    (f : FoldState ρ σ) : FoldState ρ σ :=
  if _h : f.frames = [] then f else run descend combine (f.step descend combine)
termination_by f.weight
decreasing_by exact weight_step_lt descend combine f _h

end FoldState

/-- Folds a query from the leaves up. `combine` gets each query with the results of its direct
sub-queries, in their order, or with none if `descend` does not let the fold into the query. -/
def foldState (descend : Query → Bool) (combine : Query → List ρ → σ → ρ × σ) (q : Query)
    (s : σ) : Option ρ × σ :=
  let done := FoldState.run descend combine ⟨[.enter q], [], s⟩
  (done.results.head?, done.state)

/-- The fold without a state. -/
def fold (descend : Query → Bool) (combine : Query → List ρ → ρ) (q : Query) : Option ρ :=
  (foldState descend (fun q rs (_ : Unit) => (combine q rs, ())) q ()).1

/-! ## 2. The fold by recursion -/

mutual

/-- The same fold by recursion on the query. -/
def foldRec (descend : Query → Bool) (combine : Query → List ρ → σ → ρ × σ) (q : Query)
    (s : σ) : ρ × σ :=
  let (rs, s) := if descend q then foldRecList descend combine q.children s else ([], s)
  combine q rs s
termination_by 2 * sizeOf q
decreasing_by have := q.total_sizeOf_children_lt; omega

/-- The results of several queries, left to right. -/
def foldRecList (descend : Query → Bool) (combine : Query → List ρ → σ → ρ × σ) :
    List Query → σ → List ρ × σ
  | [], s => ([], s)
  | c :: cs, s =>
    let (r, s) := foldRec descend combine c s
    let (rs, s) := foldRecList descend combine cs s
    (r :: rs, s)
termination_by cs => 1 + 2 * total sizeOf cs
decreasing_by
  · simp only [total_cons]; omega
  · have := sizeOf_pos c
    simp only [total_cons]; omega

end

/-! ## 3. Depth and copying -/

/-- The number of queries on the longest way down, the topmost one included. -/
def depth (q : Query) : Nat :=
  (fold (fun _ => true) (fun _ depths => 1 + depths.foldl max 0) q).getD 1

/-- A copy, built anew from the leaves up. -/
def copy (q : Query) : Query :=
  (fold (fun _ => true) withChildren q).getD default

end Query

end SearchQuery
