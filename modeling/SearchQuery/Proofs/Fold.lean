import SearchQuery.Query.Fold

/-!
# The fold on frames is structural recursion

`Query.fold` works off a stack of frames and keeps the results that no frame has taken yet on a
second stack. This file says what one frame on top of any other work does (`run_enter`), and from
that what a whole fold returns: `foldState_eq` with a state that goes through the calls, `fold_eq`
without one. Everything proved of reduction, depth and copying starts from `fold_eq` and never
looks at a frame again.
-/

namespace SearchQuery

namespace Query

open FoldState

variable {ρ σ : Type}

/-! ## 1. Working off one frame -/

section Run

variable (descend : Query → Bool) (combine : Query → List ρ → σ → ρ × σ)

theorem run_of_nil (results : List ρ) (s : σ) :
    run descend combine ⟨[], results, s⟩ = ⟨[], results, s⟩ := by
  rw [run, dif_pos rfl]

theorem run_of_cons (frame : Frame) (frames : List Frame) (results : List ρ) (s : σ) :
    run descend combine ⟨frame :: frames, results, s⟩
      = run descend combine (step descend combine ⟨frame :: frames, results, s⟩) := by
  rw [run, dif_neg (List.cons_ne_nil frame frames)]

/-- Leaving a query takes its results off the stack, the latest of which was put there last. -/
theorem run_leave (q : Query) (frames : List Frame) (taken results : List ρ) (s : σ) :
    run descend combine ⟨.leave q taken.length :: frames, taken.reverse ++ results, s⟩
      = run descend combine
        ⟨frames, (combine q taken s).1 :: results, (combine q taken s).2⟩ := by
  have htake : (taken.reverse ++ results).take taken.length = taken.reverse := by
    rw [← List.length_reverse, List.take_left]
  have hdrop : (taken.reverse ++ results).drop taken.length = results := by
    rw [← List.length_reverse, List.drop_left]
  rw [run_of_cons]
  simp only [step, htake, hdrop, List.reverse_reverse]

theorem length_foldRecList (cs : List Query) (s : σ) :
    (foldRecList descend combine cs s).1.length = cs.length := by
  induction cs generalizing s with
  | nil => rw [foldRecList]; rfl
  | cons c cs ih =>
      rw [foldRecList]
      simp only [List.length_cons, ih]

/-- A frame that enters a query puts the value of the query on the results, whatever else there is
to do. The induction is on the query; its sub-queries are entered from left to right, so that the
last of them ends up on top. -/
theorem run_enter (q : Query) : ∀ (frames : List Frame) (results : List ρ) (s : σ),
    run descend combine ⟨.enter q :: frames, results, s⟩
      = run descend combine ⟨frames, (foldRec descend combine q s).1 :: results,
        (foldRec descend combine q s).2⟩ := by
  induction q using Query.induction with
  | step q ih =>
      intro frames results s
      -- The frames of the sub-queries all stand on top of the same rest.
      have enterAll : ∀ (cs : List Query), (∀ c ∈ cs, c ∈ q.children) →
          ∀ (frames : List Frame) (results : List ρ) (s : σ),
          run descend combine ⟨cs.map .enter ++ frames, results, s⟩
            = run descend combine ⟨frames,
              (foldRecList descend combine cs s).1.reverse ++ results,
              (foldRecList descend combine cs s).2⟩ := by
        intro cs
        induction cs with
        | nil => intro _ frames results s; rw [foldRecList]; rfl
        | cons c cs ihcs =>
            intro hcs frames results s
            rw [List.map_cons, List.cons_append, ih c (hcs c List.mem_cons_self),
              ihcs (fun d hd => hcs d (List.mem_cons_of_mem c hd)), foldRecList]
            simp only [List.reverse_cons, List.append_assoc, List.singleton_append]
      rw [run_of_cons]
      unfold foldRec
      by_cases hd : descend q
      · simp only [step, hd, if_true]
        rw [enterAll q.children (fun c hc => hc),
          ← length_foldRecList descend combine q.children s, run_leave]
      · simp only [step, hd, if_false, Bool.false_eq_true]
        exact run_leave descend combine q frames [] results s

/-- The fold ends with one result, the value that recursion gives, and in the state in which
recursion ends. -/
theorem foldState_eq (q : Query) (s : σ) :
    foldState descend combine q s
      = (some (foldRec descend combine q s).1, (foldRec descend combine q s).2) := by
  simp only [foldState, run_enter, run_of_nil, List.head?_cons]

end Run

/-! ## 2. Without a state -/

section Value

variable (descend : Query → Bool) (combine : Query → List ρ → ρ)

/-- The value of a fold whose calls pass no state on. -/
def foldValue (q : Query) : ρ :=
  (foldRec descend (fun q rs (_ : Unit) => (combine q rs, ())) q ()).1

/-- The recursion that a fold computes. -/
theorem foldValue_eq (q : Query) :
    foldValue descend combine q
      = combine q (if descend q then q.children.map (foldValue descend combine) else []) := by
  have values : ∀ cs : List Query,
      (foldRecList descend (fun q rs (_ : Unit) => (combine q rs, ())) cs ()).1
        = cs.map (foldValue descend combine) := by
    intro cs
    induction cs with
    | nil => rw [foldRecList]; rfl
    | cons c cs ih =>
        rw [foldRecList, List.map_cons, ← ih]
        rfl
  rw [← values, foldValue, foldRec]
  by_cases hd : descend q
  · simp only [hd, if_true]
  · simp only [hd, if_false, Bool.false_eq_true]

/-- A fold always has a result, and it is the value of the recursion. -/
theorem fold_eq (q : Query) :
    fold descend combine q = some (foldValue descend combine q) := by
  rw [fold, foldState_eq]
  rfl

end Value

/-! ## 3. Depth -/

/-- A query is one deeper than the deepest of its sub-queries. -/
theorem depth_eq (q : Query) : q.depth = 1 + (q.children.map depth).foldl max 0 := by
  have value : depth = foldValue (fun _ => true) fun _ depths => 1 + depths.foldl max 0 := by
    funext q
    rw [depth, fold_eq, Option.getD_some]
  rw [value, foldValue_eq, if_pos rfl]

theorem foldl_max_le_iff {l : List Nat} {a n : Nat} :
    l.foldl max a ≤ n ↔ a ≤ n ∧ ∀ x ∈ l, x ≤ n := by
  induction l generalizing a with
  | nil => exact ⟨fun h => ⟨h, fun x hx => absurd hx List.not_mem_nil⟩, fun h => h.1⟩
  | cons x l ih => rw [List.foldl_cons, ih, Nat.max_le, List.forall_mem_cons, and_assoc]

theorem depth_pos (q : Query) : 0 < q.depth := by
  rw [depth_eq]
  omega

theorem depth_le_succ_iff {q : Query} {n : Nat} :
    q.depth ≤ n + 1 ↔ ∀ c ∈ q.children, c.depth ≤ n := by
  have hmax : (q.children.map depth).foldl max 0 ≤ n ↔ ∀ c ∈ q.children, c.depth ≤ n := by
    rw [foldl_max_le_iff, List.forall_mem_map]
    exact and_iff_right (Nat.zero_le n)
  rw [← hmax, depth_eq]
  omega

theorem depth_lt_of_mem_children {c q : Query} (h : c ∈ q.children) : c.depth < q.depth := by
  have hpos := q.depth_pos
  have hle : q.depth ≤ (q.depth - 1) + 1 := by omega
  have hc := depth_le_succ_iff.mp hle c h
  omega

end Query

end SearchQuery
