import Mathlib.Logic.Function.Iterate
import SearchQuery.Proofs.Fold.Calls

/-!
# A fold on frames, step by step

The fold keeps two stacks, one of frames and one of results. What the frames on the one stack expect
of the other is `FoldState.Supplied`: every frame that leaves a query finds as many results as it
takes, and when no frame is left there is one result. A step preserves it (`supplied_step`), so that
nothing is ever missing on the way, and the steps come to an end because running does
(`exists_iterate_eq_run`).

Which queries are combined, and in which order, is said by their positions. `Query.foldPlaced` lists
them: those that the fold gets to (`mem_foldPlaced`), each before everything that it is below and
before everything to its right (`pairwise_foldPlaced`).
-/

namespace SearchQuery

namespace Query

variable {ρ σ : Type}

/-! ## 1. Steps -/

section Steps

open FoldState

variable (descend : Query → Bool) (combine : Query → List ρ → σ → ρ × σ)

/-- Working off all frames is a finite number of steps. -/
theorem exists_iterate_eq_run (f : FoldState ρ σ) :
    ∃ n, (step descend combine)^[n] f = run descend combine f := by
  fun_induction run descend combine f with
  | case1 f _ => exact ⟨0, rfl⟩
  | case2 f _ ih =>
      obtain ⟨n, hn⟩ := ih
      exact ⟨n + 1, hn⟩

/-- The frames, worked off with this number of results on the other stack, find all the results that
they take, and leave one. -/
def FoldState.Supplied : List Frame → Nat → Prop
  | [], n => n = 1
  | .enter _ :: frames, n => Supplied frames (n + 1)
  | .leave _ count :: frames, n => count ≤ n ∧ Supplied frames (n - count + 1)

/-- Each query that is entered adds one result. -/
theorem supplied_enterAll (cs : List Query) (frames : List Frame) (n : Nat) :
    Supplied (cs.map .enter ++ frames) n ↔ Supplied frames (n + cs.length) := by
  induction cs generalizing n with
  | nil => rfl
  | cons c cs ih =>
      rw [List.map_cons, List.cons_append, Supplied, ih, List.length_cons, Nat.add_assoc,
        Nat.add_comm 1]

theorem supplied_step {f : FoldState ρ σ} (h : Supplied f.frames f.results.length) :
    Supplied (step descend combine f).frames (step descend combine f).results.length := by
  obtain ⟨frames, results, s⟩ := f
  match frames, h with
  | [], h => exact h
  | .enter q :: frames, h =>
      by_cases hd : descend q = true
      · -- The sub-queries add the results that leaving the query takes.
        simp only [step, hd, if_true, supplied_enterAll, Supplied]
        refine ⟨Nat.le_add_left _ _, ?_⟩
        rwa [Nat.add_sub_cancel]
      · simp only [step, hd, if_false, Bool.false_eq_true, Supplied]
        exact ⟨Nat.zero_le _, h⟩
  | .leave q count :: frames, h =>
      simp only [step, List.length_cons, List.length_drop]
      exact h.2

theorem supplied_iterate {f : FoldState ρ σ} (h : Supplied f.frames f.results.length) (n : Nat) :
    Supplied ((step descend combine)^[n] f).frames
      ((step descend combine)^[n] f).results.length := by
  induction n generalizing f with
  | zero => exact h
  | succ n ih => exact ih (supplied_step descend combine h)

/-- Whenever a query is left, the results that are taken for it are there. -/
theorem le_length_results_of_iterate (t : Query) (s : σ) {n : Nat} {q : Query} {count : Nat}
    {frames : List Frame}
    (h : ((step descend combine)^[n] ⟨[.enter t], [], s⟩).frames = .leave q count :: frames) :
    count ≤ ((step descend combine)^[n] ⟨[.enter t], [], s⟩).results.length := by
  have hstart : Supplied [.enter t] 0 := rfl
  have hsupplied := supplied_iterate descend combine (f := ⟨[.enter t], [], s⟩) hstart n
  rw [h] at hsupplied
  exact hsupplied.1

/-- The steps end with the one result that recursion gives, in the state in which recursion ends. -/
theorem exists_iterate_eq_foldRec (t : Query) (s : σ) :
    ∃ n, (step descend combine)^[n] ⟨[.enter t], [], s⟩
      = ⟨[], [(foldRec descend combine t s).1], (foldRec descend combine t s).2⟩ := by
  obtain ⟨n, hn⟩ := exists_iterate_eq_run descend combine ⟨[.enter t], [], s⟩
  rw [run_enter, run_of_nil] at hn
  exact ⟨n, hn⟩

end Steps

/-! ## 2. The positions that a fold gets to -/

section Positions

variable (descend : Query → Bool)

/-- The queries that a fold combines, in order, with their positions. -/
def foldPlaced (q : Query) : List (Position × Query) :=
  ((q.operands descend).zipIdx.attach.flatMap fun c =>
    (foldPlaced c.1.1).map fun x => (c.1.2 :: x.1, x.2)) ++ [([], q)]
termination_by sizeOf q
decreasing_by
  exact sizeOf_lt_of_mem_children
    (mem_children_of_mem_operands (List.fst_mem_of_mem_zipIdx c.2))

theorem foldPlaced_eq (q : Query) :
    q.foldPlaced descend
      = ((q.operands descend).zipIdx.flatMap fun c =>
        (c.1.foldPlaced descend).map fun x => (c.2 :: x.1, x.2)) ++ [([], q)] := by
  rw [foldPlaced]
  conv => rhs; rw [← List.attach_map_subtype_val (q.operands descend).zipIdx, List.flatMap_map]

/-- Without the positions, these are the queries that `combine` is called with. -/
theorem map_snd_foldPlaced (q : Query) :
    (q.foldPlaced descend).map Prod.snd = q.postorder descend := by
  induction q using Query.induction with
  | step q ih =>
      have hoperands : q.operands descend = (q.operands descend).zipIdx.map Prod.fst :=
        (List.zipIdx_map_fst 0 _).symm
      rw [foldPlaced_eq, postorder_eq, List.map_append, List.map_flatMap]
      conv => rhs; rw [hoperands, List.flatMap_map]
      refine congrArg (· ++ [q]) (List.flatMap_congr fun c hc => ?_)
      rw [List.map_map]
      exact ih c.1 (mem_children_of_mem_operands (List.fst_mem_of_mem_zipIdx hc))

/-- Every query passed on the way down to the position lets the fold into it. -/
def Reached (q : Query) (p : Position) : Prop :=
  ∀ s x, s <+: p → s ≠ p → q.at? s = some x → descend x = true

theorem reached_nil (q : Query) : q.Reached descend [] := by
  intro s x hs hne
  exact absurd (List.prefix_nil.mp hs) hne

theorem reached_cons_iff {q : Query} {i : Nat} {p : Position} :
    q.Reached descend (i :: p) ↔
      descend q = true ∧ ∀ c, q.children[i]? = some c → c.Reached descend p := by
  have h := not_congr (exists_above_cons_iff (P := fun x => ¬ descend x = true) (q := q) (i := i)
    (p := p))
  simp only [not_or, not_exists, not_and, not_not] at h
  exact h

/-- The fold combines the queries that it gets to, and no others. -/
theorem mem_foldPlaced {q x : Query} {p : Position} :
    (p, x) ∈ q.foldPlaced descend ↔ q.at? p = some x ∧ q.Reached descend p := by
  induction p generalizing q with
  | nil =>
      rw [foldPlaced_eq, at?_nil, Option.some.injEq, List.mem_append, List.mem_singleton,
        Prod.mk.injEq, and_iff_left (q.reached_nil descend), or_iff_right (nil_notMem_numbered x),
        and_iff_right rfl, eq_comm]
  | cons i p ih =>
      have hne : (i :: p, x) ≠ (([] : Position), q) :=
        fun heq => List.cons_ne_nil i p (Prod.mk.inj heq).1
      rw [foldPlaced_eq, at?_cons_eq_some_iff, List.mem_append, List.mem_singleton,
        or_iff_left hne, cons_mem_numbered_iff, reached_cons_iff, operands]
      by_cases hd : descend q = true
      · simp only [hd, if_true, List.mem_zipIdx_iff_getElem?, ih, true_and]
        constructor
        · rintro ⟨c, hc, hx, hreached⟩
          refine ⟨⟨c, hc, hx⟩, fun d hget => ?_⟩
          rwa [Option.some.inj (hget.symm.trans hc)]
        · rintro ⟨⟨c, hc, hx⟩, hreached⟩
          exact ⟨c, hc, hx, hreached c hc⟩
      · simp only [hd, if_false, Bool.false_eq_true, List.zipIdx_nil, List.not_mem_nil, false_and,
          exists_false, and_false]

/-- The order of the leaves-up, left-to-right traversal: a position comes after those below it, and
after those to its left. -/
inductive PostorderLt : Position → Position → Prop where
  | up (i : Nat) (p : Position) : PostorderLt (i :: p) []
  | across {i j : Nat} (h : i < j) (p s : Position) : PostorderLt (i :: p) (j :: s)
  | cons (i : Nat) {p s : Position} (h : PostorderLt p s) : PostorderLt (i :: p) (i :: s)

theorem PostorderLt.ne {p s : Position} (h : PostorderLt p s) : p ≠ s := by
  induction h with
  | up i p => exact List.cons_ne_nil i p
  | across h p s => exact fun heq => h.ne (List.cons.inj heq).1
  | cons i h ih => exact fun heq => ih (List.cons.inj heq).2

theorem pairwise_foldPlaced (q : Query) :
    ((q.foldPlaced descend).map Prod.fst).Pairwise PostorderLt := by
  induction q using Query.induction with
  | step q ih =>
      rw [foldPlaced_eq, List.map_append, List.pairwise_append]
      refine ⟨pairwise_numbered (fun c hc => ?_) ?_, List.pairwise_singleton _ _,
        fun p hp s hs => ?_⟩
      · have hmem := mem_children_of_mem_operands (List.fst_mem_of_mem_zipIdx hc)
        exact (ih c.1 hmem).imp (.cons c.2)
      · exact (pairwise_zipIdx (q.operands descend)).imp fun hab p s => .across hab p s
      · -- The query itself comes after everything below it.
        obtain ⟨⟨p, x⟩, hx, rfl⟩ := List.mem_map.mp hp
        obtain rfl := List.mem_singleton.mp hs
        cases p with
        | nil => exact absurd hx (nil_notMem_numbered x)
        | cons i p => exact .up i p

theorem nodup_foldPlaced (q : Query) : ((q.foldPlaced descend).map Prod.fst).Nodup :=
  (q.pairwise_foldPlaced descend).imp PostorderLt.ne

end Positions

/-! ## 3. The value -/

section Value

variable (descend : Query → Bool) (combine : Query → List ρ → ρ)

/-- The recursion has one solution. -/
theorem eq_foldValue {F : Query → ρ}
    (hF : ∀ q, F q = combine q (if descend q then q.children.map F else [])) (q : Query) :
    F q = foldValue descend combine q := by
  induction q using Query.induction with
  | step q ih =>
      rw [hF, foldValue_eq]
      by_cases hd : descend q = true
      · rw [if_pos hd, if_pos hd, List.map_congr_left ih]
      · rw [if_neg hd, if_neg hd]

end Value

/-- The depth is what a fold returns, so that none has to be made up. -/
theorem fold_depth (q : Query) :
    fold (fun _ => true) (fun _ depths => 1 + depths.foldl max 0) q = some q.depth := by
  rw [depth, fold_eq, Option.getD_some]

theorem depth_eq_max? (q : Query) : q.depth = 1 + ((q.children.map depth).max?).getD 0 := by
  rw [depth_eq, List.foldl_max]
  cases hmax : (q.children.map depth).max? with
  | none => rfl
  | some n => exact congrArg (1 + ·) (Nat.zero_max n)

/-- A copy is what a fold returns, so that none has to be made up. -/
theorem fold_copy (q : Query) : fold (fun _ => true) withChildren q = some q.copy := by
  rw [copy, fold_eq, Option.getD_some]

/-- **The fold on frames is structural recursion.** Whatever the fold goes into and however results
are combined:

* after a finite number of steps no frame is left, and one result is, the one that recursion gives;
  until then, whenever a query is left the results it takes are there;
* `combine` is called for the queries that the fold gets to, each at its position once, and a
  position comes after those below it and after those to its left;
* without a state, the result is the only solution of the recursion, and each query is combined with
  the values of its sub-queries in their order, or with none if the fold does not go into it.

So the depth and the copy of a query are always what a fold returns, and a query is one deeper than
the deepest of its sub-queries. -/
theorem fold_is_recursion (t : Query) (descend : Query → Bool) :
    (∀ (ρ σ : Type) (combine : Query → List ρ → σ → ρ × σ) (s : σ), ∃ r s' calls,
      foldRec descend combine t s = (r, s') ∧
      (∃ n, (FoldState.step descend combine)^[n] ⟨[.enter t], [], s⟩ = ⟨[], [r], s'⟩) ∧
      (∀ n q count frames,
        ((FoldState.step descend combine)^[n] ⟨[.enter t], [], s⟩).frames
            = .leave q count :: frames →
          count ≤ ((FoldState.step descend combine)^[n] ⟨[.enter t], [], s⟩).results.length) ∧
      foldState descend combine t s = (some r, s') ∧
      foldState descend (noting combine) t (s, []) = (some r, s', calls) ∧
      calls.map Prod.fst = (t.foldPlaced descend).map Prod.snd) ∧
    (∀ (p : Position) (x : Query),
      (p, x) ∈ t.foldPlaced descend ↔ t.at? p = some x ∧ t.Reached descend p) ∧
    ((t.foldPlaced descend).map Prod.fst).Nodup ∧
    ((t.foldPlaced descend).map Prod.fst).Pairwise PostorderLt ∧
    (∀ (ρ : Type) (combine : Query → List ρ → ρ), ∃ F : Query → ρ,
      (∀ q, F q = combine q (if descend q then q.children.map F else [])) ∧
      (∀ G : Query → ρ, (∀ q, G q = combine q (if descend q then q.children.map G else [])) →
        G = F) ∧
      fold descend combine t = some (F t) ∧
      foldState descend (noting fun x rs (_ : Unit) => (combine x rs, ())) t ((), [])
        = (some (F t), (), (t.foldPlaced descend).map fun x =>
          (x.2, if descend x.2 then x.2.children.map F else []))) ∧
    fold (fun _ => true) (fun _ depths => 1 + depths.foldl max 0) t = some t.depth ∧
    t.depth = 1 + ((t.children.map depth).max?).getD 0 ∧
    fold (fun _ => true) withChildren t = some t.copy := by
  refine ⟨fun ρ σ combine s => ?_, fun p x => mem_foldPlaced descend, t.nodup_foldPlaced descend,
    t.pairwise_foldPlaced descend, fun ρ combine => ?_, t.fold_depth, t.depth_eq_max?, t.fold_copy⟩
  · -- The calls can be listed without knowing anything about the results.
    obtain ⟨-, calls, hcalls, hnoted⟩ :=
      foldRec_noting descend combine (fun _ _ => True) (fun _ _ _ _ => trivial) t s []
    have horder : calls.map Prod.fst = (t.foldPlaced descend).map Prod.snd := by
      rw [hcalls.order, List.flatMap_singleton, map_snd_foldPlaced]
    refine ⟨(foldRec descend combine t s).1, (foldRec descend combine t s).2, calls, rfl,
      exists_iterate_eq_foldRec descend combine t s, fun n q count frames h =>
        le_length_results_of_iterate descend combine t s h,
      foldState_eq descend combine t s, ?_, horder⟩
    rw [foldState_eq, hnoted, List.nil_append]
  · refine ⟨foldValue descend combine, foldValue_eq descend combine, fun G hG => ?_,
      fold_eq descend combine t, ?_⟩
    · exact funext (eq_foldValue descend combine hG)
    · rw [foldState_noting_value, ← map_snd_foldPlaced, List.map_map]
      refine congrArg (fun calls => (_, (), calls)) (List.map_congr_left fun x _ => ?_)
      rw [Function.comp_apply, operands]
      split
      · rfl
      · rfl

end Query

end SearchQuery
