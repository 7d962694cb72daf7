import Mathlib.Data.List.Forall2
import SearchQuery.Proofs.Fold
import SearchQuery.Proofs.Walk

/-!
# The calls that a fold makes

What a fold returns does not tell how often it calls the function that combines results, in which
order, and what it hands over. `noting` lets any such function keep a list of its calls beside its
own state, which changes nothing else about the fold. The list then holds each query that the fold
goes into exactly once, after everything below it (`postorder`), and each of them with one result
for each of its sub-queries, of whatever kind the results of sub-queries are (`foldState_noting`).
A fold that goes everywhere makes its calls in the reverse order of a walk (`postorder_eq_walk`).
-/

namespace SearchQuery

namespace Query

variable {ρ σ : Type}

/-! ## 1. The order of the calls -/

/-- The sub-queries whose results a query is combined with. -/
def operands (descend : Query → Bool) (q : Query) : List Query :=
  if descend q then q.children else []

theorem mem_children_of_mem_operands {descend : Query → Bool} {c q : Query}
    (h : c ∈ q.operands descend) : c ∈ q.children := by
  rw [operands] at h
  split at h
  · exact h
  · exact absurd h List.not_mem_nil

/-- The queries that a fold goes through, each after those below it, the sub-queries of a query from
left to right. -/
def postorder (descend : Query → Bool) (q : Query) : List Query :=
  ((q.operands descend).attach.flatMap fun c => postorder descend c.1) ++ [q]
termination_by sizeOf q
decreasing_by exact sizeOf_lt_of_mem_children (mem_children_of_mem_operands c.2)

theorem postorder_eq (descend : Query → Bool) (q : Query) :
    q.postorder descend = (q.operands descend).flatMap (postorder descend) ++ [q] := by
  rw [postorder]
  conv => rhs; rw [← List.attach_map_subtype_val (q.operands descend), List.flatMap_map]

/-- The order of a fold that goes everywhere is that of a walk, backwards: a walk takes the
sub-queries from right to left, and each query before those below it. -/
theorem postorder_eq_walk (q : Query) : q.postorder (fun _ => true) = q.walk.reverse := by
  induction q using Query.induction with
  | step q ih =>
      rw [postorder_eq, walk_cons, List.reverse_cons, List.reverse_flatMap, List.reverse_reverse]
      exact congrArg (· ++ [q]) (List.flatMap_congr ih)

/-! ## 2. Noting the calls -/

/-- Combines as before, and notes the query and the results that it was called with. -/
def noting (combine : Query → List ρ → σ → ρ × σ) (q : Query) (rs : List ρ)
    (s : σ × List (Query × List ρ)) : ρ × σ × List (Query × List ρ) :=
  ((combine q rs s.1).1, (combine q rs s.1).2, s.2 ++ [(q, rs)])

section Noting

variable (descend : Query → Bool) (combine : Query → List ρ → σ → ρ × σ)

theorem foldRec_eq (q : Query) (s : σ) :
    foldRec descend combine q s
      = combine q (foldRecList descend combine (q.operands descend) s).1
        (foldRecList descend combine (q.operands descend) s).2 := by
  rw [foldRec, operands]
  by_cases hd : descend q
  · simp only [hd, if_true]
  · simp only [hd, if_false, Bool.false_eq_true]
    rw [foldRecList]

/-- The calls for several queries, one after the other. Each call gets one result for each of its
operands, and `Valued` says what is known of the result of a query. -/
structure CallsFor (Valued : Query → ρ → Prop) (qs : List Query)
    (calls : List (Query × List ρ)) : Prop where
  order : calls.map Prod.fst = qs.flatMap (postorder descend)
  results : ∀ call ∈ calls, List.Forall₂ Valued (call.1.operands descend) call.2

variable {descend} {Valued : Query → ρ → Prop}

theorem CallsFor.append {qs qs' : List Query} {calls calls' : List (Query × List ρ)}
    (h : CallsFor descend Valued qs calls) (h' : CallsFor descend Valued qs' calls') :
    CallsFor descend Valued (qs ++ qs') (calls ++ calls') where
  order := by rw [List.map_append, h.order, h'.order, List.flatMap_append]
  results := List.forall_mem_append.mpr ⟨h.results, h'.results⟩

/-- The call for a query comes after those for its operands. -/
theorem CallsFor.call {q : Query} {calls : List (Query × List ρ)} {rs : List ρ}
    (h : CallsFor descend Valued (q.operands descend) calls)
    (hrs : List.Forall₂ Valued (q.operands descend) rs) :
    CallsFor descend Valued [q] (calls ++ [(q, rs)]) where
  order := by
    rw [List.map_append, h.order, List.flatMap_singleton, postorder_eq descend q]
    rfl
  results := List.forall_mem_append.mpr ⟨h.results, List.forall_mem_singleton.mpr hrs⟩

variable (descend Valued)

/-- A fold by recursion is not changed by noting its calls, and these come in order. What is known
of the results has to pass from the operands of a query to the query. -/
theorem foldRec_noting
    (hcombine : ∀ q rs s, List.Forall₂ Valued (q.operands descend) rs →
      Valued q (combine q rs s).1)
    (q : Query) : ∀ (s : σ) (before : List (Query × List ρ)),
    Valued q (foldRec descend combine q s).1 ∧
      ∃ calls, CallsFor descend Valued [q] calls ∧
        foldRec descend (noting combine) q (s, before)
          = ((foldRec descend combine q s).1, (foldRec descend combine q s).2,
            before ++ calls) := by
  induction q using Query.induction with
  | step q ih =>
      -- The same for several of the sub-queries: their calls are strung together.
      have several : ∀ cs : List Query, (∀ c ∈ cs, c ∈ q.children) →
          ∀ (s : σ) (before : List (Query × List ρ)),
          List.Forall₂ Valued cs (foldRecList descend combine cs s).1 ∧
            ∃ calls, CallsFor descend Valued cs calls ∧
              foldRecList descend (noting combine) cs (s, before)
                = ((foldRecList descend combine cs s).1, (foldRecList descend combine cs s).2,
                  before ++ calls) := by
        intro cs
        induction cs with
        | nil =>
            intro _ s before
            rw [foldRecList, foldRecList, List.forall₂_nil_left_iff]
            refine ⟨rfl, [], ⟨rfl, fun call hcall => absurd hcall List.not_mem_nil⟩, ?_⟩
            rw [List.append_nil]
        | cons c cs ihcs =>
            intro hcs s before
            obtain ⟨hvalue, first, hfirst, heq⟩ := ih c (hcs c List.mem_cons_self) s before
            obtain ⟨hvalues, rest, hrest, heqs⟩ :=
              ihcs (fun d hd => hcs d (List.mem_cons_of_mem c hd))
                (foldRec descend combine c s).2 (before ++ first)
            rw [foldRecList, foldRecList, heq]
            simp only [heqs, List.append_assoc]
            exact ⟨.cons hvalue hvalues, first ++ rest, hfirst.append hrest, rfl⟩
      intro s before
      obtain ⟨hvalues, calls, hcalls, heq⟩ :=
        several (q.operands descend) (fun c => mem_children_of_mem_operands) s before
      rw [foldRec_eq, foldRec_eq, heq]
      refine ⟨hcombine q _ _ hvalues, calls ++ [(q, _)], hcalls.call hvalues, ?_⟩
      rw [noting, List.append_assoc]

/-- The fold on frames with its calls noted. -/
theorem foldState_noting
    (hcombine : ∀ q rs s, List.Forall₂ Valued (q.operands descend) rs →
      Valued q (combine q rs s).1)
    (q : Query) (s : σ) :
    ∃ calls, calls.map Prod.fst = q.postorder descend ∧
      (∀ call ∈ calls, List.Forall₂ Valued (call.1.operands descend) call.2) ∧
      foldState descend (noting combine) q (s, [])
        = ((foldState descend combine q s).1, (foldState descend combine q s).2, calls) := by
  obtain ⟨-, calls, hcalls, heq⟩ := foldRec_noting descend combine Valued hcombine q s []
  refine ⟨calls, ?_, hcalls.results, ?_⟩
  · rw [hcalls.order, List.flatMap_singleton]
  · rw [foldState_eq, foldState_eq, heq, List.nil_append]

end Noting

/-! ## 3. The calls of a fold without a state -/

section Value

variable (descend : Query → Bool) (combine : Query → List ρ → ρ)

theorem foldValue_eq_operands (q : Query) :
    foldValue descend combine q
      = combine q ((q.operands descend).map (foldValue descend combine)) := by
  rw [foldValue_eq, operands]
  split
  · rfl
  · rfl

/-- Every query that the fold goes into is combined with the values of its operands. -/
theorem foldState_noting_value (q : Query) :
    foldState descend (noting fun x rs (_ : Unit) => (combine x rs, ())) q ((), [])
      = (some (foldValue descend combine q), (), (q.postorder descend).map fun x =>
        (x, (x.operands descend).map (foldValue descend combine))) := by
  -- The result for a query is its value.
  obtain ⟨calls, horder, hresults, heq⟩ :=
    foldState_noting descend (fun x rs (_ : Unit) => (combine x rs, ()))
      (fun x r => foldValue descend combine x = r)
      (fun x rs _ hrs => by
        rw [← List.forall₂_map_left_iff, List.forall₂_eq_eq_eq] at hrs
        rw [foldValue_eq_operands, hrs])
      q ()
  have hcalls : calls = (q.postorder descend).map fun x =>
      (x, (x.operands descend).map (foldValue descend combine)) := by
    rw [← horder, List.map_map]
    refine (List.map_id' calls).symm.trans (List.map_congr_left fun call hcall => ?_)
    have hresult := hresults call hcall
    rw [← List.forall₂_map_left_iff, List.forall₂_eq_eq_eq] at hresult
    exact Prod.ext rfl hresult.symm
  have hvalue : (foldState descend (fun x rs (_ : Unit) => (combine x rs, ())) q ()).1
      = some (foldValue descend combine q) :=
    fold_eq descend combine q
  rw [heq, hvalue, hcalls]

end Value

end Query

end SearchQuery
