import SearchQuery.Proofs.Equality.Reflexivity
import SearchQuery.Proofs.Fold.Calls

/-!
# A copy is the query itself

A copy is built anew from the leaves up: every level takes the copies of its sub-queries back from a
list. Since a fold hands each query exactly one result for each of its sub-queries, in their order,
the levels get back what they held, and the places in which something would have to be made up
because a list is too short never come up (`foldState_noting_withChildren`). Whether a copy also
*equals* the query is another question, which only the NaNs in it decide.
-/

namespace SearchQuery

namespace Query

/-- Rebuilding every level from its rebuilt sub-queries gives the query. -/
theorem foldValue_withChildren (q : Query) : foldValue (fun _ => true) withChildren q = q := by
  induction q using Query.induction with
  | step q ih =>
      rw [foldValue_eq, if_pos rfl, List.map_congr_left ih, List.map_id', withChildren_children]

theorem fold_withChildren (q : Query) : fold (fun _ => true) withChildren q = some q := by
  rw [fold_eq, foldValue_withChildren]

theorem copy_eq (q : Query) : q.copy = q := by
  rw [copy, fold_withChildren, Option.getD_some]

/-- What copying calls for: one new level for each query of the tree, those below it first, and each
from exactly the sub-queries that the old level held. -/
theorem foldState_noting_withChildren (q : Query) :
    foldState (fun _ => true) (noting fun x cs (_ : Unit) => (x.withChildren cs, ())) q ((), [])
      = (some q, (), q.walk.reverse.map fun x => (x, x.children)) := by
  have hvalues (l : List Query) : l.map (foldValue (fun _ => true) withChildren) = l :=
    (List.map_congr_left fun x _ => foldValue_withChildren x).trans (List.map_id l)
  rw [foldState_noting_value, foldValue_withChildren, postorder_eq_walk]
  simp only [hvalues, operands, if_true]

/-- **Copying is the identity.** A copy is the same tree in every respect. Nothing is made up on the
way: the fold has a result, and it rebuilds each query from the very sub-queries that it has. The
copy of a query whose containers are proper equals the query exactly if the query stores no NaN. -/
theorem copying_is_identity (t : Query) :
    t.copy = t ∧ fold (fun _ => true) withChildren t = some t ∧
    foldState (fun _ => true) (noting fun x cs (_ : Unit) => (x.withChildren cs, ())) t ((), [])
      = (some t, (), t.walk.reverse.map fun x => (x, x.children)) ∧
    (t.WellFormed → ((t.copy == t) = true ↔ ∀ x ∈ t.floats, x.isNaN = false)) := by
  refine ⟨t.copy_eq, t.fold_withChildren, t.foldState_noting_withChildren, fun h => ?_⟩
  rw [copy_eq]
  exact beq_self_iff h

/-- A query with a clause, both boosted by a NaN. -/
def boostedByNaN : Query := weightedQuery ⟨[("boost", .float .nan)]⟩

/-- It is copied like any other query, and the copy does not equal it. -/
theorem copying_boosted_by_nan :
    boostedByNaN.WellFormed ∧ boostedByNaN.copy = boostedByNaN ∧
    ¬ (boostedByNaN.copy == boostedByNaN) = true := by
  have hwell : boostedByNaN.WellFormed :=
    wellFormed_weightedQuery (Parameters.WellFormed.empty.insert "boost" (.float .nan))
  obtain ⟨hcopy, -, -, hequal⟩ := copying_is_identity boostedByNaN
  refine ⟨hwell, hcopy, fun hbeq => ?_⟩
  have hnan := (hequal hwell).mp hbeq .nan
    (List.mem_flatMap.mpr ⟨_, mem_walk.mpr ⟨[], rfl⟩, List.mem_singleton.mpr rfl⟩)
  exact absurd hnan (by decide)

end Query

end SearchQuery
