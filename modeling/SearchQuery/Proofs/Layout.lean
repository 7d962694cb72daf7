import SearchQuery.Proofs.Compilation
import SearchQuery.Proofs.Reduction
import SearchQuery.Proofs.TreeHolder

/-!
# The layout of a body

The body of a request has a fixed part, whose fields come in a fixed order and only where they are
set, and the extra fields. The two may use the same keys. A key of both keeps its place in the fixed
part and has the extra field's value; the other extra fields follow in their own order. That is what
the insertion of the extra fields into the fixed part comes to (`compile_eq`), provided that no
extra field stands twice in its container, which building a request keeps up (`distinct_body_run`).
-/

namespace SearchQuery

open OrderedMap

/-! ## 1. Fields that may be absent -/

/-- The document of a rescorer: its window if it has one, and an object with the query and the
options. An option that is called like the query takes its place. -/
def Rescore.document (e : Rescore) : JsonObject :=
  ⟨present
    [("window_size", e.windowSize.map fun n => (toValue n).toJson),
      ("query", some (.object
        ((⟨[("rescore_query", .object e.query.toJson)]⟩ : JsonObject).insertAll
          (e.options.map Value.toJson).entries)))]⟩

namespace SearchRequest

/-- What there is after a step, also after a refused one. -/
def after (r : SearchRequest) (step : Step) : SearchRequest := ((take step).runOn r).2

theorem body_withTrees (r : SearchRequest) (ts : List Query) : (r.withTrees ts).body = r.body := by
  unfold withTrees
  rcases r.query with _ | q <;> rfl

theorem body_fillParam (r : SearchRequest) (key : String) (value : Value) :
    (r.fillParam key value).body = r.body := by
  unfold fillParam
  by_cases h : r.params.contains key = true
  · rw [if_pos h]
  · rw [if_neg h]
    rfl

/-- A step leaves the extra fields alone unless it assigns one of them. -/
theorem distinct_body_after {r : SearchRequest} (hr : r.body.Distinct) (step : Step) :
    (r.after step).body.Distinct := by
  cases step with
  | bodyParam key value => exact Parameters.distinct_assign hr key value
  | withDefaults d =>
      show (r.withDefaults d).body.Distinct
      unfold withDefaults
      rw [body_fillParam, body_fillParam, body_fillParam]
      exact hr
  | mutate handle edits =>
      show ((mutateSteps handle (Edit.applyAll edits)).runOn r).2.body.Distinct
      rw [snd_runOn_mutateSteps, body_withTrees]
      exact hr
  | _ => exact hr

/-- However a request has been built, no extra field stands twice in it. -/
theorem distinct_body_run (steps : List Step) : (steps.foldl after {}).body.Distinct := by
  have run (r : SearchRequest) (hr : r.body.Distinct) : (steps.foldl after r).body.Distinct := by
    induction steps generalizing r with
    | nil => exact hr
    | cons step steps ih => exact ih (r.after step) (distinct_body_after hr step)
  exact run {} distinct_empty

end SearchRequest

end SearchQuery
