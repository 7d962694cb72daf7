import SearchQuery.Proofs.Layout

/-!
# The body and the address do not influence each other

A request has two halves, and both are built in one run of steps: what is written into the body, and
the parameters of the address. Taking over defaults works on both halves at once, and an edit
through a handle may be refused. Still each half is a matter of its own steps alone
(`halves_independent`). The argument is the usual one for two runs: of what a half is made of, a
step that is its own makes something that depends on this half only, and a step that is not leaves
it as it is (`view_run_eq`).
-/

namespace SearchQuery

/-! ## 1. Runs seen from one side -/

section View

variable {σ τ α : Type} (view : σ → τ) (step : σ → α → σ) (own : α → Bool)

/-- A view that sees of its own steps only what it saw before, and nothing of the others, is the
same as if the others had been left out. -/
theorem view_filter_run (hown : ∀ s s' a, view s = view s' → view (step s a) = view (step s' a))
    (hother : ∀ s a, own a = false → view (step s a) = view s) (run : List α) {s s' : σ}
    (h : view s = view s') : view (run.foldl step s) = view ((run.filter own).foldl step s') := by
  induction run generalizing s s' with
  | nil => exact h
  | cons a run ih =>
      by_cases ha : own a = true
      · rw [List.filter_cons_of_pos ha]
        exact ih (hown s s' a h)
      · -- The step is taken on one side only, where it is not seen.
        rw [List.filter_cons_of_neg ha]
        exact ih ((hother s a (Bool.not_eq_true _ ▸ ha)).trans h)

/-- Two runs with the same steps of the view's own, in the same order, end in the same view. -/
theorem view_run_eq (hown : ∀ s s' a, view s = view s' → view (step s a) = view (step s' a))
    (hother : ∀ s a, own a = false → view (step s a) = view s) {run run' : List α}
    (h : run.filter own = run'.filter own) (s : σ) :
    view (run.foldl step s) = view (run'.foldl step s) := by
  rw [view_filter_run view step own hown hother run rfl,
    view_filter_run view step own hown hother run' rfl, h]

end View

namespace SearchRequest

/-! ## 2. The two halves of a request -/

/-- What can be done to a request that is being built: any of the steps, and an edit through a
handle by any function on its node. -/
inductive Action where
  | step (step : Step)
  | edit {kind : NodeKind} (handle : Handle kind) (change : Node Query kind → Node Query kind)

/-- What there is after an action, also after a refused one. -/
def perform (r : SearchRequest) : Action → SearchRequest
  | .step step => r.after step
  | .edit handle change => ((mutateSteps handle change).runOn r).2

/-- The action only sets a parameter of the address. -/
def Action.isAddress : Action → Bool
  | .step (.param ..) | .step (.routing _) | .step (.searchType _) | .step (.preference _)
  | .step (.timeout _) => true
  | _ => false

/-- The action sets a parameter of the address or takes over defaults, which may fill some. -/
def Action.touchesAddress : Action → Bool
  | .step (.withDefaults _) => true
  | action => action.isAddress

/-- The half of a request that its body is written from: all but the address. -/
def bodyHalf (r : SearchRequest) : SearchRequest := { r with params := OrderedMap.empty }

/-- The address after a parameter has been filled in, if it was not there. -/
def fillAddress (params : Parameters) (key : String) (value : Value) : Parameters :=
  if params.contains key then params else Parameters.assign params key value

theorem bodyHalf_fillParam (r : SearchRequest) (key : String) (value : Value) :
    (r.fillParam key value).bodyHalf = r.bodyHalf := by
  unfold fillParam
  by_cases h : r.params.contains key = true
  · rw [if_pos h]
  · rw [if_neg h]
    rfl

theorem params_fillParam (r : SearchRequest) (key : String) (value : Value) :
    (r.fillParam key value).params = fillAddress r.params key value := by
  unfold fillParam fillAddress
  by_cases h : r.params.contains key = true
  · rw [if_pos h, if_pos h]
  · rw [if_neg h, if_neg h]
    rfl

theorem bodyHalf_withTrees (r : SearchRequest) (ts : List Query) :
    (r.withTrees ts).bodyHalf = (r.bodyHalf.withTrees ts).bodyHalf := by
  unfold withTrees bodyHalf
  rcases r.query with _ | q <;> rfl

theorem params_withTrees (r : SearchRequest) (ts : List Query) :
    (r.withTrees ts).params = r.params := by
  unfold withTrees
  rcases r.query with _ | q <;> rfl

/-! ## 3. The body -/

/-- An edit looks for its handle in the trees, which belong to the body. -/
theorem bodyHalf_edit (r : SearchRequest) {kind : NodeKind} (handle : Handle kind)
    (change : Node Query kind → Node Query kind) :
    (r.perform (.edit handle change)).bodyHalf
      = (r.bodyHalf.perform (.edit handle change)).bodyHalf := by
  show ((mutateSteps handle change).runOn r).2.bodyHalf
    = ((mutateSteps handle change).runOn r.bodyHalf).2.bodyHalf
  rw [snd_runOn_mutateSteps, bodyHalf_withTrees]
  rfl

/-- The body after an action is a matter of the body before it. -/
theorem bodyHalf_perform (r : SearchRequest) (action : Action) :
    (r.perform action).bodyHalf = (r.bodyHalf.perform action).bodyHalf := by
  cases action with
  | step step =>
      cases step with
      | withDefaults d =>
          show (r.withDefaults d).bodyHalf = (r.bodyHalf.withDefaults d).bodyHalf
          -- Only the three fill-ins read the address, and nothing of them is left in this half.
          unfold withDefaults
          simp only [bodyHalf_fillParam]
          rfl
      | mutate handle edits => exact bodyHalf_edit r handle (Edit.applyAll edits)
      | _ => rfl
  | edit handle change => exact bodyHalf_edit r handle change

/-- An address parameter leaves the body alone. -/
theorem bodyHalf_of_isAddress (r : SearchRequest) {action : Action}
    (h : action.isAddress = true) : (r.perform action).bodyHalf = r.bodyHalf := by
  cases action with
  | step step =>
      cases step with
      | param key value => rfl
      | routing value => rfl
      | searchType type => rfl
      | preference value => rfl
      | timeout value => rfl
      | _ => cases h
  | edit handle change => cases h

theorem writeBody_bodyHalf {σ : Type} [ObjectSink σ] (r : SearchRequest) (out : σ) :
    r.bodyHalf.writeBody out = r.writeBody out := rfl

/-! ## 4. The address -/

theorem params_edit (r : SearchRequest) {kind : NodeKind} (handle : Handle kind)
    (change : Node Query kind → Node Query kind) :
    (r.perform (.edit handle change)).params = r.params := by
  show ((mutateSteps handle change).runOn r).2.params = r.params
  rw [snd_runOn_mutateSteps, params_withTrees]

/-- Taking over defaults fills three parameters, whatever is set in the body. -/
theorem params_withDefaults (r : SearchRequest) (d : SearchDefaults) :
    (r.withDefaults d).params
      = fillAddress (fillAddress (fillAddress r.params "search_type" (toValue d.searchType))
        "timeout" (toValue d.timeout)) "preference" (toValue d.preference) := by
  unfold withDefaults
  simp only [params_fillParam]

/-- The address after an action is a matter of the address before it. -/
theorem params_perform {r r' : SearchRequest} (h : r.params = r'.params) (action : Action) :
    (r.perform action).params = (r'.perform action).params := by
  cases action with
  | step step =>
      cases step with
      | param key value => exact congrArg (Parameters.assign · key value) h
      | routing value => exact congrArg (Parameters.assign · "routing" (toValue value)) h
      | searchType type => exact congrArg (Parameters.assign · "search_type" (toValue type)) h
      | preference value => exact congrArg (Parameters.assign · "preference" (toValue value)) h
      | timeout value => exact congrArg (Parameters.assign · "timeout" (toValue value)) h
      | withDefaults d =>
          show (r.withDefaults d).params = (r'.withDefaults d).params
          rw [params_withDefaults, params_withDefaults, h]
      | mutate handle edits =>
          have hedit := params_edit r handle (Edit.applyAll edits)
          exact hedit.trans (h.trans (params_edit r' handle (Edit.applyAll edits)).symm)
      | _ => exact h
  | edit handle change => rw [params_edit, params_edit, h]

/-- What does not touch the address leaves it alone. -/
theorem params_of_not_touchesAddress (r : SearchRequest) {action : Action}
    (h : action.touchesAddress = false) : (r.perform action).params = r.params := by
  cases action with
  | step step =>
      cases step with
      | param key value => cases h
      | routing value => cases h
      | searchType type => cases h
      | preference value => cases h
      | timeout value => cases h
      | withDefaults d => cases h
      | mutate handle edits => exact params_edit r handle (Edit.applyAll edits)
      | _ => rfl
  | edit handle change => exact params_edit r handle change

/-! ## 5. Both halves of a run -/

/-- The two requests have the same address: the same parameters in the same order, which appear in
what the requests compile to. -/
structure SameAddress (r r' : SearchRequest) : Prop where
  params : r.params = r'.params
  compiled : ∀ c c', r.compile = .ok c → r'.compile = .ok c' →
    c.params = c'.params ∧ c.paramPairs = c'.paramPairs

theorem params_of_compile {r : SearchRequest} {c : Compiled} (h : r.compile = .ok c) :
    c.params = r.params := by
  cases hbody : r.writeBody (OrderedMap.empty : JsonObject) with
  | error e =>
      rw [compile, hbody] at h
      cases h
  | ok body =>
      rw [compile, hbody] at h
      exact congrArg Compiled.params (Except.ok.inj h).symm

theorem sameAddress_of_params {r r' : SearchRequest} (h : r.params = r'.params) :
    r.SameAddress r' := by
  refine ⟨h, fun c c' hc hc' => ?_⟩
  have hparams : c.params = c'.params := by rw [params_of_compile hc, params_of_compile hc', h]
  refine ⟨hparams, ?_⟩
  rw [Compiled.paramPairs, Compiled.paramPairs, hparams]

/-- **Body and address are independent.** Two runs from a new request that differ only in where and
how they set address parameters write the same body into whatever there is, or are refused with the
same error. Two runs that set the same address parameters and take over the same defaults, in the
same order, have the same address. -/
theorem halves_independent (run run' : List Action) :
    (run.filter (fun action => !action.isAddress)
        = run'.filter (fun action => !action.isAddress) →
      ∀ (σ : Type) [ObjectSink σ] (out : σ),
        (run.foldl perform {}).writeBody out = (run'.foldl perform {}).writeBody out) ∧
    (run.filter Action.touchesAddress = run'.filter Action.touchesAddress →
      (run.foldl perform {}).SameAddress (run'.foldl perform {})) := by
  refine ⟨fun h σ _ out => ?_, fun h => ?_⟩
  · have hview : (run.foldl perform {}).bodyHalf = (run'.foldl perform {}).bodyHalf := by
      refine view_run_eq bodyHalf perform _ ?_ ?_ h {}
      · -- Both requests are cut down to their bodies, which are the same.
        intro r r' action hr
        rw [bodyHalf_perform, hr, ← bodyHalf_perform]
      · intro r action haction
        rw [Bool.not_eq_false'] at haction
        exact bodyHalf_of_isAddress r haction
    rw [← writeBody_bodyHalf, hview, writeBody_bodyHalf]
  · refine sameAddress_of_params (view_run_eq params perform _ ?_ ?_ h {})
    · intro r r' action hr
      exact params_perform hr action
    · intro r action haction
      exact params_of_not_touchesAddress r haction

/-! Two runs with the same steps for the body and the same steps for the address, interleaved
differently. -/

def windowDefaults : SearchDefaults where
  size := some 20
  timeout := some "2s"

def sizeFirst : List Action :=
  [.step (.size 5), .step (.routing "tenant"), .step (.withDefaults windowDefaults)]

def sizeLast : List Action :=
  [.step (.routing "tenant"), .step (.size 5), .step (.withDefaults windowDefaults)]

theorem halves_independent_interleaved :
    (∃ c, (sizeFirst.foldl perform {}).compile = .ok c) ∧
    (sizeFirst.filter (fun action => !action.isAddress)
        = sizeLast.filter (fun action => !action.isAddress) ∧
      ∀ (σ : Type) [ObjectSink σ] (out : σ),
        (sizeFirst.foldl perform {}).writeBody out = (sizeLast.foldl perform {}).writeBody out) ∧
    sizeFirst.filter Action.touchesAddress = sizeLast.filter Action.touchesAddress ∧
      (sizeFirst.foldl perform {}).SameAddress (sizeLast.foldl perform {}) := by
  have hbody : sizeFirst.filter (fun action => !action.isAddress)
      = sizeLast.filter fun action => !action.isAddress := rfl
  have haddress : sizeFirst.filter Action.touchesAddress
      = sizeLast.filter Action.touchesAddress := rfl
  exact ⟨⟨_, rfl⟩, ⟨hbody, (halves_independent sizeFirst sizeLast).1 hbody⟩, haddress,
    (halves_independent sizeFirst sizeLast).2 haddress⟩

end SearchRequest

end SearchQuery
