import SearchQuery.Error

/-!
# Steps that may be refused

What changes something in its place is a run of steps, any of which may be refused. A refusal ends
the run, and what the steps before it have changed stays changed. That a refusal leaves everything
as it was is a property of a run, then, and has to be shown of it.
-/

namespace SearchQuery

/-- Steps on a state, any of which may be refused. What has been changed by then stays changed. -/
abbrev Steps (σ α : Type) := ExceptT QueryError (StateM σ) α

namespace Steps

variable {σ ρ τ α β : Type}

/-- Carries the steps out. Answers with the state as it is at the end, also after a refusal. -/
def runOn (steps : Steps σ α) (s : σ) : Except QueryError α × σ := Id.run (steps.run.run s)

/-- The state at the end of steps that are not refused. -/
def result (steps : Steps σ Unit) (s : σ) : Except QueryError σ :=
  match steps.runOn s with
  | (.ok _, s') => .ok s'
  | (.error e, _) => .error e

/-- Steps on a part of the state. The part is put back as they leave it, also after a refusal. -/
def onPart (steps : Steps ρ α) (part : σ → ρ) (put : σ → ρ → σ) : Steps σ α :=
  ExceptT.mk fun s =>
    let (answer, p) := steps.runOn (part s)
    (answer, put s p)

/-- Steps on a part of the first of two states. -/
def onFirst (steps : Steps (ρ × τ) α) (part : σ → ρ) (put : σ → ρ → σ) : Steps (σ × τ) α :=
  steps.onPart (fun s => (part s.1, s.2)) fun s p => (put s.1 p.1, p.2)

/-- Steps that have no use for a second state. -/
def alone (steps : Steps (σ × Unit) α) : Steps σ α :=
  steps.onPart (fun s => (s, ())) fun _ p => p.1

/-- After steps that end well the next ones go on with the state that they leave. After a refused
step there is no next one. -/
theorem runOn_bind (steps : Steps σ α) (next : α → Steps σ β) (s : σ) :
    (steps >>= next).runOn s = match steps.runOn s with
      | (.ok a, s') => (next a).runOn s'
      | (.error e, s') => (.error e, s') := by
  unfold runOn
  rw [ExceptT.run_bind, StateT.run_bind, Id.run_bind]
  rcases Id.run (steps.run.run s) with ⟨_ | _, _⟩ <;> rfl

theorem runOn_get (s : σ) : (get : Steps σ σ).runOn s = (.ok s, s) := rfl

theorem result_eq_ok_iff {steps : Steps σ Unit} {s s' : σ} :
    steps.result s = .ok s' ↔ steps.runOn s = (.ok (), s') := by
  rw [result]
  rcases steps.runOn s with ⟨e | _, s''⟩ <;> simp

theorem result_of_error {steps : Steps σ Unit} {s s' : σ} {e : QueryError}
    (h : steps.runOn s = (.error e, s')) : steps.result s = .error e := by
  rw [result, h]

theorem runOn_onPart {part : σ → ρ} {put : σ → ρ → σ} {steps : Steps ρ α} {s : σ} {p : ρ}
    {answer : Except QueryError α} (h : steps.runOn (part s) = (answer, p)) :
    (steps.onPart part put).runOn s = (answer, put s p) := by
  show (let (answer, p) := steps.runOn (part s); (answer, put s p)) = (answer, put s p)
  rw [h]

theorem runOn_onFirst {part : σ → ρ} {put : σ → ρ → σ} {steps : Steps (ρ × τ) α} {s : σ} {p : ρ}
    {x x' : τ} {answer : Except QueryError α}
    (h : steps.runOn (part s, x) = (answer, (p, x'))) :
    (steps.onFirst part put).runOn (s, x) = (answer, (put s p, x')) := by
  show (let (answer, p) := steps.runOn (part s, x); (answer, (put s p.1, p.2))) = _
  rw [h]

theorem runOn_alone {steps : Steps (σ × Unit) α} {s s' : σ} {x : Unit}
    {answer : Except QueryError α} (h : steps.runOn (s, ()) = (answer, (s', x))) :
    steps.alone.runOn s = (answer, s') := by
  show (let (answer, p) := steps.runOn (s, ()); (answer, p.1)) = _
  rw [h]

theorem result_onPart (part : σ → ρ) (put : σ → ρ → σ) (steps : Steps ρ Unit) (s : σ) :
    (steps.onPart part put).result s = (steps.result (part s)).map (put s) := by
  rcases h : steps.runOn (part s) with ⟨e | _, p⟩
  · rw [result_of_error h, result_of_error (runOn_onPart h)]
    rfl
  · rw [result_eq_ok_iff.mpr h, result_eq_ok_iff.mpr (runOn_onPart h)]
    rfl

end Steps

end SearchQuery
