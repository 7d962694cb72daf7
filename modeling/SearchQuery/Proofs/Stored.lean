import SearchQuery.Proofs.Reduction
import SearchQuery.Proofs.Walk

/-!
# What a query stores

A query stores values in many places: as what its leaves compare with, as options, as the settings of
score functions and as the parameters of their scripts. `Query.values` lists the values of all
levels. Reduction does not make up values: apart from the floats that the settings of a node amount
to, what is stored in the reduction is stored in the query (`forall_mem_values_of_reduce`).
-/

namespace SearchQuery

variable {α β : Type}

/-! ## 1. One level -/

/-- The values of a container, in its order. -/
def Parameters.values (p : Parameters) : List Value := p.entries.map Prod.snd

/-- The values that a test compares with. -/
def LeafTest.values : LeafTest → List Value
  | matchAll | range _ | existsField _ | ids _ => []
  | term _ value => [value]
  | terms _ values => values
  | matchText _ text => [text]
  | matchPhrase _ phrase => [phrase]
  | multiMatch text _ => [text]

/-- The settings of a score computed from a field, or the parameters of a script. -/
def FunctionKind.values : FunctionKind → List Value
  | weight => []
  | fieldValueFactor factor => Parameters.values factor.options
  | scriptScore script => Parameters.values script.params

namespace Compound

/-- The values that a body stores beside its sub-queries. -/
def values : Compound α → List Value
  | bool b => b.minimumShouldMatch.toList
  | disMax _ => []
  | functionScore b => b.functions.flatMap fun s => s.kind.values

theorem values_map (f : α → β) (c : Compound α) : (c.map f).values = c.values := by
  cases c with
  | bool b => rfl
  | disMax b => rfl
  | functionScore b =>
      simp only [map, values, FunctionScoreBody.map, List.flatMap_map]
      rfl

theorem values_prune (c : Compound (Option α)) : c.prune.values = c.values := by
  cases c with
  | bool b => rfl
  | disMax b => rfl
  | functionScore b =>
      simp only [prune, values, FunctionScoreBody.prune, List.flatMap_map]
      rfl

end Compound

/-- All that a node turns into options are numbers. -/
theorem BoundNode.options_floats (n : BoundNode α) :
    ∀ v ∈ Parameters.values n.options, ∃ x, v = .float x := by
  have hboost (boost : Option Double) :
      ∀ v ∈ Parameters.values (Parameters.ofEntries [("boost", toValue boost)]),
        ∃ x, v = .float x := by
    rcases boost with _ | x
    · exact fun v hv => absurd hv List.not_mem_nil
    · exact List.forall_mem_singleton.mpr ⟨x, rfl⟩
  cases n with
  | bool handle node => exact hboost node.boost
  | disMax handle node => exact hboost node.boost
  | functionScore handle node =>
      obtain ⟨body, maxBoost, boost⟩ := node
      rcases maxBoost with _ | y
      · -- Assigning nothing to a container that is empty leaves it empty.
        exact hboost boost
      · rcases boost with _ | x
        · exact List.forall_mem_singleton.mpr ⟨y, rfl⟩
        · exact List.forall_mem_cons.mpr ⟨⟨y, rfl⟩, List.forall_mem_singleton.mpr ⟨x, rfl⟩⟩

namespace Form

/-- The values that a level stores beside its sub-queries. The numbers that a node stands out by are
no values. -/
def values : Form α → List Value
  | leaf test options => test.values ++ Parameters.values options
  | nested _ _ options => Parameters.values options
  | compound body options => body.values ++ Parameters.values options
  | node n => n.body.values

theorem values_map (f : α → β) (x : Form α) : (x.map f).values = x.values := by
  cases x with
  | leaf test options => rfl
  | nested path query options => rfl
  | compound body options => simp only [map, values, Compound.values_map]
  | node n => simp only [map, values, BoundNode.body_map, Compound.values_map]

end Form

/-! ## 2. All levels -/

namespace Query

/-- The values that a query stores, at all levels and also under nested queries. -/
def values (q : Query) : List Value := q.walk.flatMap fun x => x.form.values

theorem forall_mem_values_iff_at? {P : Value → Prop} {q : Query} :
    (∀ v ∈ q.values, P v) ↔
      ∀ (p : Position) (x : Query), q.at? p = some x → ∀ v ∈ x.form.values, P v := by
  constructor
  · intro h p x hx v hv
    exact h v (List.mem_flatMap.mpr ⟨x, mem_walk.mpr ⟨p, hx⟩, hv⟩)
  · intro h v hv
    obtain ⟨x, hx, hvx⟩ := List.mem_flatMap.mp hv
    obtain ⟨p, hp⟩ := mem_walk.mp hx
    exact h p x hp v hvx

/-- The values of a query are those of its topmost level and those of its sub-queries. -/
theorem forall_mem_values_iff {P : Value → Prop} {q : Query} :
    (∀ v ∈ q.values, P v) ↔
      (∀ v ∈ q.form.values, P v) ∧ ∀ c ∈ q.children, ∀ v ∈ c.values, P v := by
  simp only [forall_mem_values_iff_at?]
  exact forall_at?_iff

/-- What holds of all numbers and of the values in a query holds of the values in its reduction. -/
theorem forall_mem_values_of_reduce {P : Value → Prop} (hfloat : ∀ x, P (.float x)) {q r : Query}
    (hq : ∀ v ∈ q.values, P v) (h : q.reduce = some r) : ∀ v ∈ r.values, P v := by
  rw [forall_mem_values_iff_at?] at hq ⊢
  refine forall_levels_of_reduce (P := fun f => ∀ v ∈ f.values, P v) ?_ ?_ hq h
  · intro n hn v hv
    rcases List.mem_append.mp hv with hbody | hoptions
    · exact hn v hbody
    · -- The settings of a node are options of the query that it stands for.
      obtain ⟨x, rfl⟩ := n.options_floats v hoptions
      exact hfloat x
  · intro body options hbody v hv
    rw [Form.values, Compound.values_prune, Compound.values_map] at hv
    exact hbody v hv

end Query

end SearchQuery
