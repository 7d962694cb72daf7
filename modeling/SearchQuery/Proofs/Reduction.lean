import SearchQuery.Proofs.Fold
import SearchQuery.Proofs.Position
import SearchQuery.Proofs.Slot
import SearchQuery.Query.Reduction

/-!
# Reduction by recursion

`Query.reduce` is a fold whose results are dealt out to the places of the sub-queries. Here it
becomes a recursion on the query: `reduce_leaf` and `reduce_nested` say that leaves and nested
queries stay, and `reduce_compound` that a body is settled once its sub-queries have been reduced
and pruned. `reduce_node` removes nodes from every later case analysis, since a node is reduced as
the query it stands for, and `reduce_induction` is the induction that results from the three.

What settling does depends on one thing, whether the body `Stands`: if so the compound query stays,
and if not what is left is its only sub-query, if any (`settle_eq`). A body that does not stand
holds at most one sub-query, in a slot that can go (`slotted_of_not_stands`).
-/

namespace SearchQuery

variable {α β : Type}

/-! ## 1. Bodies that stand -/

/-- A function_score body computes scores: it has a function or a least score. -/
def FunctionScoreBody.Scores (b : FunctionScoreBody α) : Prop :=
  b.functions.length ≠ 0 ∨ b.minScore.isSome

instance (b : FunctionScoreBody α) : Decidable b.Scores :=
  inferInstanceAs (Decidable (_ ∨ _))

/-- A bool body has a clause, and not a single one over all four places that is a `should` or a
`must`. -/
def BoolBody.Stands (b : BoolBody α) : Prop :=
  b.children.length ≠ 0 ∧
    ¬ (b.children.length = 1 ∧ (b.should.length = 1 ∨ b.must.length = 1))

instance (b : BoolBody α) : Decidable b.Stands := inferInstanceAs (Decidable (_ ∧ _))

namespace Compound

/-- The body is no mere wrapper. -/
def Stands : Compound α → Prop
  | bool b => b.Stands
  | disMax b => 2 ≤ b.queries.length
  | functionScore b => b.Scores

instance (c : Compound α) : Decidable c.Stands :=
  match c with
  | bool b => inferInstanceAs (Decidable b.Stands)
  | disMax b => inferInstanceAs (Decidable (2 ≤ b.queries.length))
  | functionScore b => inferInstanceAs (Decidable b.Scores)

/-- Whether a body stands does not depend on what its sub-queries are. -/
theorem stands_map (g : α → β) (c : Compound α) : (c.map g).Stands ↔ c.Stands := by
  cases c with
  | bool b =>
      simp only [map, Stands, BoolBody.Stands, BoolBody.children_map]
      simp only [BoolBody.map, List.length_map]
  | disMax b => simp only [map, Stands, List.length_map]
  | functionScore b =>
      simp only [map, Stands, FunctionScoreBody.Scores, FunctionScoreBody.map, List.length_map]

/-- A body that does not stand has at most one sub-query, and its slot is not a lasting one. -/
theorem slotted_of_not_stands {c : Compound α} (h : ¬ c.Stands) :
    c.slotted = [] ∨ ∃ slot a, c.slotted = [(slot, a)] ∧ slot.lasting = false := by
  cases c with
  | bool b =>
      obtain ⟨filter, should, must, mustNot, minimumShouldMatch⟩ := b
      simp only [Stands, BoolBody.Stands, BoolBody.children, List.length_append] at h
      -- Either all four places are empty, or one `should` or one `must` is all there is.
      have hempty : filter = [] ∧ mustNot = [] := by
        rw [← List.length_eq_zero_iff, ← List.length_eq_zero_iff]
        omega
      obtain ⟨rfl, rfl⟩ := hempty
      simp only [List.length_nil] at h
      obtain hs | hs : should.length = 0 ∨ should.length = 1 := by omega
      · rw [List.length_eq_zero_iff] at hs
        subst hs
        obtain hm | hm : must.length = 0 ∨ must.length = 1 := by
          simp only [List.length_nil] at h
          omega
        · rw [List.length_eq_zero_iff] at hm
          exact Or.inl (by rw [hm]; rfl)
        · obtain ⟨a, rfl⟩ := List.length_eq_one_iff.mp hm
          exact Or.inr ⟨.clause .must, a, rfl, rfl⟩
      · have hm : must = [] := by rw [← List.length_eq_zero_iff]; omega
        obtain ⟨a, rfl⟩ := List.length_eq_one_iff.mp hs
        exact Or.inr ⟨.clause .should, a, by rw [hm]; rfl, rfl⟩
  | disMax b =>
      obtain ⟨queries, tieBreaker⟩ := b
      simp only [Stands] at h
      obtain hq | hq : queries.length = 0 ∨ queries.length = 1 := by omega
      · rw [List.length_eq_zero_iff] at hq
        exact Or.inl (by rw [hq]; rfl)
      · obtain ⟨a, rfl⟩ := List.length_eq_one_iff.mp hq
        exact Or.inr ⟨.alternative, a, rfl, rfl⟩
  | functionScore b =>
      obtain ⟨query, functions, scoreMode, boostMode, minScore⟩ := b
      -- Without functions there are no filters, so only the inner query can be there.
      have hf : functions = [] :=
        List.length_eq_zero_iff.mp (Decidable.not_not.mp (not_or.mp h).1)
      subst hf
      cases query with
      | none => exact Or.inl rfl
      | some a => exact Or.inr ⟨.inner, a, rfl, rfl⟩

end Compound

/-! ## 2. Settling -/

namespace Query

/-- Settling keeps a body that stands and otherwise leaves its only sub-query, if any. -/
theorem settle_eq (body : Compound Query) (options : Parameters) :
    settle body options
      = if body.Stands then some (compound body options) else body.children.head? := by
  cases body with
  | bool b =>
      obtain ⟨filter, should, must, mustNot, minimumShouldMatch⟩ := b
      simp only [settle]
      split
      -- Three shapes are wrappers, and what is in none of them stands.
      next => rw [if_neg (by simp [Compound.Stands, BoolBody.Stands, BoolBody.children])]; rfl
      next => rw [if_neg (by simp [Compound.Stands, BoolBody.Stands, BoolBody.children])]; rfl
      next => rw [if_neg (by simp [Compound.Stands, BoolBody.Stands, BoolBody.children])]; rfl
      next none_empty no_should no_must =>
        rw [if_pos]
        simp only [Compound.Stands, BoolBody.Stands, BoolBody.children, List.length_append]
        refine ⟨fun hzero => ?_, fun hone => ?_⟩
        · refine none_empty ?_ ?_ ?_ ?_
          all_goals rw [← List.length_eq_zero_iff]; omega
        · obtain ⟨hone, hs | hm⟩ := hone
          · obtain ⟨q, hq⟩ := List.length_eq_one_iff.mp hs
            refine no_should q ?_ hq ?_ ?_
            all_goals rw [← List.length_eq_zero_iff]; omega
          · obtain ⟨q, hq⟩ := List.length_eq_one_iff.mp hm
            refine no_must q ?_ ?_ hq ?_
            all_goals rw [← List.length_eq_zero_iff]; omega
  | disMax b =>
      obtain ⟨queries, tieBreaker⟩ := b
      rcases queries with _ | ⟨a, _ | ⟨b, rest⟩⟩
      · rfl
      · rfl
      · rw [if_pos (by simp [Compound.Stands])]
        rfl
  | functionScore b =>
      by_cases h : b.Scores
      · have hne : (b.functions.isEmpty && b.minScore.isNone) = false := by
          rcases h with hf | hm
          · rw [Bool.and_eq_false_iff, List.isEmpty_eq_false_iff, ← List.length_pos_iff]
            omega
          · rw [Option.isNone_eq_false_iff.mpr hm, Bool.and_false]
        rw [if_pos (show Compound.Stands (.functionScore b) from h)]
        simp only [settle, hne, if_false, Bool.false_eq_true]
      · obtain ⟨hf, hm⟩ := not_or.mp h
        rw [Decidable.not_not, List.length_eq_zero_iff] at hf
        rw [Bool.not_eq_true, Option.isSome_eq_false_iff] at hm
        rw [if_neg (show ¬ Compound.Stands (.functionScore b) from h)]
        simp only [settle, hf, List.isEmpty_nil, hm, Bool.and_self, if_true, Compound.children,
          FunctionScoreBody.children, List.filterMap_nil, List.append_nil]
        cases b.query with
        | none => rfl
        | some q => rfl

/-- Settling commutes with a function on queries that keeps compound queries compound. -/
theorem settle_map {g : Query → Query} {options : Parameters}
    (hg : ∀ body, g (compound body options) = compound (body.map g) options)
    (body : Compound Query) :
    settle (body.map g) options = (settle body options).map g := by
  rw [settle_eq, settle_eq]
  by_cases h : body.Stands
  · rw [if_pos h, if_pos ((Compound.stands_map g body).mpr h), Option.map_some, hg]
  · have hmap : ¬ (body.map g).Stands := fun h' => h ((Compound.stands_map g body).mp h')
    rw [if_neg h, if_neg hmap, Compound.children_map, List.head?_map]

/-! ## 3. The recursion -/

/-- Reduction as the value of its fold. -/
private theorem reduce_eq_foldValue :
    reduce = foldValue (fun q => !q.form.isNested) reduceStep := by
  funext q
  rw [reduce, fold_eq, Option.join_some]

theorem reduce_leaf (test : LeafTest) (options : Parameters) :
    (leaf test options).reduce = some (leaf test options) := by
  rw [reduce_eq_foldValue, foldValue_eq]
  rfl

/-- A nested query stays as it is, with everything below it. -/
theorem reduce_nested (path : Field) (query : Query) (options : Parameters) :
    (nested path query options).reduce = some (nested path query options) := by
  rw [reduce_eq_foldValue, foldValue_eq]
  rfl

/-- A compound query is settled after its sub-queries have been reduced. -/
theorem reduce_compound (body : Compound Query) (options : Parameters) :
    (compound body options).reduce = settle (body.map reduce).prune options := by
  rw [reduce_eq_foldValue, foldValue_eq, ← Compound.refill_children_map]
  rfl

/-- A node is reduced as the query it stands for. -/
theorem reduce_node (n : BoundNode Query) :
    (of (.node n)).reduce = (compound n.body n.options).reduce := by
  rw [reduce_eq_foldValue, foldValue_eq, foldValue_eq]
  -- The results are dealt out to the node, and only then does it become its query.
  show settle (n.refill _).body.prune (n.refill _).options
    = settle (n.body.refill _).prune n.options
  rw [BoundNode.body_refill, BoundNode.options_refill]
  rfl

/-- Induction along a reduction. A leaf and a nested query are their own results, a compound query
is settled over sub-queries of which the statement already holds, and a node shares its result with
the query it stands for. -/
theorem reduce_induction {motive : Query → Option Query → Prop}
    (leaf : ∀ test options, motive (leaf test options) (some (leaf test options)))
    (nested : ∀ path query options,
      motive (nested path query options) (some (nested path query options)))
    (compound : ∀ body options, (∀ c ∈ body.children, motive c c.reduce) →
      motive (compound body options) (settle (body.map reduce).prune options))
    (node : ∀ n result, motive (Query.compound n.body n.options) result →
      motive (of (.node n)) result)
    (q : Query) : motive q q.reduce := by
  induction q using Query.induction with
  | step q ih =>
      obtain ⟨form⟩ := q
      cases form with
      | leaf test options =>
          have h := reduce_leaf test options
          exact h ▸ leaf test options
      | nested path query options =>
          have h := reduce_nested path query options
          exact h ▸ nested path query options
      | compound body options =>
          have h := reduce_compound body options
          exact h ▸ compound body options ih
      | node n =>
          -- The sub-queries of a node are those of the query it stands for.
          have h := compound n.body n.options ih
          rw [← reduce_compound, ← reduce_node] at h
          exact node n _ h

/-- A change of queries passes through reduction if it passes through every level: what it makes of
a leaf or of a nested query is not reduced any further, it goes on into the sub-queries of a
compound query, and a node and the query that the node stands for come to the same. -/
theorem reduce_comm {g : Query → Query}
    (hleaf : ∀ test options, (g (leaf test options)).reduce = some (g (leaf test options)))
    (hnested : ∀ path query options,
      (g (nested path query options)).reduce = some (g (nested path query options)))
    (hcompound : ∀ body options, g (compound body options) = compound (body.map g) options)
    (hnode : ∀ n : BoundNode Query,
      (g (of (.node n))).reduce = (g (compound n.body n.options)).reduce)
    (q : Query) : (g q).reduce = q.reduce.map g := by
  refine reduce_induction (motive := fun q result => (g q).reduce = result.map g)
    hleaf hnested ?_ ?_ q
  · intro body options ih
    have hsub : body.map (reduce ∘ g) = body.map (Option.map g ∘ reduce) :=
      Compound.map_congr ih
    rw [hcompound, reduce_compound, Compound.map_map, hsub, ← Compound.map_map]
    -- The change passes through the pruning and then through the settling.
    rw [Compound.prune_map, settle_map fun body => hcompound body options]
  · intro n result ih
    rw [hnode, ih]

/-- What the sub-queries of a body add up to after they have been reduced. -/
theorem total_children_left (f : Query → Nat) (body : Compound Query) :
    total f (body.map reduce).prune.children
      = total (fun c => c.reduce.elim 0 f) body.children := by
  rw [Compound.children_prune, Compound.children_map, List.filterMap_map, total_filterMap]
  rfl

/-- Settling keeps what is counted below a compound query and not at it. -/
theorem total_settle {f : Query → Nat}
    (hf : ∀ body options, f (compound body options) = total f body.children)
    (body : Compound Query) (options : Parameters) :
    (settle body options).elim 0 f = total f body.children := by
  rw [settle_eq]
  by_cases hs : body.Stands
  · rw [if_pos hs, Option.elim_some, hf]
  · -- There is one sub-query at most, and it takes the place of the whole.
    rw [if_neg hs, ← Compound.map_snd_slotted]
    obtain hnil | ⟨slot, a, hone, -⟩ := Compound.slotted_of_not_stands hs
    · rw [hnil]
      rfl
    · rw [hone]
      rfl

/-! ## 4. Conditions on all levels -/

/-- A condition on all levels of a query passes to its reduction if it is kept where a node is
closed and where sub-queries are reduced and dropped. -/
theorem forall_levels_of_reduce {P : Form Query → Prop}
    (hnode : ∀ n : BoundNode Query, P (.node n) → P (.compound n.body n.options))
    (hcompound : ∀ body options,
      P (.compound body options) → P (.compound (body.map reduce).prune options))
    {q r : Query} (hq : ∀ (p : Position) (x : Query), q.at? p = some x → P x.form)
    (h : q.reduce = some r) : ∀ (p : Position) (x : Query), r.at? p = some x → P x.form := by
  revert r
  refine reduce_induction
    (motive := fun q result => (∀ (p : Position) (x : Query), q.at? p = some x → P x.form) →
      ∀ {r}, result = some r → ∀ (p : Position) (x : Query), r.at? p = some x → P x.form)
    ?_ ?_ ?_ ?_ q hq
  · intro test options hq r h
    exact Option.some.inj h ▸ hq
  · intro path query options hq r h
    exact Option.some.inj h ▸ hq
  · intro body options ih hq r h
    obtain ⟨hform, hchildren⟩ := forall_at?_iff.mp hq
    have hparts : ∀ c ∈ (body.map reduce).prune.children,
        ∀ (p : Position) (x : Query), c.at? p = some x → P x.form := by
      intro c hc
      obtain ⟨d, hd, hdc⟩ := Compound.mem_children_prune_map.mp hc
      exact ih d hd (hchildren d hd) hdc
    rw [settle_eq] at h
    by_cases hs : (body.map reduce).prune.Stands
    · rw [if_pos hs, Option.some.injEq] at h
      rw [← h]
      exact forall_at?_iff.mpr ⟨hcompound body options hform, hparts⟩
    · -- The first sub-query takes the place of the query.
      rw [if_neg hs] at h
      exact hparts r (List.mem_of_mem_head? h)
  · intro n result ih hq r h
    obtain ⟨hform, hchildren⟩ := forall_at?_iff.mp hq
    exact ih (forall_at?_iff.mpr ⟨hnode n hform, hchildren⟩) h

end Query

end SearchQuery
