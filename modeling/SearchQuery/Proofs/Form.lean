import SearchQuery.Query.Form

/-!
# Laws of a form's operations

`map`, `prune` and `children` of the three compound bodies, of bodies bound to a handle and of
forms, and how they pass each other. The traversals of a query all work by mapping its form, so
that these laws are where a statement about a traversal meets the shape of a query. The two that
carry the most are `map_congr`, by which a form only sees what is made of its sub-queries, and
`prune_map`, by which pruning does not look at what it keeps.
-/

namespace SearchQuery

variable {α β γ : Type}

/-! ## 1. Score functions -/

namespace ScoreFunction

theorem map_comp_map (f : α → β) (g : β → γ) :
    (map g ∘ map f : ScoreFunction α → ScoreFunction γ) = map (g ∘ f) := by
  funext s
  simp only [Function.comp_apply, map, Option.map_map]

theorem prune_comp_map (g : α → β) :
    (prune ∘ map (Option.map g) : ScoreFunction (Option α) → ScoreFunction β)
      = map g ∘ prune := by
  funext s
  obtain ⟨filter, weight, kind⟩ := s
  rcases filter with _ | _ | a
  · rfl
  · rfl
  · rfl

theorem prune_comp_map_some : (prune ∘ map some : ScoreFunction α → ScoreFunction α) = id := by
  funext s
  obtain ⟨filter, weight, kind⟩ := s
  rcases filter with _ | a
  · rfl
  · rfl

theorem map_id_eq : (map id : ScoreFunction α → ScoreFunction α) = id := by
  funext s
  simp only [map, Option.map_id, id_eq]

/-- Dealing out filters asks of a function only whether it has one. -/
theorem refill_map (g : α → β) (l : List (ScoreFunction α)) (cs : List γ) :
    refill (l.map (map g)) cs = refill l cs := by
  induction l generalizing cs with
  | nil => rfl
  | cons s l ih =>
      obtain ⟨filter, weight, kind⟩ := s
      rcases filter with _ | a
      · simp only [List.map_cons, map, Option.map_none, refill, ih]
      · simp only [List.map_cons, map, Option.map_some, refill, ih]

theorem filters_prune (l : List (ScoreFunction (Option α))) :
    (l.map prune).filterMap filter = (l.filterMap filter).filterMap id := by
  rw [List.filterMap_map, List.filterMap_filterMap]
  rfl

/-- Filters are dealt out in the order in which they are listed. -/
theorem filters_refill {l : List (ScoreFunction α)} {cs : List β}
    (h : cs.length = (l.filterMap filter).length) : (refill l cs).filterMap filter = cs := by
  induction l generalizing cs with
  | nil => exact (List.length_eq_zero_iff.mp h).symm
  | cons s l ih =>
      obtain ⟨filter, weight, kind⟩ := s
      rcases filter with _ | a
      · exact ih h
      · cases cs with
        | nil => exact absurd h (Nat.succ_ne_zero _).symm
        | cons c cs =>
            have hrest : cs.length = (l.filterMap ScoreFunction.filter).length := by
              simpa only [List.filterMap_cons, List.length_cons, Nat.add_right_cancel_iff] using h
            rw [refill, List.head?_cons, List.tail_cons, List.filterMap_cons, ih hrest]

/-- What is made of a list may be made before or after it is dealt out. -/
theorem map_refill (g : β → γ) (l : List (ScoreFunction α)) (cs : List β) :
    (refill l cs).map (map g) = refill l (cs.map g) := by
  induction l generalizing cs with
  | nil => rfl
  | cons s l ih =>
      obtain ⟨filter, weight, kind⟩ := s
      rcases filter with _ | a
      · simp only [refill, List.map_cons, map, Option.map_none, ih]
      · simp only [refill, List.map_cons, map, List.head?_map, ih, List.map_tail]

end ScoreFunction

/-! ## 2. Bodies -/

theorem filterMap_id_map (g : α → β) (l : List (Option α)) :
    (l.map (Option.map g)).filterMap id = (l.filterMap id).map g := by
  rw [List.filterMap_map, List.map_filterMap]
  rfl

theorem filterMap_id_map_some (l : List α) : (l.map some).filterMap id = l := by
  rw [List.filterMap_map, Function.id_comp, List.filterMap_some]

namespace Compound

theorem map_map (f : α → β) (g : β → γ) (c : Compound α) : (c.map f).map g = c.map (g ∘ f) := by
  cases c with
  | bool b => simp only [map, BoolBody.map, List.map_map]
  | disMax b => simp only [map, List.map_map]
  | functionScore b =>
      simp only [map, FunctionScoreBody.map, List.map_map, Option.map_map,
        ScoreFunction.map_comp_map]

theorem map_id (c : Compound α) : c.map id = c := by
  cases c with
  | bool b => simp only [map, BoolBody.map, List.map_id]
  | disMax b => simp only [map, List.map_id]
  | functionScore b =>
      simp only [map, FunctionScoreBody.map, Option.map_id, id_eq, ScoreFunction.map_id_eq,
        List.map_id]

/-- Dealing out a list asks of a body only how many sub-queries stand in each place. -/
theorem refill_map (g : α → β) (c : Compound α) (cs : List γ) :
    (c.map g).refill cs = c.refill cs := by
  cases c with
  | bool b => simp only [map, refill, BoolBody.map, BoolBody.refill, List.length_map]
  | disMax b => rfl
  | functionScore b =>
      obtain ⟨query, functions, scoreMode, boostMode, minScore⟩ := b
      cases query with
      | none =>
          simp only [map, refill, FunctionScoreBody.map, FunctionScoreBody.refill,
            Option.map_none, ScoreFunction.refill_map]
      | some q =>
          simp only [map, refill, FunctionScoreBody.map, FunctionScoreBody.refill,
            Option.map_some, ScoreFunction.refill_map]

/-- A body is dealt its sub-queries out of a list, so it depends on a function only through that
list. -/
theorem map_congr {f g : α → β} {c : Compound α} (h : ∀ a ∈ c.children, f a = g a) :
    c.map f = c.map g := by
  rw [← refill_children_map f, ← refill_children_map g, List.map_congr_left h]

theorem prune_map (g : α → β) (c : Compound (Option α)) :
    (c.map (Option.map g)).prune = c.prune.map g := by
  cases c with
  | bool b => simp only [map, prune, BoolBody.map, BoolBody.prune, filterMap_id_map]
  | disMax b => simp only [map, prune, filterMap_id_map]
  | functionScore b =>
      -- The inner query may be missing for two reasons: there was none, or nothing is left of it.
      have hquery : (b.query.map (Option.map g)).join = b.query.join.map g := by
        rcases b.query with _ | _ | q
        · rfl
        · rfl
        · rfl
      simp only [map, prune, FunctionScoreBody.map, FunctionScoreBody.prune, List.map_map,
        ScoreFunction.prune_comp_map, hquery]

/-- Nothing is pruned where nothing came to nothing. -/
theorem prune_map_some (c : Compound α) : (c.map some).prune = c := by
  cases c with
  | bool b => simp only [map, prune, BoolBody.map, BoolBody.prune, filterMap_id_map_some]
  | disMax b => simp only [map, prune, filterMap_id_map_some]
  | functionScore b =>
      have hquery : (b.query.map some).join = b.query := by
        cases b.query with
        | none => rfl
        | some q => rfl
      simp only [map, prune, FunctionScoreBody.map, FunctionScoreBody.prune, List.map_map,
        ScoreFunction.prune_comp_map_some, hquery, List.map_id]

/-- Pruning a body is pruning the list of its sub-queries. -/
theorem children_prune (c : Compound (Option α)) :
    c.prune.children = c.children.filterMap id := by
  cases c with
  | bool b => simp only [prune, children, BoolBody.prune, BoolBody.children, List.filterMap_append]
  | disMax b => rfl
  | functionScore b =>
      have hquery : b.query.join.toList = b.query.toList.filterMap id := by
        rcases b.query with _ | _ | q
        · rfl
        · rfl
        · rfl
      simp only [prune, children, FunctionScoreBody.prune, FunctionScoreBody.children, hquery,
        ScoreFunction.filters_prune, List.filterMap_append]

/-- A list as long as that of the sub-queries is dealt out whole and in order. -/
theorem children_refill {c : Compound α} {cs : List β} (h : cs.length = c.children.length) :
    (c.refill cs).children = cs := by
  cases c with
  | bool b =>
      -- Each place takes what the places before it have left, and the last one leaves nothing.
      have hlast : (((cs.drop b.filter.length).drop b.should.length).drop b.must.length).take
          b.mustNot.length
          = ((cs.drop b.filter.length).drop b.should.length).drop b.must.length := by
        apply List.take_of_length_le
        simp only [children, BoolBody.children, List.length_append] at h
        simp only [List.length_drop]
        omega
      simp only [refill, children, BoolBody.refill, BoolBody.children, List.append_assoc, hlast,
        List.take_append_drop]
  | disMax b => rfl
  | functionScore b =>
      obtain ⟨query, functions, scoreMode, boostMode, minScore⟩ := b
      rcases query with _ | q
      · exact ScoreFunction.filters_refill h
      · cases cs with
        | nil => exact absurd h (Nat.succ_ne_zero _).symm
        | cons c cs =>
            exact congrArg (c :: ·) (ScoreFunction.filters_refill (Nat.succ.inj h))

theorem map_refill (g : β → γ) (c : Compound α) (cs : List β) :
    (c.refill cs).map g = c.refill (cs.map g) := by
  cases c with
  | bool b =>
      simp only [refill, map, BoolBody.refill, BoolBody.map, List.map_take, List.map_drop]
  | disMax b => rfl
  | functionScore b =>
      obtain ⟨query, functions, scoreMode, boostMode, minScore⟩ := b
      rcases query with _ | q
      · simp only [refill, map, FunctionScoreBody.refill, FunctionScoreBody.map, Option.map_none,
          ScoreFunction.map_refill]
      · simp only [refill, map, FunctionScoreBody.refill, FunctionScoreBody.map, List.head?_map,
          List.map_tail, ScoreFunction.map_refill]

/-- What is left of a body after its sub-queries have been replaced or dropped. -/
theorem mem_children_prune_map {f : α → Option β} {c : Compound α} {b : β} :
    b ∈ (c.map f).prune.children ↔ ∃ a ∈ c.children, f a = some b := by
  rw [children_prune, children_map, List.filterMap_map, List.mem_filterMap]
  rfl

end Compound

/-! ## 3. Nodes and forms -/

namespace BoundNode

theorem map_map (f : α → β) (g : β → γ) (n : BoundNode α) : (n.map f).map g = n.map (g ∘ f) := by
  cases n with
  | bool handle node => simp only [map, BoolBody.map, List.map_map]
  | disMax handle node => simp only [map, List.map_map]
  | functionScore handle node =>
      simp only [map, FunctionScoreBody.map, List.map_map, Option.map_map,
        ScoreFunction.map_comp_map]

theorem body_refill (n : BoundNode α) (l : List β) : (n.refill l).body = n.body.refill l := by
  cases n with
  | bool handle node => rfl
  | disMax handle node => rfl
  | functionScore handle node => rfl

/-- The options of a node do not depend on its sub-queries. -/
theorem options_refill (n : BoundNode α) (l : List β) : (n.refill l).options = n.options := by
  cases n with
  | bool handle node => rfl
  | disMax handle node => rfl
  | functionScore handle node => rfl

theorem options_map (f : α → β) (n : BoundNode α) : (n.map f).options = n.options := by
  rw [← refill_children_map, options_refill]

theorem map_id (n : BoundNode α) : n.map id = n := by
  cases n with
  | bool handle node => simp only [map, BoolBody.map, List.map_id]
  | disMax handle node => simp only [map, List.map_id]
  | functionScore handle node =>
      simp only [map, FunctionScoreBody.map, Option.map_id, id_eq, ScoreFunction.map_id_eq,
        List.map_id]

theorem refill_map (g : α → β) (n : BoundNode α) (cs : List γ) :
    (n.map g).refill cs = n.refill cs := by
  cases n with
  | bool handle node =>
      simp only [map, refill, BoolBody.map, BoolBody.refill, List.length_map]
  | disMax handle node => rfl
  | functionScore handle node =>
      have h := Compound.refill_map g (.functionScore node.body) cs
      simp only [Compound.map, Compound.refill, Compound.functionScore.injEq] at h
      simp only [map, refill, h]

theorem map_refill (g : β → γ) (n : BoundNode α) (cs : List β) :
    (n.refill cs).map g = n.refill (cs.map g) := by
  cases n with
  | bool handle node =>
      simp only [refill, map, BoolBody.refill, BoolBody.map, List.map_take, List.map_drop]
  | disMax handle node => rfl
  | functionScore handle node =>
      have h := Compound.map_refill g (.functionScore node.body) cs
      simp only [Compound.map, Compound.refill, Compound.functionScore.injEq] at h
      simp only [map, refill, h]

end BoundNode

namespace Form

theorem kind_map (f : α → β) (x : Form α) : (x.map f).kind = x.kind := by
  cases x with
  | leaf => rfl
  | nested => rfl
  | compound body options => cases body <;> rfl
  | node n => cases n <;> rfl

theorem name_map (f : α → β) (x : Form α) : (x.map f).name = x.name := by
  rw [name, kind_map, name]

theorem kind_close (x : Form α) : x.close.kind = x.kind := by
  cases x with
  | leaf => rfl
  | nested => rfl
  | compound => rfl
  | node n => rfl

theorem name_close (x : Form α) : x.close.name = x.name := by
  rw [name, kind_close, name]

theorem children_close (x : Form α) : x.close.children = x.children := by
  cases x with
  | leaf => rfl
  | nested => rfl
  | compound => rfl
  | node n => rfl

/-- A node is closed before or after its sub-queries are replaced. -/
theorem close_map (f : α → β) (x : Form α) : (x.map f).close = x.close.map f := by
  cases x with
  | leaf => rfl
  | nested => rfl
  | compound => rfl
  | node n => simp only [map, close, BoundNode.body_map, BoundNode.options_map]

theorem map_map (f : α → β) (g : β → γ) (x : Form α) : (x.map f).map g = x.map (g ∘ f) := by
  cases x with
  | leaf => rfl
  | nested => rfl
  | compound body options => simp only [map, Compound.map_map]
  | node n => simp only [map, BoundNode.map_map]

theorem map_congr [Inhabited β] {f g : α → β} {x : Form α} (h : ∀ a ∈ x.children, f a = g a) :
    x.map f = x.map g := by
  rw [← refill_children_map f, ← refill_children_map g, List.map_congr_left h]

theorem map_id (x : Form α) : x.map id = x := by
  cases x with
  | leaf => rfl
  | nested => rfl
  | compound body options => rw [map, Compound.map_id]
  | node n => rw [map, BoundNode.map_id]

/-- Dealing out a list asks of a form only how many sub-queries stand in each place. -/
theorem refill_map [Inhabited γ] (g : α → β) (x : Form α) (cs : List γ) :
    (x.map g).refill cs = x.refill cs := by
  cases x with
  | leaf => rfl
  | nested => rfl
  | compound body options => simp only [map, refill, Compound.refill_map]
  | node n => simp only [map, refill, BoundNode.refill_map]

/-- A list as long as that of the sub-queries is dealt out whole and in order. -/
theorem children_refill [Inhabited β] {x : Form α} {cs : List β}
    (h : cs.length = x.children.length) : (x.refill cs).children = cs := by
  cases x with
  | leaf => exact (List.length_eq_zero_iff.mp h).symm
  | nested path query options =>
      obtain ⟨c, rfl⟩ := List.length_eq_one_iff.mp h
      rfl
  | compound body options => exact Compound.children_refill h
  | node n =>
      have hbody := Compound.children_refill h
      rw [← BoundNode.body_refill] at hbody
      exact hbody

/-- What is made of a list may be made before or after it is dealt out. -/
theorem map_refill [Inhabited β] [Inhabited γ] (g : β → γ) {x : Form α} {cs : List β}
    (h : cs.length = x.children.length) : (x.refill cs).map g = x.refill (cs.map g) := by
  cases x with
  | leaf => rfl
  | nested path query options =>
      -- Only here does the length count: the default of one type need not become that of the other.
      obtain ⟨c, rfl⟩ := List.length_eq_one_iff.mp h
      rfl
  | compound body options => exact congrArg (Form.compound · options) (body.map_refill g cs)
  | node n => exact congrArg Form.node (n.map_refill g cs)

/-- A form is dealt its own sub-queries. -/
theorem refill_children [Inhabited α] (x : Form α) : x.refill x.children = x := by
  have h := refill_children_map id x
  rwa [List.map_id, map_id] at h

end Form

end SearchQuery
