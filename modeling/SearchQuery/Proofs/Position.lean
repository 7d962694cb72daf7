import SearchQuery.Proofs.Form
import SearchQuery.Query.Position

/-!
# Changing a query at a position

A change at a position goes down the query, keeps the levels it passes and puts them back around the
changed sub-query. Section 1 says what replacing one direct sub-query does to a form: the list of
sub-queries has one entry set (`Form.children_setChild`), and the rest of the form, its `shape`, is
what it was (`Form.shape_setChild`); dealing out a whole list of them likewise changes nothing else
(`Form.shape_refill`). Section 2 unwinds the loop into a recursion on the position
(`modifyAt_cons`). Section 3 draws the frame condition from the two: at the position there is the
changed sub-query, and at every position that is not below it the shape is what it was.
-/

namespace SearchQuery

variable {α β : Type}

/-! ## 1. One direct sub-query -/

namespace ScoreFunction

theorem filters_setFilter (x : α) (l : List (ScoreFunction α)) (i : Nat) :
    (setFilter x l i).filterMap filter = (l.filterMap filter).set i x := by
  induction l generalizing i with
  | nil => rfl
  | cons s l ih =>
      obtain ⟨filter, weight, kind⟩ := s
      rcases filter with _ | a
      · -- A function without a filter does not take part in the count.
        simp only [setFilter, List.filterMap_cons, ih]
      · cases i with
        | zero => rfl
        | succ i => simp only [setFilter, List.filterMap_cons, ih, List.set_cons_succ]

theorem map_const_setFilter (y : β) (x : α) (l : List (ScoreFunction α)) (i : Nat) :
    (setFilter x l i).map (map fun _ => y) = l.map (map fun _ => y) := by
  induction l generalizing i with
  | nil => rfl
  | cons s l ih =>
      obtain ⟨filter, weight, kind⟩ := s
      rcases filter with _ | a
      · simp only [setFilter, List.map_cons, ih]
      · cases i with
        | zero => simp only [setFilter, List.map_cons, map, Option.map_some]
        | succ i => simp only [setFilter, List.map_cons, ih]

end ScoreFunction

theorem map_const_set (y : β) (x : α) (l : List α) (i : Nat) :
    (l.set i x).map (fun _ => y) = l.map fun _ => y := by
  rw [List.map_const', List.map_const', List.length_set]

namespace Compound

theorem children_setChild (c : Compound α) (i : Nat) (x : α) :
    (c.setChild i x).children = c.children.set i x := by
  cases c with
  | bool b =>
      -- The index runs through the four lists one after the other, as in a list set by index.
      simp only [setChild, children, BoolBody.setChild, BoolBody.children, List.append_assoc,
        List.set_append]
      by_cases hf : i < b.filter.length
      · simp only [if_pos hf]
      by_cases hs : i - b.filter.length < b.should.length
      · simp only [if_neg hf, if_pos hs]
      by_cases hm : i - b.filter.length - b.should.length < b.must.length
      · simp only [if_neg hf, if_neg hs, if_pos hm]
      · simp only [if_neg hf, if_neg hs, if_neg hm]
  | disMax b => rfl
  | functionScore b =>
      obtain ⟨query, functions, scoreMode, boostMode, minScore⟩ := b
      rcases query with _ | q
      · exact ScoreFunction.filters_setFilter x functions i
      · cases i with
        | zero => rfl
        | succ i => exact congrArg (q :: ·) (ScoreFunction.filters_setFilter x functions i)

theorem map_const_setChild (y : β) (c : Compound α) (i : Nat) (x : α) :
    (c.setChild i x).map (fun _ => y) = c.map fun _ => y := by
  cases c with
  | bool b =>
      simp only [setChild, BoolBody.setChild, map]
      split
      · simp only [BoolBody.map, map_const_set]
      split
      · simp only [BoolBody.map, map_const_set]
      split
      · simp only [BoolBody.map, map_const_set]
      · simp only [BoolBody.map, map_const_set]
  | disMax b => simp only [setChild, map, map_const_set]
  | functionScore b =>
      obtain ⟨query, functions, scoreMode, boostMode, minScore⟩ := b
      rcases query with _ | q
      · simp only [setChild, FunctionScoreBody.setChild, map, FunctionScoreBody.map,
          ScoreFunction.map_const_setFilter]
      · cases i with
        | zero => simp only [setChild, FunctionScoreBody.setChild, map, FunctionScoreBody.map,
            Option.map_some]
        | succ i => simp only [setChild, FunctionScoreBody.setChild, map, FunctionScoreBody.map,
            ScoreFunction.map_const_setFilter]

end Compound

namespace BoundNode

theorem body_setChild (n : BoundNode α) (i : Nat) (x : α) :
    (n.setChild i x).body = n.body.setChild i x := by
  cases n with
  | bool handle node => rfl
  | disMax handle node => rfl
  | functionScore handle node => rfl

theorem map_const_setChild (y : β) (n : BoundNode α) (i : Nat) (x : α) :
    (n.setChild i x).map (fun _ => y) = n.map fun _ => y := by
  cases n with
  | bool handle node =>
      have h := Compound.map_const_setChild y (.bool node.body) i x
      simp only [Compound.setChild, Compound.map, Compound.bool.injEq] at h
      simp only [setChild, map, h]
  | disMax handle node => simp only [setChild, map, map_const_set]
  | functionScore handle node =>
      have h := Compound.map_const_setChild y (.functionScore node.body) i x
      simp only [Compound.setChild, Compound.map, Compound.functionScore.injEq] at h
      simp only [setChild, map, h]

end BoundNode

namespace Form

/-- Everything about a form but what its sub-queries are: its kind, how many sub-queries stand in
each place, and all its settings. -/
def shape (f : Form α) : Form Unit := f.map fun _ => ()

theorem children_setChild (f : Form α) (i : Nat) (x : α) :
    (f.setChild i x).children = f.children.set i x := by
  cases f with
  | leaf test options => rfl
  | nested path query options =>
      cases i with
      | zero => rfl
      | succ i => rfl
  | compound body options => exact body.children_setChild i x
  | node n =>
      simp only [setChild, children, BoundNode.body_setChild]
      exact n.body.children_setChild i x

theorem shape_setChild (f : Form α) (i : Nat) (x : α) : (f.setChild i x).shape = f.shape := by
  cases f with
  | leaf test options => rfl
  | nested path query options => rfl
  | compound body options =>
      simp only [setChild, shape, map, Compound.map_const_setChild]
  | node n => simp only [setChild, shape, map, BoundNode.map_const_setChild]

/-- Dealing out other sub-queries, as many as there are, changes nothing but them. -/
theorem shape_refill [Inhabited β] {f : Form α} {cs : List β}
    (h : cs.length = f.children.length) : (f.refill cs).shape = f.shape := by
  have hplaces : cs.map (fun _ => ()) = f.children.map fun _ => () := by
    rw [List.map_const', List.map_const', h]
  rw [shape, map_refill _ h, hplaces, refill_children_map, shape]

/-- Replacing one sub-query is dealing out the list with one entry set. -/
theorem setChild_eq_refill [Inhabited α] (f : Form α) (i : Nat) (x : α) :
    f.setChild i x = f.refill (f.children.set i x) := by
  have hshape : (f.setChild i x).shape.refill (f.children.set i x)
      = f.shape.refill (f.children.set i x) := by rw [shape_setChild]
  rw [shape, refill_map, shape, refill_map] at hshape
  rw [← hshape, ← children_setChild, refill_children]

end Form

/-! ## 2. The recursion -/

namespace Query

/-- Everything about the topmost level of a query but what its sub-queries are. -/
def shape (q : Query) : Form Unit := q.form.shape

theorem children_setChild (q : Query) (i : Nat) (x : Query) :
    (q.setChild i x).children = q.children.set i x :=
  q.form.children_setChild i x

theorem shape_setChild (q : Query) (i : Nat) (x : Query) : (q.setChild i x).shape = q.shape :=
  q.form.shape_setChild i x

theorem children_withChildren {q : Query} {cs : List Query}
    (h : cs.length = q.children.length) : (q.withChildren cs).children = cs :=
  Form.children_refill h

theorem shape_withChildren {q : Query} {cs : List Query}
    (h : cs.length = q.children.length) : (q.withChildren cs).shape = q.shape :=
  Form.shape_refill h

theorem withChildren_children (q : Query) : q.withChildren q.children = q := by
  rw [withChildren, children, Form.refill_children, of_form]

theorem at?_nil (q : Query) : q.at? [] = some q := rfl

theorem at?_cons (q : Query) (i : Nat) (p : Position) :
    q.at? (i :: p) = q.children[i]?.bind fun c => c.at? p := by
  rw [at?]
  cases q.children[i]? with
  | none => rfl
  | some c => rfl

theorem at?_cons_eq_some_iff {q x : Query} {i : Nat} {p : Position} :
    q.at? (i :: p) = some x ↔ ∃ c, q.children[i]? = some c ∧ c.at? p = some x := by
  rw [at?_cons, Option.bind_eq_some_iff]

/-- Going down a way in two parts is going down the one and then the other. -/
theorem at?_append (q : Query) (p s : Position) :
    q.at? (p ++ s) = (q.at? p).bind fun x => x.at? s := by
  induction p generalizing q with
  | nil => rfl
  | cons i p ih =>
      rw [List.cons_append, at?_cons, at?_cons]
      cases q.children[i]? with
      | none => rfl
      | some c => exact ih c

/-- Above a position below an index are the query itself and, in the sub-query at the index, what is
above the rest of the position. -/
theorem exists_above_cons_iff {P : Query → Prop} {q : Query} {i : Nat} {p : Position} :
    (∃ s x, s <+: i :: p ∧ s ≠ i :: p ∧ q.at? s = some x ∧ P x) ↔
      P q ∨ ∃ c, q.children[i]? = some c ∧
        ∃ s x, s <+: p ∧ s ≠ p ∧ c.at? s = some x ∧ P x := by
  constructor
  · rintro ⟨s, x, hs, hne, hx, hP⟩
    rcases List.prefix_cons_iff.mp hs with rfl | ⟨s', rfl, hs'⟩
    · rw [at?_nil, Option.some.injEq] at hx
      exact Or.inl (hx ▸ hP)
    · obtain ⟨c, hc, hcx⟩ := at?_cons_eq_some_iff.mp hx
      exact Or.inr ⟨c, hc, s', x, hs', fun heq => hne (heq ▸ rfl), hcx, hP⟩
  · rintro (hP | ⟨c, hc, s, x, hs, hne, hx, hP⟩)
    · exact ⟨[], q, List.nil_prefix, (List.cons_ne_nil i p).symm, at?_nil q, hP⟩
    · refine ⟨i :: s, x, List.cons_prefix_cons.mpr ⟨rfl, hs⟩, fun heq => ?_, ?_, hP⟩
      · exact hne (List.cons.inj heq).2
      · exact at?_cons_eq_some_iff.mpr ⟨c, hc, hx⟩

/-- A direct sub-query is at a position of length one. -/
theorem exists_at?_of_mem_children {c q : Query} (h : c ∈ q.children) :
    ∃ i, ∀ (p : Position), q.at? (i :: p) = c.at? p := by
  obtain ⟨i, hi⟩ := List.mem_iff_getElem?.mp h
  refine ⟨i, fun p => ?_⟩
  rw [at?_cons, hi, Option.bind_some]

/-- What holds of the queries at all positions holds of the query itself and of those at the
positions of its sub-queries. -/
theorem forall_at?_iff {P : Query → Prop} {q : Query} :
    (∀ (p : Position) (x : Query), q.at? p = some x → P x) ↔
      P q ∧ ∀ c ∈ q.children, ∀ (p : Position) (x : Query), c.at? p = some x → P x := by
  constructor
  · intro h
    refine ⟨h [] q (at?_nil q), fun c hc p x hx => ?_⟩
    obtain ⟨i, hi⟩ := exists_at?_of_mem_children hc
    exact h (i :: p) x ((hi p).trans hx)
  · rintro ⟨hq, hchildren⟩ p x hx
    cases p with
    | nil =>
        rw [at?_nil, Option.some.injEq] at hx
        exact hx ▸ hq
    | cons i p =>
        obtain ⟨c, hc, hcx⟩ := at?_cons_eq_some_iff.mp hx
        exact hchildren c (List.mem_of_getElem? hc) p x hcx

theorem modifyLoop_eq (change : Query → Query) (q : Query) (p : Position)
    (levels : List (Query × Nat)) :
    modifyLoop change q p levels = (q.modifyAt p change).map (·.rebuild levels) := by
  induction p generalizing q levels with
  | nil => rfl
  | cons i p ih =>
      rw [modifyAt, modifyLoop, modifyLoop]
      cases q.children[i]? with
      | none => rfl
      | some c =>
          -- The level passed here is the last one to be put back.
          simp only [ih, Option.map_map]
          rfl

theorem modifyAt_nil (q : Query) (change : Query → Query) :
    q.modifyAt [] change = some (change q) := rfl

theorem modifyAt_cons (q : Query) (i : Nat) (p : Position) (change : Query → Query) :
    q.modifyAt (i :: p) change
      = q.children[i]?.bind fun c => (c.modifyAt p change).map (q.setChild i) := by
  rw [modifyAt, modifyLoop]
  cases q.children[i]? with
  | none => rfl
  | some c => exact modifyLoop_eq change c p [(q, i)]

theorem modifyAt_cons_eq_some_iff {q r : Query} {i : Nat} {p : Position}
    {change : Query → Query} :
    q.modifyAt (i :: p) change = some r ↔
      ∃ c d, q.children[i]? = some c ∧ c.modifyAt p change = some d ∧ q.setChild i d = r := by
  rw [modifyAt_cons, Option.bind_eq_some_iff]
  simp only [Option.map_eq_some_iff, exists_and_left]

/-- A change succeeds at every position that there is. -/
theorem exists_modifyAt {q x : Query} {p : Position} (h : q.at? p = some x)
    (change : Query → Query) : ∃ r, q.modifyAt p change = some r := by
  induction p generalizing q with
  | nil => exact ⟨change q, rfl⟩
  | cons i p ih =>
      obtain ⟨c, hc, hx⟩ := at?_cons_eq_some_iff.mp h
      obtain ⟨d, hd⟩ := ih hx
      exact ⟨q.setChild i d, modifyAt_cons_eq_some_iff.mpr ⟨c, d, hc, hd, rfl⟩⟩

/-- A change is a replacement: it is only asked what to make of the sub-query at the position. -/
theorem modifyAt_eq_replaceAt {q x : Query} {p : Position} (h : q.at? p = some x)
    (change : Query → Query) : q.modifyAt p change = q.replaceAt p (change x) := by
  induction p generalizing q with
  | nil =>
      rw [at?_nil, Option.some.injEq] at h
      rw [replaceAt, modifyAt_nil, modifyAt_nil, h]
  | cons i p ih =>
      obtain ⟨c, hc, hx⟩ := at?_cons_eq_some_iff.mp h
      have hsub := ih hx
      rw [replaceAt] at hsub
      rw [replaceAt, modifyAt_cons, modifyAt_cons, hc, Option.bind_some, Option.bind_some, hsub]

/-! ## 3. What a change reaches -/

/-- The changed sub-query is at the position. -/
theorem at?_modifyAt {q r x : Query} {p : Position} {change : Query → Query}
    (hx : q.at? p = some x) (h : q.modifyAt p change = some r) : r.at? p = some (change x) := by
  induction p generalizing q r with
  | nil =>
      rw [at?_nil, Option.some.injEq] at hx
      rw [modifyAt_nil, Option.some.injEq] at h
      rw [at?_nil, ← h, hx]
  | cons i p ih =>
      obtain ⟨c, d, hc, hd, rfl⟩ := modifyAt_cons_eq_some_iff.mp h
      rw [at?_cons, hc, Option.bind_some] at hx
      obtain ⟨hi, -⟩ := List.getElem?_eq_some_iff.mp hc
      rw [at?_cons, children_setChild, List.getElem?_set_self hi, Option.bind_some, ih hx hd]

/-- **Frame condition.** At a position that is not below the changed one, the query has the shape it
had: above the change only a sub-query is another, and elsewhere nothing is. -/
theorem shape_at?_modifyAt {q r : Query} {p s : Position} {change : Query → Query}
    (h : q.modifyAt p change = some r) (hs : ¬ p <+: s) :
    (r.at? s).map shape = (q.at? s).map shape := by
  induction p generalizing q r s with
  | nil => exact absurd List.nil_prefix hs
  | cons i p ih =>
      obtain ⟨c, d, hc, hd, rfl⟩ := modifyAt_cons_eq_some_iff.mp h
      cases s with
      | nil => simp only [at?_nil, Option.map_some, shape_setChild]
      | cons j s =>
          rw [at?_cons, at?_cons, children_setChild]
          by_cases hij : i = j
          · subst hij
            obtain ⟨hi, -⟩ := List.getElem?_eq_some_iff.mp hc
            rw [List.getElem?_set_self hi, hc, Option.bind_some, Option.bind_some]
            -- On the way to the change: the rest of the position is not below the rest of the way.
            refine ih hd fun hps => hs ?_
            exact List.cons_prefix_cons.mpr ⟨rfl, hps⟩
          · rw [List.getElem?_set_ne hij]

end Query

end SearchQuery
