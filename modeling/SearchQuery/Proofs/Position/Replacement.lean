import SearchQuery.Proofs.Position

/-!
# Replacing sub-queries

There are three views of the direct sub-queries of a query: they are listed, one of them is
replaced, and a whole list of them is dealt out. Each goes through the places of a form on its own
way. That they meet the same places in the same order comes down to one fact: a level is its shape
together with the list of its sub-queries (`eq_of_shape_of_children`), and the views that change
sub-queries change that list and keep the shape.

With that, replacing at a position is a lens. `Query.put` replaces, and changes nothing where there
is nothing to be replaced; on the way down it modifies one entry of a list of sub-queries
(`children_put_cons`), so that its laws are those of modifying an entry, by induction on the
position.
-/

namespace SearchQuery

namespace Query

/-! ## 1. One level -/

/-- Dealing out sub-queries asks of a query for its shape only. -/
theorem withChildren_eq_refill_shape (q : Query) (cs : List Query) :
    q.withChildren cs = of (q.shape.refill cs) := by
  rw [withChildren, shape, Form.shape, Form.refill_map]

/-- A query is made of its shape and its direct sub-queries. -/
theorem eq_of_shape_of_children {q r : Query} (hshape : q.shape = r.shape)
    (hchildren : q.children = r.children) : q = r := by
  rw [← withChildren_children q, ← withChildren_children r, withChildren_eq_refill_shape,
    withChildren_eq_refill_shape, hshape, hchildren]

/-- Replacing one sub-query is dealing out the list with one entry set. -/
theorem setChild_eq_withChildren (q : Query) (i : Nat) (x : Query) :
    q.setChild i x = q.withChildren (q.children.set i x) :=
  congrArg of (q.form.setChild_eq_refill i x)

/-! ## 2. Replacing at a position -/

/-- The query with the sub-query at a position replaced. Nothing changes if there is no such
position. -/
def put (q : Query) (p : Position) (x : Query) : Query := (q.replaceAt p x).getD q

theorem replaceAt_cons (q : Query) (i : Nat) (p : Position) (x : Query) :
    q.replaceAt (i :: p) x
      = q.children[i]?.bind fun c => (c.replaceAt p x).map (q.setChild i) :=
  q.modifyAt_cons i p fun _ => x

theorem put_nil (q x : Query) : q.put [] x = x := rfl

theorem put_cons_of_getElem? {q c : Query} {i : Nat} (h : q.children[i]? = some c) (p : Position)
    (x : Query) : q.put (i :: p) x = q.setChild i (c.put p x) := by
  rw [put, replaceAt_cons, h, Option.bind_some, put]
  cases c.replaceAt p x with
  | some d => rfl
  | none =>
      -- There is no such position in the sub-query, which takes its own place.
      refine eq_of_shape_of_children (q.shape_setChild i c).symm ?_
      obtain ⟨hi, rfl⟩ := List.getElem?_eq_some_iff.mp h
      rw [Option.map_none, Option.getD_none, Option.getD_none, children_setChild,
        List.set_getElem_self]

theorem put_cons_of_getElem?_eq_none {q : Query} {i : Nat} (h : q.children[i]? = none)
    (p : Position) (x : Query) : q.put (i :: p) x = q := by
  rw [put, replaceAt_cons, h]
  rfl

/-- A replacement below a query keeps its shape. -/
theorem shape_put_cons (q : Query) (i : Nat) (p : Position) (x : Query) :
    (q.put (i :: p) x).shape = q.shape := by
  cases h : q.children[i]? with
  | none => rw [put_cons_of_getElem?_eq_none h]
  | some c => rw [put_cons_of_getElem? h, shape_setChild]

/-- It is a replacement in one of the sub-queries, if there is such a one. -/
theorem children_put_cons (q : Query) (i : Nat) (p : Position) (x : Query) :
    (q.put (i :: p) x).children = q.children.modify i fun c => c.put p x := by
  cases h : q.children[i]? with
  | none =>
      rw [put_cons_of_getElem?_eq_none h, List.modify_eq_self (List.getElem?_eq_none_iff.mp h)]
  | some c =>
      rw [put_cons_of_getElem? h, children_setChild, List.modify_eq_set, h, Option.getD_some]

/-! ## 3. The laws -/

/-- A replacement that can fail fails only where there is no such position. -/
theorem replaceAt_eq (q : Query) (p : Position) (x : Query) :
    q.replaceAt p x = (q.at? p).map fun _ => q.put p x := by
  induction p generalizing q with
  | nil => rfl
  | cons i p ih =>
      rw [replaceAt_cons, at?_cons]
      cases h : q.children[i]? with
      | none => rfl
      | some c =>
          rw [Option.bind_some, Option.bind_some, ih, put_cons_of_getElem? h, Option.map_map]
          rfl

theorem put_of_at?_eq_none {q : Query} {p : Position} (h : q.at? p = none) (x : Query) :
    q.put p x = q := by
  rw [put, replaceAt_eq, h]
  rfl

/-- What has been put at a position is found there. -/
theorem at?_put {q y : Query} {p : Position} (h : q.at? p = some y) (x : Query) :
    (q.put p x).at? p = some x := by
  have hr : q.replaceAt p x = some (q.put p x) := by rw [replaceAt_eq, h, Option.map_some]
  exact at?_modifyAt h hr

/-- Putting what is there changes nothing. -/
theorem put_of_at? {q x : Query} {p : Position} (h : q.at? p = some x) : q.put p x = q := by
  induction p generalizing q with
  | nil => exact (put_nil q x).trans (Option.some.inj h).symm
  | cons i p ih =>
      obtain ⟨c, hc, hx⟩ := at?_cons_eq_some_iff.mp h
      obtain ⟨hi, hget⟩ := List.getElem?_eq_some_iff.mp hc
      refine eq_of_shape_of_children (shape_put_cons q i p x) ?_
      rw [children_put_cons, List.modify_eq_set, hc, Option.getD_some, ih hx, ← hget,
        List.set_getElem_self]

/-- The second of two replacements at a position is the one that counts. -/
theorem put_put (q : Query) (p : Position) (x y : Query) : (q.put p x).put p y = q.put p y := by
  induction p generalizing q with
  | nil => rw [put_nil, put_nil]
  | cons i p ih =>
      have hparts : (fun c : Query => c.put p y) ∘ (fun c : Query => c.put p x)
          = fun c : Query => c.put p y :=
        funext ih
      refine eq_of_shape_of_children ?_ ?_
      · simp only [shape_put_cons]
      · rw [children_put_cons, children_put_cons, children_put_cons, List.modify_modify_eq, hparts]

/-- **Replacements commute** at positions of which neither is on the way to the other. The two ways
part at some level. Above it both go on into one and the same sub-query, and there into
different ones. -/
theorem put_comm {p s : Position} (hps : ¬ p <+: s) (hsp : ¬ s <+: p) (q x y : Query) :
    (q.put p x).put s y = (q.put s y).put p x := by
  induction p generalizing q s with
  | nil => exact absurd List.nil_prefix hps
  | cons i p ih =>
      cases s with
      | nil => exact absurd List.nil_prefix hsp
      | cons j s =>
          refine eq_of_shape_of_children ?_ ?_
          · simp only [shape_put_cons]
          · rw [children_put_cons, children_put_cons, children_put_cons, children_put_cons]
            by_cases hij : i = j
            · subst hij
              rw [List.prefix_cons_inj] at hps hsp
              have hparts : (fun c : Query => c.put s y) ∘ (fun c : Query => c.put p x)
                  = (fun c : Query => c.put p x) ∘ fun c : Query => c.put s y :=
                funext fun c => ih hps hsp c
              rw [List.modify_modify_eq, List.modify_modify_eq, hparts]
            · exact List.modify_modify_ne _ _ _ hij

/-- **The views of the sub-queries agree.** Replacing the `i`-th sub-query sets the `i`-th entry of
the list of sub-queries, dealing out a list makes it that list, and neither touches the shape, which
together with the sub-queries is all there is to a query. So replacing at positions is a lens: what
is put is read back, putting what is there changes nothing, the second of two replacements counts,
replacements in different places commute, and where there is no such position nothing changes. -/
theorem views_of_children_agree (q : Query) :
    (∀ i x, q.setChild i x = q.withChildren (q.children.set i x) ∧
      (q.setChild i x).children = q.children.set i x ∧ (q.setChild i x).shape = q.shape) ∧
    (∀ cs, cs.length = q.children.length →
      (q.withChildren cs).children = cs ∧ (q.withChildren cs).shape = q.shape) ∧
    q.withChildren q.children = q ∧
    (∀ r : Query, r.shape = q.shape → r.children = q.children → r = q) ∧
    (∀ p x, q.replaceAt p x = (q.at? p).map fun _ => q.put p x) ∧
    (∀ p x y, q.at? p = some y → (q.put p x).at? p = some x) ∧
    (∀ p x, q.at? p = some x → q.put p x = q) ∧
    (∀ p x y, (q.put p x).put p y = q.put p y) ∧
    (∀ p s x y, ¬ p <+: s → ¬ s <+: p → (q.put p x).put s y = (q.put s y).put p x) ∧
    (∀ p x, q.at? p = none → q.put p x = q) := by
  refine ⟨fun i x => ?_, fun cs hcs => ?_, q.withChildren_children, fun r hshape hchildren => ?_,
    q.replaceAt_eq, fun p x y hy => at?_put hy x, fun p x hx => put_of_at? hx, q.put_put,
    fun p s x y hps hsp => put_comm hps hsp q x y, fun p x hnone => put_of_at?_eq_none hnone x⟩
  · exact ⟨q.setChild_eq_withChildren i x, q.children_setChild i x, q.shape_setChild i x⟩
  · exact ⟨children_withChildren hcs, shape_withChildren hcs⟩
  · exact eq_of_shape_of_children hshape hchildren

/-! A node of three functions, of which the second has no filter, in a bool query. -/

def scoresHandle : Handle .functionScore := ⟨0, some "scores", "0x10"⟩

def filteredFunction : ScoreFunction Query := { filter := some (.bool {}), kind := .weight }

def scoringClause : Query :=
  .bool { must := [.node scoresHandle
    { body :=
        { query := some (.leaf .matchAll)
          functions := [filteredFunction, { kind := .weight }, filteredFunction] } }] }

/-- The filters are the second and the third sub-query of the node, and there is no fourth one. -/
theorem views_agree_on_scoringClause :
    ([.disMax {}] : List Query).length = scoringClause.children.length ∧
    (scoringClause.withChildren [.disMax {}]).children = [.disMax {}] ∧
    scoringClause.at? [0, 2] = some (.bool {}) ∧
    (scoringClause.put [0, 2] (.disMax {})).at? [0, 2] = some (.disMax {}) ∧
    ¬ [0, 1] <+: [0, 2] ∧ ¬ [0, 2] <+: [0, 1] ∧
    (scoringClause.put [0, 1] (.leaf .matchAll)).put [0, 2] (.disMax {})
      = (scoringClause.put [0, 2] (.disMax {})).put [0, 1] (.leaf .matchAll) ∧
    scoringClause.at? [0, 3] = none ∧
    scoringClause.put [0, 3] (.disMax {}) = scoringClause := by
  obtain ⟨-, hdealt, -, -, -, hread, -, -, hcomm, hnone⟩ := views_of_children_agree scoringClause
  have hone : ([.disMax {}] : List Query).length = scoringClause.children.length := rfl
  have hfilter : scoringClause.at? [0, 2] = some (.bool {}) := rfl
  have hapart : ¬ [0, 1] <+: [0, 2] := by decide
  have hapart' : ¬ [0, 2] <+: [0, 1] := by decide
  have hpast : scoringClause.at? [0, 3] = none := rfl
  exact ⟨hone, (hdealt _ hone).1, hfilter, hread _ _ _ hfilter, hapart, hapart',
    hcomm _ _ _ _ hapart hapart', hpast, hnone _ _ hpast⟩

end Query

end SearchQuery
