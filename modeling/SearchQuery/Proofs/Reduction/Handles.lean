import SearchQuery.Proofs.Mutation.Everywhere
import SearchQuery.Proofs.Reduction.Normal
import SearchQuery.Proofs.Reduction.Substitution

/-!
# Handles that survive reduction

Reduction turns the nodes that it comes to into the queries that they stand for, and their handles
are gone. It does not come to the nodes below a nested query, and these stay with their handles,
however many wrappers around the nested query go. So the handles bound in what is left are those
bound below nested queries (`boundCount_of_reduce`).

A change of nodes that are all below nested queries is a substitution (`changeBound_eq_substitute`),
and substitution passes through reduction. That is why such a node may be edited before the query is
reduced or after it, with the same outcome.
-/

namespace SearchQuery

variable {kind : NodeKind}

namespace Query

/-! ## 1. Below nested queries -/

/-- A nested query is passed on the way down to the position. -/
def BelowNested (q : Query) (p : Position) : Prop :=
  ∃ s x, s <+: p ∧ s ≠ p ∧ q.at? s = some x ∧ x.form.isNested = true

theorem not_belowNested_nil (q : Query) : ¬ q.BelowNested [] := by
  rintro ⟨s, x, hs, hne, -⟩
  exact hne (List.prefix_nil.mp hs)

theorem belowNested_cons_iff {q : Query} {i : Nat} {p : Position} :
    q.BelowNested (i :: p) ↔
      q.form.isNested = true ∨ ∃ c, q.children[i]? = some c ∧ c.BelowNested p :=
  exists_above_cons_iff

instance decidableBelowNested (q : Query) (p : Position) : Decidable (q.BelowNested p) :=
  match p with
  | [] => .isFalse q.not_belowNested_nil
  | i :: p =>
    match hc : q.children[i]? with
    | none =>
      decidable_of_iff (q.form.isNested = true)
        (by simp only [belowNested_cons_iff, hc, reduceCtorEq, false_and, exists_false, or_false])
    | some c =>
      have := decidableBelowNested c p
      decidable_of_iff (q.form.isNested = true ∨ c.BelowNested p)
        (by simp only [belowNested_cons_iff, hc, Option.some.injEq, exists_eq_left'])

/-- The positions below nested queries at which nodes bound to the handle stand. -/
def placesBelowNested (q : Query) (h : Handle kind) : Set Position :=
  {p | ∃ x, q.at? p = some x ∧ x.isBoundTo h = true ∧ q.BelowNested p}

/-- The number of nodes bound to the handle below nested queries. -/
def boundBelowNested (q : Query) (h : Handle kind) : Nat :=
  q.placed.countP fun x => x.2.isBoundTo h && decide (q.BelowNested x.1)

theorem finite_and_ncard_placesBelowNested (q : Query) (h : Handle kind) :
    (q.placesBelowNested h).Finite ∧ (q.placesBelowNested h).ncard = q.boundBelowNested h := by
  have hplaces := q.finite_and_ncard_positions
    fun x => x.2.isBoundTo h && decide (q.BelowNested x.1)
  simp only [Bool.and_eq_true, decide_eq_true_eq] at hplaces
  exact hplaces

/-- Below a nested query everything counts, and below any other query what is below a nested one
there. The query itself is not below any. -/
theorem boundBelowNested_eq (q : Query) (h : Handle kind) :
    q.boundBelowNested h
      = if q.form.isNested then total (fun c => c.boundCount h) q.children
        else total (fun c => c.boundBelowNested h) q.children := by
  have hindexed (f : Query → Nat) :
      total (fun c : Query × Nat => f c.1) q.children.zipIdx.reverse = total f q.children := by
    conv => rhs; rw [← List.zipIdx_map_fst 0 q.children]
    rw [total_reverse, total_map]
    rfl
  -- A position in a sub-query is below a nested query there or because the query is one itself.
  have hcount : ∀ c ∈ q.children.zipIdx.reverse,
      ((c.1.placed.map fun x => (c.2 :: x.1, x.2)).countP
          fun x => x.2.isBoundTo h && decide (q.BelowNested x.1))
        = if q.form.isNested then c.1.boundCount h else c.1.boundBelowNested h := by
    intro c hc
    rw [List.mem_reverse, List.mem_zipIdx_iff_getElem?] at hc
    rw [List.countP_map]
    by_cases hnested : q.form.isNested = true
    · rw [if_pos hnested, boundCount_eq]
      congr 1
      funext x
      simp only [Function.comp_apply, belowNested_cons_iff, hnested, true_or, decide_true,
        Bool.and_true]
    · rw [if_neg hnested, boundBelowNested]
      congr 1
      funext x
      simp only [Function.comp_apply, belowNested_cons_iff, hnested, hc, Option.some.injEq,
        exists_eq_left', Bool.false_eq_true, false_or]
  have hself : ¬ (q.isBoundTo h && decide (q.BelowNested [])) = true := by
    rw [decide_eq_false q.not_belowNested_nil, Bool.and_false]
    exact Bool.false_ne_true
  rw [boundBelowNested, placed_eq, List.countP_cons, if_neg hself, Nat.add_zero,
    countP_flatMap_eq_total, total_congr hcount]
  by_cases hnested : q.form.isNested = true
  · simp only [hnested, if_true]
    exact hindexed fun c => c.boundCount h
  · simp only [hnested]
    exact hindexed fun c => c.boundBelowNested h

/-- Nodes below nested queries are nodes of the query. -/
theorem boundBelowNested_le (q : Query) (h : Handle kind) :
    q.boundBelowNested h ≤ q.boundCount h := by
  rw [boundBelowNested, boundCount_eq]
  refine List.countP_mono_left fun x _ hx => ?_
  exact (Bool.and_eq_true_iff.mp hx).1

/-! ## 2. What is bound after a reduction -/

/-- Reduction keeps the nodes below nested queries and no others. -/
theorem boundCount_reduce (t : Query) (h : Handle kind) :
    t.reduce.elim 0 (fun r => r.boundCount h) = t.boundBelowNested h := by
  refine reduce_induction
    (motive := fun q result => result.elim 0 (fun r => r.boundCount h) = q.boundBelowNested h)
    ?_ ?_ ?_ ?_ t
  · intro test options
    rw [Option.elim_some, boundCount_cons, boundBelowNested_eq]
    rfl
  · intro path query options
    rw [Option.elim_some, boundCount_cons, boundBelowNested_eq]
    exact Nat.zero_add _
  · intro body options ih
    have hcount (body : Compound Query) (options : Parameters) :
        (compound body options).boundCount h = total (fun c => c.boundCount h) body.children := by
      rw [boundCount_cons]
      exact Nat.zero_add _
    rw [total_settle hcount, total_children_left, total_congr ih, boundBelowNested_eq]
    rfl
  · intro n result ih
    rw [ih, boundBelowNested_eq, boundBelowNested_eq]
    rfl

theorem boundCount_of_reduce {t r : Query} (hr : t.reduce = some r) (h : Handle kind) :
    r.boundCount h = t.boundBelowNested h := by
  rw [← boundCount_reduce, hr, Option.elim_some]

/-- What is left of a query is reduced already, so it has nodes below nested queries only. -/
theorem boundBelowNested_of_reduce {t r : Query} (hr : t.reduce = some r) (h : Handle kind) :
    r.boundBelowNested h = r.boundCount h :=
  (boundCount_of_reduce (normal_of_reduce hr).reduce_eq h).symm

/-! ## 3. Editing before and after a reduction -/

section Edits

variable {h : Handle kind} {change : Node Query kind → Node Query kind}

theorem isAtom_changeBound {q : Query} (hq : q.isAtom = true) :
    (q.changeBound h change).isAtom = true := by
  obtain ⟨form⟩ := q
  cases form with
  | leaf test options => rw [changeBound_eq]; rfl
  | nested path query options => rw [changeBound_eq]; rfl
  | compound body options => cases hq
  | node n => cases hq

/-- Where all nodes that are changed are below nested queries, the change replaces these nested
queries and nothing else. -/
theorem changeBound_eq_substitute {q : Query} (hq : q.boundBelowNested h = q.boundCount h) :
    q.changeBound h change = q.substitute (changeBound h change) := by
  induction q using Query.induction with
  | step q ih =>
      by_cases hatom : q.isAtom = true
      · rw [substitute_of_isAtom _ hatom]
      · rw [Bool.not_eq_true] at hatom
        have hnested : ¬ q.form.isNested = true := by
          obtain ⟨form⟩ := q
          cases form with
          | nested path query options => cases hatom
          | _ => exact Bool.false_ne_true
        have hle : total (fun c => c.boundBelowNested h) q.children
            ≤ total (fun c => c.boundCount h) q.children :=
          total_le_total fun c _ => c.boundBelowNested_le h
        rw [boundBelowNested_eq, if_neg hnested, boundCount_cons] at hq
        -- The counts are equal, so the query itself does not count, and no sub-query has more.
        have hb : q.isBoundTo h = false := by
          rw [← Bool.not_eq_true]
          intro hb
          rw [if_pos hb] at hq
          omega
        rw [hb, if_neg Bool.false_ne_true, Nat.zero_add] at hq
        have hparts : ∀ c ∈ q.children, c.boundBelowNested h = c.boundCount h :=
          eq_of_total_eq (fun c _ => c.boundBelowNested_le h) hq
        have hsub : q.mapChildren (changeBound h change)
            = q.mapChildren (substitute (changeBound h change)) :=
          mapChildren_congr fun c hc => ih c hc (hparts c hc)
        have hb' : (q.mapChildren (substitute (changeBound h change))).isBoundTo h = false := by
          rw [isBoundTo_mapChildren, hb]
        rw [changeBound_eq, hsub, changeIfBound_of_not_bound hb', substitute_of_not_isAtom _ hatom]
        rfl

/-- A change of nodes below nested queries passes through reduction. -/
theorem reduce_changeBound {t r : Query} (hr : t.reduce = some r)
    (hbelow : t.boundBelowNested h = t.boundCount h) :
    (t.changeBound h change).reduce = some (r.changeBound h change) := by
  have hatoms : ∀ x : Query, x.isAtom = true →
      (x.changeBound h change).reduce = some (x.changeBound h change) :=
    fun x hx => reduce_of_isAtom (isAtom_changeBound hx)
  rw [changeBound_eq_substitute hbelow, reduce_substitute hatoms, hr, Option.map_some,
    changeBound_eq_substitute (boundBelowNested_of_reduce hr h)]

end Edits

/-- **Handles survive reduction exactly below nested queries.** What is left of a query has as many
nodes bound to a handle as the query has below nested queries, and nothing is left only if there are
none. If the only node that the handle is bound to is one of them, it may be edited before the
reduction or after it: both edits are carried out, whatever they do, and the two ways end in the
same query. -/
theorem nested_handles_survive (t : Query) (h : Handle kind) :
    (t.placesBelowNested h).Finite ∧
    (∀ r, t.reduce = some r → r.boundCount h = (t.placesBelowNested h).ncard) ∧
    (t.reduce = none → t.placesBelowNested h = ∅) ∧
    (t.boundCount h = 1 → (t.placesBelowNested h).Nonempty →
      ∀ change : Node Query kind → Node Query kind, ∃ t' r r',
        t.mutate h change = .ok t' ∧ t.reduce = some r ∧ r.mutate h change = .ok r' ∧
          t'.reduce = some r') := by
  obtain ⟨hfinite, hcard⟩ := t.finite_and_ncard_placesBelowNested h
  refine ⟨hfinite, fun r hr => ?_, fun hnone => ?_, fun hone hplaces change => ?_⟩
  · rw [hcard, boundCount_of_reduce hr]
  · rw [← Set.ncard_eq_zero hfinite, hcard, ← boundCount_reduce, hnone, Option.elim_none]
  · have hpos : 0 < t.boundBelowNested h := by
      rw [← hcard]
      exact (Set.ncard_pos hfinite).mpr hplaces
    have hbelow : t.boundBelowNested h = t.boundCount h := by
      have hle := t.boundBelowNested_le h
      omega
    cases hr : t.reduce with
    | none =>
        rw [← boundCount_reduce, hr, Option.elim_none] at hpos
        exact absurd hpos (Nat.lt_irrefl 0)
    | some r =>
        have hone' : r.boundCount h = 1 := by rw [boundCount_of_reduce hr, hbelow, hone]
        exact ⟨_, r, _, mutate_of_bound_once hone, rfl, mutate_of_bound_once hone',
          reduce_changeBound hr hbelow⟩

/-! A node below a nested query, in a wrapper that goes. -/

def keptHandle : Handle .bool := ⟨0, some "kept", "0x10"⟩

def nestedNode : Query := .nested ⟨"comments"⟩ (.node keptHandle {})

def wrappedNode : Query := .bool { must := [nestedNode] }

theorem boundCount_wrappedNode : wrappedNode.boundCount keptHandle = 1 := by cbv

theorem reduce_wrappedNode : wrappedNode.reduce = some nestedNode := by
  rw [reduce_eq_byRules]
  rfl

theorem mem_placesBelowNested_wrappedNode :
    [0, 0] ∈ wrappedNode.placesBelowNested keptHandle :=
  ⟨.node keptHandle {}, rfl, rfl, [0], nestedNode, ⟨[0], rfl⟩, by decide, rfl, rfl⟩

/-- The node is one position higher after the reduction, and a clause may be added to it before or
after that. -/
theorem nested_handles_survive_wrapped :
    wrappedNode.boundCount keptHandle = 1 ∧
    [0, 0] ∈ wrappedNode.placesBelowNested keptHandle ∧
    nestedNode.boundCount keptHandle = (wrappedNode.placesBelowNested keptHandle).ncard ∧
    ∃ t' r', wrappedNode.mutate keptHandle (Edit.addClause .must (.leaf .matchAll)).apply = .ok t' ∧
      nestedNode.mutate keptHandle (Edit.addClause .must (.leaf .matchAll)).apply = .ok r' ∧
      t'.reduce = some r' := by
  obtain ⟨-, hcount, -, hedit⟩ := nested_handles_survive wrappedNode keptHandle
  obtain ⟨t', r, r', ht', hr, hr', hreduce⟩ := hedit boundCount_wrappedNode
    ⟨_, mem_placesBelowNested_wrappedNode⟩ (Edit.addClause .must (.leaf .matchAll)).apply
  rw [reduce_wrappedNode, Option.some.injEq] at hr
  rw [← hr] at hr'
  exact ⟨boundCount_wrappedNode, mem_placesBelowNested_wrappedNode,
    hcount nestedNode reduce_wrappedNode, t', r', ht', hr', hreduce⟩

end Query

end SearchQuery
