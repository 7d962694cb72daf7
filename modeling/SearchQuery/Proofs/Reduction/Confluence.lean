import Mathlib.Logic.Relation
import SearchQuery.Proofs.Position
import SearchQuery.Proofs.Reduction.Normal

/-!
# Reducing a part first

It does not matter to a reduction whether parts of the query have been reduced before. A part that
reduces to something may be replaced by it, and a part that comes to nothing may be taken out of
its slot, at any position that is not below a nested query. Both are changes of one query that its
own reduction does not notice: replacing a sub-query (`reduce_setChild`) and taking one out
(`reduce_dropChild`). `reduce_modifyAt` carries such a change from its position to the root.
-/

namespace SearchQuery

variable {α β : Type}

/-! ## 1. Taking a sub-query out of its slot -/

namespace ScoreFunction

/-- Takes the `i`-th of the filters away; its function stays. -/
def clearFilter : List (ScoreFunction α) → Nat → List (ScoreFunction α)
  | [], _ => []
  | s :: rest, i =>
    match s.filter, i with
    | none, i => s :: clearFilter rest i
    | some _, 0 => { s with filter := none } :: rest
    | some _, i + 1 => s :: clearFilter rest i

end ScoreFunction

/-- Takes the `i`-th clause out of its list, counted over all four places. -/
def BoolBody.dropChild (b : BoolBody α) (i : Nat) : BoolBody α :=
  let j := i - b.filter.length
  let k := j - b.should.length
  let l := k - b.must.length
  if i < b.filter.length then { b with filter := b.filter.eraseIdx i }
  else if j < b.should.length then { b with should := b.should.eraseIdx j }
  else if k < b.must.length then { b with must := b.must.eraseIdx k }
  else { b with mustNot := b.mustNot.eraseIdx l }

/-- Takes away the inner query or one of the filters, counted from the left. -/
def FunctionScoreBody.dropChild (b : FunctionScoreBody α) (i : Nat) : FunctionScoreBody α :=
  match b.query, i with
  | some _, 0 => { b with query := none }
  | some _, i + 1 => { b with functions := ScoreFunction.clearFilter b.functions i }
  | none, i => { b with functions := ScoreFunction.clearFilter b.functions i }

/-- Takes the `i`-th sub-query out of its slot; nothing changes when there is none. -/
def Compound.dropChild (c : Compound α) (i : Nat) : Compound α :=
  match c with
  | bool b => .bool (b.dropChild i)
  | disMax b => .disMax { b with queries := b.queries.eraseIdx i }
  | functionScore b => .functionScore (b.dropChild i)

/-- Takes the `i`-th sub-query out of its slot; nothing changes when there is none. -/
def BoundNode.dropChild (n : BoundNode α) (i : Nat) : BoundNode α :=
  match n with
  | bool handle node => .bool handle { node with body := node.body.dropChild i }
  | disMax handle node =>
    .disMax handle { node with body := { node.body with queries := node.body.queries.eraseIdx i } }
  | functionScore handle node =>
    .functionScore handle { node with body := node.body.dropChild i }

/-- Takes the `i`-th sub-query out of its slot. A nested query cannot do without its inner one. -/
def Form.dropChild (f : Form α) (i : Nat) : Form α :=
  match f with
  | leaf test options => .leaf test options
  | nested path query options => .nested path query options
  | compound body options => .compound (body.dropChild i) options
  | node n => .node (n.dropChild i)

namespace ScoreFunction

theorem filters_clearFilter (l : List (ScoreFunction α)) (i : Nat) :
    (clearFilter l i).filterMap filter = (l.filterMap filter).eraseIdx i := by
  induction l generalizing i with
  | nil => rfl
  | cons s l ih =>
      obtain ⟨filter, weight, kind⟩ := s
      rcases filter with _ | a
      · -- A function without a filter does not take part in the count.
        simp only [clearFilter, List.filterMap_cons, ih]
      · cases i with
        | zero => rfl
        | succ i => simp only [clearFilter, List.filterMap_cons, ih, List.eraseIdx_cons_succ]

/-- A filter that comes to nothing might as well have been taken away before. -/
theorem map_prune_clearFilter {f : α → Option β} {l : List (ScoreFunction α)} {i : Nat} {x : α}
    (hx : (l.filterMap filter)[i]? = some x) (hf : f x = none) :
    ((clearFilter l i).map (map f)).map prune = (l.map (map f)).map prune := by
  induction l generalizing i with
  | nil => rfl
  | cons s l ih =>
      obtain ⟨filter, weight, kind⟩ := s
      rcases filter with _ | a
      · -- The count goes on in the rest of the functions.
        simp only [List.filterMap_cons] at hx
        simp only [clearFilter, List.map_cons, ih hx]
      · simp only [List.filterMap_cons] at hx
        cases i with
        | zero =>
            rw [List.getElem?_cons_zero, Option.some.injEq] at hx
            simp only [clearFilter, List.map_cons, map, prune, hx, Option.map_some, Option.map_none,
              hf, Option.join_some, Option.join_none]
        | succ i =>
            rw [List.getElem?_cons_succ] at hx
            simp only [clearFilter, List.map_cons, ih hx]

end ScoreFunction

theorem filterMap_id_map_eraseIdx {f : α → Option β} {l : List α} {i : Nat} {x : α}
    (hx : l[i]? = some x) (hf : f x = none) :
    ((l.eraseIdx i).map f).filterMap id = (l.map f).filterMap id := by
  induction l generalizing i with
  | nil => rfl
  | cons a l ih =>
      cases i with
      | zero =>
          rw [List.getElem?_cons_zero, Option.some.injEq] at hx
          rw [List.eraseIdx_cons_zero, List.map_cons, hx, hf, List.filterMap_cons_none rfl]
      | succ i =>
          rw [List.getElem?_cons_succ] at hx
          rw [List.eraseIdx_cons_succ, List.map_cons, List.map_cons, List.filterMap_cons,
            List.filterMap_cons, ih hx]

namespace Compound

/-- The other sub-queries stay, in their order. -/
theorem children_dropChild (c : Compound α) (i : Nat) :
    (c.dropChild i).children = c.children.eraseIdx i := by
  cases c with
  | bool b =>
      -- The index runs through the four lists one after the other.
      simp only [dropChild, children, BoolBody.dropChild, BoolBody.children, List.append_assoc,
        List.eraseIdx_append]
      by_cases hf : i < b.filter.length
      · simp only [if_pos hf]
      by_cases hs : i - b.filter.length < b.should.length
      · simp only [if_neg hf, if_pos hs]
      by_cases hm : i - b.filter.length - b.should.length < b.must.length
      · simp only [if_neg hf, if_neg hs, if_pos hm]
      · simp only [if_neg hf, if_neg hs, if_neg hm]
  | disMax b => rfl
  | functionScore b =>
      obtain ⟨query, functions, scoreMode, boostMode, minScore⟩ := b
      rcases query with _ | q
      · exact ScoreFunction.filters_clearFilter functions i
      · cases i with
        | zero => rfl
        | succ i => exact congrArg (q :: ·) (ScoreFunction.filters_clearFilter functions i)

/-- A sub-query that comes to nothing might as well have been taken out before. -/
theorem prune_map_dropChild {f : α → Option β} {c : Compound α} {i : Nat} {x : α}
    (hx : c.children[i]? = some x) (hf : f x = none) :
    ((c.dropChild i).map f).prune = (c.map f).prune := by
  cases c with
  | bool b =>
      simp only [children, BoolBody.children, List.append_assoc, List.getElem?_append] at hx
      simp only [dropChild, BoolBody.dropChild]
      by_cases hfilter : i < b.filter.length
      · rw [if_pos hfilter] at hx ⊢
        simp only [map, prune, BoolBody.map, BoolBody.prune, filterMap_id_map_eraseIdx hx hf]
      by_cases hshould : i - b.filter.length < b.should.length
      · rw [if_neg hfilter, if_pos hshould] at hx ⊢
        simp only [map, prune, BoolBody.map, BoolBody.prune, filterMap_id_map_eraseIdx hx hf]
      by_cases hmust : i - b.filter.length - b.should.length < b.must.length
      · rw [if_neg hfilter, if_neg hshould, if_pos hmust] at hx ⊢
        simp only [map, prune, BoolBody.map, BoolBody.prune, filterMap_id_map_eraseIdx hx hf]
      · rw [if_neg hfilter, if_neg hshould, if_neg hmust] at hx ⊢
        simp only [map, prune, BoolBody.map, BoolBody.prune, filterMap_id_map_eraseIdx hx hf]
  | disMax b =>
      have hqueries := filterMap_id_map_eraseIdx (l := b.queries) hx hf
      simp only [dropChild, map, prune, hqueries]
  | functionScore b =>
      obtain ⟨query, functions, scoreMode, boostMode, minScore⟩ := b
      rcases query with _ | q
      · have hfilters := ScoreFunction.map_prune_clearFilter hx hf
        simp only [dropChild, FunctionScoreBody.dropChild, map, prune, FunctionScoreBody.map,
          FunctionScoreBody.prune, hfilters]
      · cases i with
        | zero =>
            have hq : q = x := Option.some.inj hx
            simp only [dropChild, FunctionScoreBody.dropChild, map, prune, FunctionScoreBody.map,
              FunctionScoreBody.prune, hq, Option.map_some, Option.map_none, hf, Option.join_some,
              Option.join_none]
        | succ i =>
            have hfilters := ScoreFunction.map_prune_clearFilter
              (l := functions) (i := i) (x := x) hx hf
            simp only [dropChild, FunctionScoreBody.dropChild, map, prune, FunctionScoreBody.map,
              FunctionScoreBody.prune, hfilters]

/-- Replacing a sub-query by one of which the same is made makes no difference. -/
theorem map_setChild {g : α → β} {c : Compound α} {i : Nat} {x y : α}
    (hx : c.children[i]? = some x) (hg : g y = g x) : (c.setChild i y).map g = c.map g := by
  -- A body is its shape and what stands in its places; the two bodies agree in both.
  have hshape (cs : List β) : (c.setChild i y).refill cs = c.refill cs := by
    rw [← refill_map (fun _ => ()), map_const_setChild, refill_map]
  have hset : (c.children.set i y).map g = c.children.map g := by
    obtain ⟨hi, rfl⟩ := List.getElem?_eq_some_iff.mp hx
    have hi' : i < (c.children.map g).length := by rwa [List.length_map]
    rw [List.map_set, hg, ← List.getElem_map g (h := hi'), List.set_getElem_self]
  rw [← refill_children_map, ← refill_children_map, hshape, children_setChild, hset]

end Compound

namespace BoundNode

theorem body_dropChild (n : BoundNode α) (i : Nat) :
    (n.dropChild i).body = n.body.dropChild i := by
  cases n with
  | bool handle node => rfl
  | disMax handle node => rfl
  | functionScore handle node => rfl

theorem options_dropChild (n : BoundNode α) (i : Nat) : (n.dropChild i).options = n.options := by
  cases n with
  | bool handle node => rfl
  | disMax handle node => rfl
  | functionScore handle node => rfl

theorem options_setChild (n : BoundNode α) (i : Nat) (x : α) :
    (n.setChild i x).options = n.options := by
  cases n with
  | bool handle node => rfl
  | disMax handle node => rfl
  | functionScore handle node => rfl

end BoundNode

namespace Query

/-- The query with its `i`-th direct sub-query taken out of its slot. -/
def dropChild (q : Query) (i : Nat) : Query := of (q.form.dropChild i)

/-- The query with the `i`-th sub-query of the one at a position taken out of its slot; `none` if
there is no such position. -/
def dropAt (q : Query) (p : Position) (i : Nat) : Option Query :=
  q.modifyAt p fun parent => parent.dropChild i

/-! ## 2. Changes that a reduction does not notice -/

section OneLevel

variable {q x : Query} {i : Nat}

theorem reduce_setChild {y : Query} (hq : q.form.isNested = false)
    (hx : q.children[i]? = some x) (hy : y.reduce = x.reduce) :
    (q.setChild i y).reduce = q.reduce := by
  obtain ⟨form⟩ := q
  cases form with
  | leaf test options => rfl
  | nested path query options => exact Bool.noConfusion hq
  | compound body options =>
      show (compound (body.setChild i y) options).reduce = (compound body options).reduce
      rw [reduce_compound, reduce_compound, Compound.map_setChild hx hy]
  | node n =>
      show (of (.node (n.setChild i y))).reduce = (of (.node n)).reduce
      rw [reduce_node, reduce_node, BoundNode.body_setChild, BoundNode.options_setChild,
        reduce_compound, reduce_compound, Compound.map_setChild hx hy]

theorem reduce_dropChild (hx : q.children[i]? = some x) (hnone : x.reduce = none) :
    (q.dropChild i).reduce = q.reduce := by
  obtain ⟨form⟩ := q
  cases form with
  | leaf test options => rfl
  | nested path query options => rfl
  | compound body options =>
      show (compound (body.dropChild i) options).reduce = (compound body options).reduce
      rw [reduce_compound, reduce_compound, Compound.prune_map_dropChild hx hnone]
  | node n =>
      show (of (.node (n.dropChild i))).reduce = (of (.node n)).reduce
      rw [reduce_node, reduce_node, BoundNode.body_dropChild, BoundNode.options_dropChild,
        reduce_compound, reduce_compound, Compound.prune_map_dropChild hx hnone]

end OneLevel

/-- No query on the way to the position is a nested one; at the position itself there may be one. -/
def OutsideNested (q : Query) (p : Position) : Prop :=
  ∀ s x, s <+: p → s ≠ p → q.at? s = some x → x.form.isNested = false

theorem outsideNested_cons {q : Query} {i : Nat} {p : Position} (h : q.OutsideNested (i :: p)) :
    q.form.isNested = false ∧ ∀ c, q.children[i]? = some c → c.OutsideNested p := by
  refine ⟨h [] q List.nil_prefix (List.cons_ne_nil i p).symm (at?_nil q), ?_⟩
  intro c hc s x hs hne hx
  refine h (i :: s) x (List.cons_prefix_cons.mpr ⟨rfl, hs⟩) (fun heq => hne ?_) ?_
  · exact (List.cons.inj heq).2
  · rw [at?_cons, hc, Option.bind_some, hx]

/-- A change that the reduction of the changed sub-query does not notice goes unnoticed by the
reduction of the whole. The induction goes down to the position; on the way there are only levels
that reduction looks into. -/
theorem reduce_modifyAt {q r x : Query} {p : Position} {change : Query → Query}
    (hx : q.at? p = some x) (hp : q.OutsideNested p) (hchange : (change x).reduce = x.reduce)
    (hr : q.modifyAt p change = some r) : r.reduce = q.reduce := by
  induction p generalizing q r with
  | nil =>
      rw [at?_nil, Option.some.injEq] at hx
      rw [modifyAt_nil, Option.some.injEq] at hr
      rw [← hr, hx, hchange]
  | cons i p ih =>
      obtain ⟨hnested, hbelow⟩ := outsideNested_cons hp
      obtain ⟨c, d, hc, hd, rfl⟩ := modifyAt_cons_eq_some_iff.mp hr
      have hxc : c.at? p = some x := by rwa [at?_cons, hc, Option.bind_some] at hx
      have hdc : d.reduce = c.reduce := ih hxc (hbelow c hc) hd
      exact reduce_setChild hnested hc hdc

/-! ## 3. Partial reductions -/

/-- One part of the query has been reduced: replaced by its reduction, or taken out of its slot if
nothing was left of it. -/
inductive PartReduced : Query → Query → Prop where
  | replaced {t t' s s' : Query} {p : Position} (part : t.at? p = some s)
    (outside : t.OutsideNested p) (left : s.reduce = some s')
    (result : t.replaceAt p s' = some t') : PartReduced t t'
  | dropped {t t' s : Query} {p : Position} {i : Nat} (part : t.at? (p ++ [i]) = some s)
    (outside : t.OutsideNested (p ++ [i])) (nothing : s.reduce = none)
    (result : t.dropAt p i = some t') : PartReduced t t'

/-- Where a part is, there is the query that it is a direct sub-query of. -/
theorem at?_parent {t s : Query} {p : Position} {i : Nat} (h : t.at? (p ++ [i]) = some s) :
    ∃ parent, t.at? p = some parent ∧ parent.children[i]? = some s := by
  rw [at?_append, Option.bind_eq_some_iff] at h
  obtain ⟨parent, hparent, hs⟩ := h
  obtain ⟨c, hc, hcs⟩ := at?_cons_eq_some_iff.mp hs
  rw [at?_nil, Option.some.injEq] at hcs
  exact ⟨parent, hparent, hcs ▸ hc⟩

/-- The way to the parent is part of the way to the part. -/
theorem OutsideNested.parent {t : Query} {p : Position} {i : Nat}
    (h : t.OutsideNested (p ++ [i])) : t.OutsideNested p := by
  intro s x hs hne hx
  refine h s x (hs.trans (List.prefix_append p [i])) (fun heq => ?_) hx
  have hlen := hs.length_le
  rw [heq, List.length_append, List.length_singleton] at hlen
  omega

theorem PartReduced.reduce_eq {t t' : Query} (h : PartReduced t t') : t'.reduce = t.reduce := by
  cases h with
  | replaced part outside left result =>
      -- The reduction of the part is normal, so nothing more becomes of it.
      refine reduce_modifyAt part outside ?_ result
      rw [(normal_of_reduce left).reduce_eq, left]
  | dropped part outside nothing result =>
      obtain ⟨parent, hparent, hs⟩ := at?_parent part
      exact reduce_modifyAt hparent outside.parent (reduce_dropChild hs nothing) result

/-- **Confluence.** At every position that is not below a nested query a part may be replaced by
its reduction, and below the root it may be taken out of its slot if nothing is left of it; the
reduction of the whole stays the same, after one such change and after any number of them in any
order. -/
theorem reduce_confluent (t : Query) :
    (∀ p s s', t.at? p = some s → t.OutsideNested p → s.reduce = some s' →
      ∃ t', t.replaceAt p s' = some t' ∧ t'.reduce = t.reduce) ∧
    (∀ p i s, t.at? (p ++ [i]) = some s → t.OutsideNested (p ++ [i]) → s.reduce = none →
      ∃ t', t.dropAt p i = some t' ∧ t'.reduce = t.reduce) ∧
    ∀ t', Relation.ReflTransGen PartReduced t t' → t'.reduce = t.reduce := by
  refine ⟨fun p s s' part outside left => ?_, fun p i s part outside nothing => ?_, ?_⟩
  · obtain ⟨t', ht'⟩ := exists_modifyAt part fun _ => s'
    exact ⟨t', ht', (PartReduced.replaced part outside left ht').reduce_eq⟩
  · obtain ⟨parent, hparent, -⟩ := at?_parent part
    obtain ⟨t', ht'⟩ := exists_modifyAt hparent fun parent => parent.dropChild i
    exact ⟨t', ht', (PartReduced.dropped part outside nothing ht').reduce_eq⟩
  · intro t' steps
    induction steps with
    | refl => rfl
    | tail _ step ih => rw [step.reduce_eq, ih]

/-! A query with one clause that comes to nothing and one that is a wrapper. -/

def wrappingQuery : Query := .bool { must := [.bool {}, .bool { must := [.leaf .matchAll] }] }

theorem outsideNested_clause (i : Nat) : wrappingQuery.OutsideNested [i] := by
  intro s x hs hne hx
  rcases List.prefix_cons_iff.mp hs with rfl | ⟨t, rfl, ht⟩
  · rw [at?_nil, Option.some.injEq] at hx
    rw [← hx]
    rfl
  · rw [List.prefix_nil.mp ht] at hne
    exact absurd rfl hne

theorem reduce_confluent_wrapping :
    (∃ t', wrappingQuery.replaceAt [1] (.leaf .matchAll) = some t' ∧
      t'.reduce = wrappingQuery.reduce) ∧
    (∃ t', wrappingQuery.dropAt [] 0 = some t' ∧ t'.reduce = wrappingQuery.reduce) ∧
    ∃ t', PartReduced wrappingQuery t' ∧ t'.reduce = wrappingQuery.reduce := by
  have hempty : (bool {}).reduce = none := by
    rw [bool, reduce_compound]
    rfl
  have hwrapper : (bool { must := [.leaf .matchAll] }).reduce = some (.leaf .matchAll) := by
    rw [bool, reduce_compound]
    show settle (Compound.prune (.bool { must := [(leaf .matchAll).reduce] })) _ = _
    rw [reduce_leaf]
    rfl
  have hconfluent := reduce_confluent wrappingQuery
  obtain ⟨t', ht', hdropped⟩ := hconfluent.2.1 [] 0 (.bool {}) rfl (outsideNested_clause 0) hempty
  have hstep : PartReduced wrappingQuery t' :=
    .dropped rfl (outsideNested_clause 0) hempty ht'
  exact ⟨hconfluent.1 [1] _ _ rfl (outsideNested_clause 1) hwrapper, ⟨t', ht', hdropped⟩, t', hstep,
    hconfluent.2.2 t' (.single hstep)⟩

end Query

end SearchQuery
