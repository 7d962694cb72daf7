import SearchQuery.Proofs.Compilation
import SearchQuery.Proofs.Reduction.Rules
import SearchQuery.Proofs.Walk

/-!
# Reduction never grows a query

What is left of a query is no deeper than the query and holds no more queries. Nor does it hold as
many, unless the query was all but reduced: then it is the query with its nodes closed, at every
level that reduction looks at (`Query.closeOutsideNested`).

The three go through one induction (`NoLarger`). Where a body stands, its sub-queries are bounded
one by one, and none of them can be missing if the counts are equal. Where it does not, one level is
gone and the query is strictly smaller.

So a query that may be written as it stands is never refused when it is compiled, nor is a request
all of whose queries are of this kind (`reduce_never_grows`).
-/

namespace SearchQuery

namespace Query

/-! ## 1. Closing what is not nested -/

/-- Closes a query at every level outside nested queries: each node there becomes the query it
stands for. A nested query stays as it is, with the nodes below it. -/
def closeOutsideNested (q : Query) : Query :=
  match q.form with
  | .nested .. => q
  | f => of (f.close.refill (q.children.attach.map fun c => closeOutsideNested c.1))
termination_by sizeOf q
decreasing_by exact sizeOf_lt_of_mem_children c.2

theorem closeOutsideNested_leaf (test : LeafTest) (options : Parameters) :
    (leaf test options).closeOutsideNested = leaf test options := by
  rw [closeOutsideNested]
  rfl

theorem closeOutsideNested_nested (path : Field) (query : Query) (options : Parameters) :
    (nested path query options).closeOutsideNested = nested path query options := by
  rw [closeOutsideNested]
  rfl

theorem closeOutsideNested_compound (body : Compound Query) (options : Parameters) :
    (compound body options).closeOutsideNested
      = compound (body.map closeOutsideNested) options := by
  rw [closeOutsideNested, List.attach_map_val (f := closeOutsideNested)]
  show compound (body.refill (body.children.map closeOutsideNested)) options = _
  rw [Compound.refill_children_map]

/-- A node becomes what the query it stands for becomes. -/
theorem closeOutsideNested_node (n : BoundNode Query) :
    (of (.node n)).closeOutsideNested = (compound n.body n.options).closeOutsideNested := by
  rw [closeOutsideNested, closeOutsideNested, List.attach_map_val (f := closeOutsideNested),
    List.attach_map_val (f := closeOutsideNested)]
  rfl

/-- A node is as deep as the query that it stands for. -/
theorem depth_node (n : BoundNode Query) :
    (of (.node n)).depth = (compound n.body n.options).depth := by
  rw [depth_eq, depth_eq]
  rfl

theorem countNodes_node (n : BoundNode Query) :
    (of (.node n)).countNodes = (compound n.body n.options).countNodes := by
  rw [countNodes_eq, countNodes_eq]
  rfl

/-- Closing takes no query away. -/
theorem countNodes_closeOutsideNested (q : Query) :
    q.closeOutsideNested.countNodes = q.countNodes := by
  induction q using Query.induction with
  | step q ih =>
      have hcompound : ∀ body options, (∀ c ∈ body.children,
          c.closeOutsideNested.countNodes = c.countNodes) →
          (compound body options).closeOutsideNested.countNodes
            = (compound body options).countNodes := by
        intro body options hbody
        have hchildren : (compound (body.map closeOutsideNested) options).children
            = body.children.map closeOutsideNested := Compound.children_map _ body
        rw [closeOutsideNested_compound, countNodes_eq, countNodes_eq, hchildren, total_map]
        exact congrArg (1 + ·) (total_congr hbody)
      obtain ⟨form⟩ := q
      cases form with
      | leaf test options => exact congrArg countNodes (closeOutsideNested_leaf test options)
      | nested path query options =>
          exact congrArg countNodes (closeOutsideNested_nested path query options)
      | compound body options => exact hcompound body options ih
      | node n =>
          rw [closeOutsideNested_node, countNodes_node]
          exact hcompound n.body n.options ih

/-! ## 2. What is left is no larger -/

/-- The query `r` is no larger than `q`, and of the same number of queries only as `q` closed. -/
structure NoLarger (q r : Query) : Prop where
  depth_le : r.depth ≤ q.depth
  countNodes_le : r.countNodes ≤ q.countNodes
  eq_of_countNodes_eq : r.countNodes = q.countNodes → r = q.closeOutsideNested

namespace NoLarger

theorem of_closeOutsideNested_eq {q : Query} (h : q.closeOutsideNested = q) : NoLarger q q :=
  ⟨Nat.le_refl _, Nat.le_refl _, fun _ => h.symm⟩

/-- A node is no smaller than the query that it stands for. -/
theorem node {n : BoundNode Query} {r : Query} (h : NoLarger (compound n.body n.options) r) :
    NoLarger (of (.node n)) r := by
  refine ⟨?_, ?_, ?_⟩
  · rw [depth_node]
    exact h.depth_le
  · rw [countNodes_node]
    exact h.countNodes_le
  · rw [countNodes_node, closeOutsideNested_node]
    exact h.eq_of_countNodes_eq

end NoLarger

section Body

variable {body : Compound Query} {options : Parameters}

/-- A sub-query that comes to nothing adds nothing, and any other adds no more than it did. -/
theorem countNodes_left_le (ih : ∀ c ∈ body.children, ∀ r, c.reduce = some r → NoLarger c r) :
    ∀ c ∈ body.children, c.reduce.elim 0 countNodes ≤ c.countNodes := by
  intro c hc
  cases hr : c.reduce with
  | none => exact Nat.zero_le _
  | some r => exact (ih c hc r hr).countNodes_le

theorem total_children_left_le
    (ih : ∀ c ∈ body.children, ∀ r, c.reduce = some r → NoLarger c r) :
    total countNodes (body.map reduce).prune.children ≤ total countNodes body.children := by
  rw [total_children_left]
  exact total_le_total (countNodes_left_le ih)

/-- A body keeps its number of queries only if it keeps every sub-query, closed. -/
theorem left_eq_of_total_eq
    (ih : ∀ c ∈ body.children, ∀ r, c.reduce = some r → NoLarger c r)
    (h : total countNodes (body.map reduce).prune.children = total countNodes body.children) :
    (body.map reduce).prune = body.map closeOutsideNested := by
  rw [total_children_left] at h
  have hsame := eq_of_total_eq (countNodes_left_le ih) h
  have hkept : ∀ c ∈ body.children, c.reduce = (some ∘ closeOutsideNested) c := by
    intro c hc
    have hcount := hsame c hc
    cases hr : c.reduce with
    | none =>
        -- There is at least the query itself, so that its loss would show in the count.
        rw [hr, Option.elim_none, countNodes_eq] at hcount
        omega
    | some r =>
        rw [hr, Option.elim_some] at hcount
        exact congrArg some ((ih c hc r hr).eq_of_countNodes_eq hcount)
  rw [Compound.map_congr hkept, ← Compound.map_map, Compound.prune_map_some]

theorem NoLarger.compound
    (ih : ∀ c ∈ body.children, ∀ r, c.reduce = some r → NoLarger c r) :
    NoLarger (compound body options) (Query.compound (body.map reduce).prune options) := by
  have htotal := total_children_left_le ih
  have hcount : (Query.compound body options).countNodes
      = 1 + total countNodes body.children := countNodes_eq _
  have hleft : (Query.compound (body.map reduce).prune options).countNodes
      = 1 + total countNodes (body.map reduce).prune.children := countNodes_eq _
  refine ⟨?_, by omega, fun heq => ?_⟩
  · obtain ⟨n, hn⟩ := Nat.exists_eq_succ_of_ne_zero
      (Nat.pos_iff_ne_zero.mp (Query.compound body options).depth_pos)
    have hparts := depth_le_succ_iff.mp (Nat.le_of_eq hn)
    rw [hn]
    refine depth_le_succ_iff.mpr fun d hd => ?_
    obtain ⟨c, hc, hcd⟩ := Compound.mem_children_prune_map.mp hd
    have hdepth := (ih c hc d hcd).depth_le
    have := hparts c hc
    omega
  · rw [closeOutsideNested_compound, left_eq_of_total_eq ih (by omega)]

/-- A sub-query that takes the place of the query is smaller by a level at least. -/
theorem NoLarger.part (ih : ∀ c ∈ body.children, ∀ r, c.reduce = some r → NoLarger c r) {r : Query}
    (h : r ∈ (body.map reduce).prune.children) : NoLarger (Query.compound body options) r := by
  obtain ⟨c, hc, hcr⟩ := Compound.mem_children_prune_map.mp h
  have hdepth := (ih c hc r hcr).depth_le
  have hlevel : c.depth < (Query.compound body options).depth := depth_lt_of_mem_children hc
  have hcount : (Query.compound body options).countNodes
      = 1 + total countNodes body.children := countNodes_eq _
  have htotal := total_children_left_le ih
  have hmem : r.countNodes ≤ total countNodes (body.map reduce).prune.children :=
    le_total_of_mem h
  refine ⟨by omega, by omega, fun heq => ?_⟩
  omega

end Body

/-- What is left of a query is no larger than the query. -/
theorem noLarger_of_reduce (q r : Query) (h : q.reduce = some r) : NoLarger q r := by
  revert r
  refine reduce_induction
    (motive := fun q result => ∀ r : Query, result = some r → NoLarger q r) ?_ ?_ ?_ ?_ q
  · intro test options r h
    rw [← Option.some.inj h]
    exact .of_closeOutsideNested_eq (closeOutsideNested_leaf test options)
  · intro path query options r h
    rw [← Option.some.inj h]
    exact .of_closeOutsideNested_eq (closeOutsideNested_nested path query options)
  · intro body options ih r h
    rw [settle_eq] at h
    by_cases hstands : (body.map reduce).prune.Stands
    · rw [if_pos hstands, Option.some.injEq] at h
      rw [← h]
      exact .compound ih
    · rw [if_neg hstands] at h
      exact .part ih (List.mem_of_mem_head? h)
  · intro n result ih r h
    exact (ih r h).node

/-! ## 3. No query that may be written is refused -/

/-- A query that is not too deep is compiled, whatever it is written into. -/
theorem compiles_of_depth_le {q : Query} (h : q.depth ≤ 128) :
    (∃ document, q.compile = .ok document) ∧
    ∀ (σ : Type) [ObjectSink σ] (out : σ), ∃ written, q.compileInto out = .ok written := by
  have hwhole := q.compilesWhole
  cases hr : q.reduce with
  | none =>
      obtain ⟨hcompile, hinto⟩ := hwhole.skipped hr
      exact ⟨⟨_, hcompile⟩, fun σ _ out => ⟨_, hinto σ out⟩⟩
  | some r =>
      have hdepth := (noLarger_of_reduce q r hr).depth_le
      obtain ⟨hcompile, hinto, -⟩ := hwhole.written r hr (by omega)
      exact ⟨⟨_, hcompile⟩, fun σ _ out => ⟨_, hinto σ out⟩⟩

end Query

/-- A request whose queries are not too deep is compiled, whatever its body is written into. -/
theorem SearchRequest.compiles_of_depth_le {r : SearchRequest} (h : ∀ q ∈ r.trees, q.depth ≤ 128) :
    (∃ compiled, r.compile = .ok compiled) ∧
    ∀ (σ : Type) [ObjectSink σ] (out : σ), ∃ out', r.writeBody out = .ok out' := by
  have hwritten : ∀ q ∈ r.written, q.depth ≤ 128 := by
    intro q hq
    obtain ⟨tree, htree, hreduce⟩ := List.mem_filterMap.mp hq
    have hle := (Query.noLarger_of_reduce tree q hreduce).depth_le
    have := h tree htree
    omega
  have hwhole := r.compilesWhole
  exact ⟨hwhole.compiles_iff.mpr hwritten, fun σ _ out => (hwhole.writes_iff σ out).mpr hwritten⟩

/-- **Reduction never grows a query.** What is left is no deeper and holds no more queries; it holds
as many exactly if it is the query with the nodes outside nested queries closed. So compiling does
not refuse a query of depth 128 or less, nor a request all of whose queries are of such a depth. -/
theorem reduce_never_grows :
    (∀ q r : Query, q.reduce = some r →
      r.depth ≤ q.depth ∧ r.countNodes ≤ q.countNodes ∧
      (r.countNodes = q.countNodes ↔ r = q.closeOutsideNested)) ∧
    (∀ q : Query, q.depth ≤ 128 →
      (∃ document, q.compile = .ok document) ∧
      ∀ (σ : Type) [ObjectSink σ] (out : σ), ∃ written, q.compileInto out = .ok written) ∧
    (∀ r : SearchRequest, (∀ q ∈ r.trees, q.depth ≤ 128) →
      (∃ compiled, r.compile = .ok compiled) ∧
      ∀ (σ : Type) [ObjectSink σ] (out : σ), ∃ out', r.writeBody out = .ok out') := by
  refine ⟨fun q r h => ?_, fun q => Query.compiles_of_depth_le,
    fun r => SearchRequest.compiles_of_depth_le⟩
  obtain ⟨hdepth, hcount, heq⟩ := Query.noLarger_of_reduce q r h
  refine ⟨hdepth, hcount, heq, fun hr => ?_⟩
  rw [hr, Query.countNodes_closeOutsideNested]

/-! A node with two queries: reduction closes it and takes nothing away. -/

def nodePair : Query :=
  .node (⟨0, none, "0x10"⟩ : Handle .disMax)
    { body := { queries := [.leaf .matchAll, .leaf .matchAll] } }

def closedPair : Query := .disMax { queries := [.leaf .matchAll, .leaf .matchAll] }

def pairRequest : SearchRequest where
  query := some nodePair

theorem reduce_nodePair : nodePair.reduce = some closedPair :=
  (Query.reduce_eq_byRules nodePair).trans rfl

theorem depth_nodePair_le : nodePair.depth ≤ 128 := by
  refine Query.depth_le_succ_iff.mpr fun c hc => ?_
  obtain rfl : c = .leaf .matchAll := by
    rcases List.mem_cons.mp hc with h | h
    · exact h
    · exact List.mem_singleton.mp h
  exact Query.depth_le_succ_iff.mpr fun d hd => absurd hd List.not_mem_nil

/-- The node and what is left of it are of one size, and both the node and a request for it are
compiled. -/
theorem reduce_never_grows_pair :
    nodePair.reduce = some closedPair ∧
    (closedPair.depth ≤ nodePair.depth ∧ closedPair.countNodes ≤ nodePair.countNodes ∧
      (closedPair.countNodes = nodePair.countNodes ↔
        closedPair = nodePair.closeOutsideNested)) ∧
    closedPair = nodePair.closeOutsideNested ∧
    nodePair.depth ≤ 128 ∧ (∃ document, nodePair.compile = .ok document) ∧
    (∀ q ∈ pairRequest.trees, q.depth ≤ 128) ∧ ∃ compiled, pairRequest.compile = .ok compiled := by
  have hclosed : closedPair = nodePair.closeOutsideNested := by
    rw [nodePair, Query.node, Query.closeOutsideNested_node, Query.closeOutsideNested_compound]
    show closedPair = Query.disMax { queries := [(Query.leaf .matchAll).closeOutsideNested,
      (Query.leaf .matchAll).closeOutsideNested] }
    rw [Query.closeOutsideNested_leaf]
    rfl
  have htrees : ∀ q ∈ pairRequest.trees, q.depth ≤ 128 :=
    List.forall_mem_singleton.mpr depth_nodePair_le
  exact ⟨reduce_nodePair, reduce_never_grows.1 nodePair closedPair reduce_nodePair, hclosed,
    depth_nodePair_le, (reduce_never_grows.2.1 nodePair depth_nodePair_le).1, htrees,
    (reduce_never_grows.2.2 pairRequest htrees).1⟩

end SearchQuery
