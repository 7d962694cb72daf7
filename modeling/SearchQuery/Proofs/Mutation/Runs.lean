import SearchQuery.Proofs.Mutation.Everywhere
import SearchQuery.Proofs.Reordering

/-!
# Runs of edits through several handles

A run makes one edit after the other, in place. An edit that is refused changes nothing
(`runOn_call_of_not_bound_once`), and the run goes on. Where the edits only append or assign, and
bring in no node bound to a handle of the run, the edits through different handles do not interfere:
no count of a handle ever changes, so every edit through one handle meets the same answer, and two
edits through different handles can be exchanged (`treesAfter_comm`), also where one of the nodes is
inside the other. From one exchange follows that a run may be reordered in any way that keeps the
order of the edits through each single handle.

Trees are edited in a list, alone and in a request. The three ways differ only in where the trees
are read from and put back to, which is a `TreeHolder`.
-/

namespace SearchQuery

/-! ## 1. Calls -/

/-- An edit to be made through a handle: several changes to its node, first to last. -/
structure Call where
  kind : NodeKind
  handle : Handle kind
  edits : List (Edit Query kind)

namespace Call

/-- Two calls are through one handle if they have the same key. -/
def key (c : Call) : NodeKind × Nat := c.handle.key

/-- What the call makes of its node. -/
def change (c : Call) : Node Query c.kind → Node Query c.kind := Edit.applyAll c.edits

/-- The queries and filters that the call brings in. -/
def brought (c : Call) : List Query := c.edits.flatMap Edit.brought

/-- The calls of a run only append or assign, and nothing that they bring in has a node that is
bound to a handle of the run. -/
structure Additive (run : List Call) : Prop where
  grows : ∀ c ∈ run, ∀ e ∈ c.edits, e.grows = true
  fresh : ∀ c ∈ run, ∀ x ∈ c.brought, ∀ d ∈ run, x.boundCount d.handle = 0

section Performing

variable {S : Type}

/-- What a call answers: what there is after it, unless it is refused. -/
def perform (steps : Call → Steps S Unit) (s : S) (c : Call) : Except QueryError S :=
  (steps c).result s

/-- What there is after a call, also after a refused one. -/
def after (steps : Call → Steps S Unit) (s : S) (c : Call) : S := ((steps c).runOn s).2

/-- What there is after a run. -/
def afterAll (steps : Call → Steps S Unit) (s : S) (run : List Call) : S :=
  run.foldl (after steps) s

end Performing

/-! ## 2. Trees after a call -/

/-- The trees after a call: changed if the handle is bound to exactly one node in them. -/
def treesAfter (trees : List Query) (c : Call) : List Query :=
  if total (fun t => t.boundCount c.handle) trees = 1 then
    trees.map (Query.changeBound c.handle c.change)
  else trees

theorem length_treesAfter (trees : List Query) (c : Call) :
    (treesAfter trees c).length = trees.length := by
  rw [treesAfter]
  split
  · exact List.length_map _
  · rfl

theorem length_foldl_treesAfter (trees : List Query) (run : List Call) :
    (run.foldl treesAfter trees).length = trees.length := by
  induction run generalizing trees with
  | nil => rfl
  | cons c run ih => rw [List.foldl_cons, ih, length_treesAfter]

/-- A change through one handle does not look at sub-queries, so it passes a change through another
one, which leaves alone what is brought in. -/
theorem map_change {run : List Call} (h : Additive run) {c d : Call} (hc : c ∈ run) (hd : d ∈ run)
    (n : Node Query c.kind) :
    Node.map (Query.changeBound d.handle d.change) (c.change n)
      = c.change (Node.map (Query.changeBound d.handle d.change) n) := by
  refine Edit.map_applyAll (fun e he x hx => ?_) n
  have hbrought : x ∈ c.brought := List.mem_flatMap.mpr ⟨e, he, hx⟩
  exact Query.changeBound_of_boundCount_eq_zero (h.fresh c hc x hbrought d hd)

/-- A call of the run adds no node to the count of a handle of the run. -/
theorem total_children_change {run : List Call} (h : Additive run) {c d : Call} (hc : c ∈ run)
    (hd : d ∈ run) (n : Node Query c.kind) :
    total (fun x => x.boundCount d.handle) (Node.children (c.change n))
      = total (fun x => x.boundCount d.handle) (Node.children n) := by
  have hperm : (Node.children (c.change n)).Perm (Node.children n ++ c.brought) :=
    Edit.children_applyAll_perm (h.grows c hc) n
  have hbrought : total (fun x => x.boundCount d.handle) c.brought = 0 :=
    total_eq_zero_iff.mpr fun x hx => h.fresh c hc x hx d hd
  rw [total_eq_of_perm hperm, total_append, hbrought, Nat.add_zero]

/-- No call of the run changes how often a handle of the run is bound in any of the trees. -/
theorem map_boundCount_treesAfter {run : List Call} (h : Additive run) {c d : Call} (hc : c ∈ run)
    (hd : d ∈ run) (trees : List Query) :
    (treesAfter trees c).map (fun t => t.boundCount d.handle)
      = trees.map fun t => t.boundCount d.handle := by
  rw [treesAfter]
  split
  · rw [List.map_map]
    refine List.map_congr_left fun t _ => ?_
    exact Query.boundCount_changeBound (total_children_change h hc hd) t
  · rfl

theorem total_map_id (f : Query → Nat) (l : List Query) : total f l = total id (l.map f) := by
  rw [total_map, Function.id_comp]

/-- **Exchange.** Two calls through different handles may be made in either order: each is carried
out or refused as if the other were not there, and where both are carried out the changes
commute. -/
theorem treesAfter_comm {run : List Call} (h : Additive run) {c d : Call} (hc : c ∈ run)
    (hd : d ∈ run) (hne : c.key ≠ d.key) (trees : List Query) :
    treesAfter (treesAfter trees c) d = treesAfter (treesAfter trees d) c := by
  have hcountd : total (fun t => t.boundCount d.handle) (treesAfter trees c)
      = total (fun t => t.boundCount d.handle) trees := by
    rw [total_map_id, map_boundCount_treesAfter h hc hd, ← total_map_id]
  have hcountc : total (fun t => t.boundCount c.handle) (treesAfter trees d)
      = total (fun t => t.boundCount c.handle) trees := by
    rw [total_map_id, map_boundCount_treesAfter h hd hc, ← total_map_id]
  have hcomm : ∀ t : Query,
      (t.changeBound c.handle c.change).changeBound d.handle d.change
        = (t.changeBound d.handle d.change).changeBound c.handle c.change :=
    Query.changeBound_comm hne (map_change h hc hd) (map_change h hd hc)
  rw [treesAfter, hcountd, treesAfter, treesAfter, hcountc, treesAfter]
  by_cases honec : total (fun t => t.boundCount c.handle) trees = 1
  · by_cases honed : total (fun t => t.boundCount d.handle) trees = 1
    · simp only [if_pos honec, if_pos honed, List.map_map]
      exact List.map_congr_left fun t _ => hcomm t
    · simp only [if_pos honec, if_neg honed]
  · by_cases honed : total (fun t => t.boundCount d.handle) trees = 1
    · simp only [if_neg honec, if_pos honed]
    · simp only [if_neg honec, if_neg honed]

end Call

/-! ## 3. Calls where trees are held -/

namespace TreeHolder

open Call

variable {S : Type} (H : TreeHolder S)

/-- The steps of a call. -/
def call (c : Call) : Steps S Unit := H.mutateSteps c.handle c.change

theorem runOn_call_of_bound_once {s : S} {c : Call}
    (hone : total (fun t => t.boundCount c.handle) (H.trees s) = 1) :
    (H.call c).runOn s = (.ok (), H.put s (treesAfter (H.trees s) c)) := by
  rw [treesAfter, if_pos hone]
  exact H.runOn_mutateSteps (Steps.result_eq_ok_iff.mp (Query.mutateIn_of_bound_once hone))

/-- A refused call leaves the trees as they are, and they are put back. -/
theorem runOn_call_of_not_bound_once {s : S} {c : Call}
    (hne : total (fun t => t.boundCount c.handle) (H.trees s) ≠ 1) :
    (H.call c).runOn s
      = (.error (Query.refusal c.handle (total (fun t => t.boundCount c.handle) (H.trees s))),
        s) := by
  have hrun := H.runOn_mutateSteps (Query.runOn_mutateInSteps_of_not_bound_once hne c.change)
  rwa [H.put_trees] at hrun

theorem after_eq (s : S) (c : Call) :
    after H.call s c = H.put s (treesAfter (H.trees s) c) := by
  by_cases hone : total (fun t => t.boundCount c.handle) (H.trees s) = 1
  · rw [after, H.runOn_call_of_bound_once hone]
  · rw [after, H.runOn_call_of_not_bound_once hone, treesAfter, if_neg hone, H.put_trees]

/-- A run of calls is a run on the trees. -/
theorem afterAll_eq (s : S) (run : List Call) :
    afterAll H.call s run = H.put s (run.foldl treesAfter (H.trees s)) := by
  unfold afterAll
  induction run generalizing s with
  | nil => exact (H.put_trees s).symm
  | cons c run ih =>
      have hlen : (treesAfter (H.trees s) c).length = (H.trees s).length := length_treesAfter _ c
      have htrees : H.trees (H.put s (treesAfter (H.trees s) c)) = treesAfter (H.trees s) c :=
        H.trees_put s _ hlen
      have hlen' : (run.foldl treesAfter (treesAfter (H.trees s) c)).length
          = (treesAfter (H.trees s) c).length := length_foldl_treesAfter _ run
      rw [List.foldl_cons, List.foldl_cons, ih, H.after_eq, htrees, H.put_put s _ _ hlen hlen']

theorem trees_afterAll (s : S) (run : List Call) :
    H.trees (afterAll H.call s run) = run.foldl treesAfter (H.trees s) := by
  rw [H.afterAll_eq]
  exact H.trees_put s _ (length_foldl_treesAfter _ run)

end TreeHolder

/-! ## 4. No interference -/

namespace Call

/-- The calls of a run, made on what holds some trees, do not interfere with each other. -/
structure NonInterfering {S : Type} (trees : S → List Query) (steps : Call → Steps S Unit) (s : S)
    (run : List Call) : Prop where
  /-- At any point of the run, each of its handles is bound in each tree as often as at first. -/
  counts : ∀ before, before <+: run → ∀ c ∈ run,
    (trees (afterAll steps s before)).map (fun t => t.boundCount c.handle)
      = (trees s).map fun t => t.boundCount c.handle
  /-- A call is carried out exactly if its handle was bound once at first. -/
  carriedOut : ∀ before c, before ++ [c] <+: run →
    ((∃ s', perform steps (afterAll steps s before) c = .ok s') ↔
      total (fun t => t.boundCount c.handle) (trees s) = 1)
  /-- Otherwise it is refused, every time in the same way. -/
  refused : ∀ before c, before ++ [c] <+: run →
    total (fun t => t.boundCount c.handle) (trees s) ≠ 1 →
      perform steps (afterAll steps s before) c
        = .error (Query.refusal c.handle (total (fun t => t.boundCount c.handle) (trees s)))
  /-- A refused call leaves everything as it is. -/
  unchanged : ∀ before c, before ++ [c] <+: run →
    total (fun t => t.boundCount c.handle) (trees s) ≠ 1 →
      afterAll steps s (before ++ [c]) = afterAll steps s before
  /-- Any order that keeps the order of the calls through each single handle has the same end. -/
  reordered : ∀ run', Reorders key run run' → afterAll steps s run' = afterAll steps s run

end Call

namespace TreeHolder

open Call

variable {S : Type} (H : TreeHolder S)

theorem map_boundCount_afterAll {run before : List Call} (h : Additive run)
    (hbefore : ∀ c ∈ before, c ∈ run) {d : Call} (hd : d ∈ run) (s : S) :
    (H.trees (afterAll H.call s before)).map (fun t => t.boundCount d.handle)
      = (H.trees s).map fun t => t.boundCount d.handle := by
  rw [H.trees_afterAll]
  generalize H.trees s = trees
  induction before generalizing trees with
  | nil => rfl
  | cons c before ih =>
      have hc : c ∈ run := hbefore c List.mem_cons_self
      have hrest : ∀ c ∈ before, c ∈ run := fun c' hc' => hbefore c' (List.mem_cons_of_mem c hc')
      rw [List.foldl_cons, ih hrest, map_boundCount_treesAfter h hc hd]

/-- Wherever the trees are held, the calls of an additive run do not interfere. -/
theorem nonInterfering {run : List Call} (h : Additive run) (s : S) :
    NonInterfering H.trees H.call s run := by
  have hcounts : ∀ before, before <+: run → ∀ c ∈ run,
      (H.trees (afterAll H.call s before)).map (fun t => t.boundCount c.handle)
        = (H.trees s).map fun t => t.boundCount c.handle :=
    fun before hbefore c hc => H.map_boundCount_afterAll h (fun d hd => hbefore.subset hd) hc s
  have htotal : ∀ before c, before ++ [c] <+: run →
      total (fun t => t.boundCount c.handle) (H.trees (afterAll H.call s before))
        = total (fun t => t.boundCount c.handle) (H.trees s) := by
    intro before c hprefix
    have hbefore : before <+: run := (List.prefix_append before [c]).trans hprefix
    have hc : c ∈ run := hprefix.subset (List.mem_append_right before List.mem_cons_self)
    rw [total_map_id, hcounts before hbefore c hc, ← total_map_id]
  -- At any point of the run a call meets the count that there was at first.
  have hrefused : ∀ before c, before ++ [c] <+: run →
      total (fun t => t.boundCount c.handle) (H.trees s) ≠ 1 →
        (H.call c).runOn (afterAll H.call s before)
          = (.error (Query.refusal c.handle (total (fun t => t.boundCount c.handle) (H.trees s))),
            afterAll H.call s before) := by
    intro before c hprefix hne
    rw [← htotal before c hprefix] at hne ⊢
    exact H.runOn_call_of_not_bound_once hne
  refine ⟨hcounts, fun before c hprefix => ⟨?_, ?_⟩, fun before c hprefix hne => ?_,
    fun before c hprefix hne => ?_, ?_⟩
  · rintro ⟨s', hs'⟩
    by_contra hne
    rw [perform, Steps.result_of_error (hrefused before c hprefix hne)] at hs'
    cases hs'
  · intro hone
    rw [← htotal before c hprefix] at hone
    exact ⟨_, Steps.result_eq_ok_iff.mpr (H.runOn_call_of_bound_once hone)⟩
  · exact Steps.result_of_error (hrefused before c hprefix hne)
  · rw [afterAll, List.foldl_concat]
    exact congrArg Prod.snd (hrefused before c hprefix hne)
  · intro run' hreorders
    have hcomm : ∀ c ∈ run, ∀ d ∈ run, c.key ≠ d.key → ∀ trees,
        treesAfter (treesAfter trees c) d = treesAfter (treesAfter trees d) c :=
      fun c hc d hd hne trees => treesAfter_comm h hc hd hne trees
    rw [H.afterAll_eq, H.afterAll_eq, foldl_eq_of_reorders hcomm hreorders]

end TreeHolder

namespace Call

/-- **Edits through different handles do not interfere**, whatever their order, in any list of
trees, in one tree and in a request. What a call answers is the result of its steps, which is how
`mutateIn` and the `mutate` of a tree and of a request answer. -/
theorem edits_do_not_interfere {run : List Call} (h : Additive run) :
    (∀ trees : List Query,
      NonInterfering id (fun c => Query.mutateInSteps c.handle c.change) trees run) ∧
    (∀ t : Query,
      NonInterfering (fun t => [t]) (fun c => Query.mutateSteps c.handle c.change) t run) ∧
    (∀ r : SearchRequest,
      NonInterfering SearchRequest.trees (fun c => SearchRequest.mutateSteps c.handle c.change) r
        run) :=
  ⟨fun trees => TreeHolder.list.nonInterfering h trees,
    fun t => TreeHolder.tree.nonInterfering h t,
    fun r => TreeHolder.request.nonInterfering h r⟩

/-! A run on a node inside another one, with a call through a handle that is bound to nothing. -/

def outerHandle : Handle .bool := ⟨0, some "outer", "0x10"⟩

def innerHandle : Handle .disMax := ⟨1, some "inner", "0x20"⟩

def strangerHandle : Handle .bool := ⟨2, some "stranger", "0x30"⟩

def nestedNodes : Query :=
  .node outerHandle { body := { must := [.node innerHandle {}] } }

def addToOuter : Call := ⟨.bool, outerHandle, [.addClause .must (.leaf .matchAll), .setBoost none]⟩

def addToInner : Call := ⟨.disMax, innerHandle, [.addQuery (.leaf .matchAll)]⟩

def addToStranger : Call := ⟨.bool, strangerHandle, [.addClause .filter (.leaf .matchAll)]⟩

theorem additive_nested : Additive [addToOuter, addToInner, addToStranger] := by
  refine ⟨by decide, fun c hc x hx d _ => ?_⟩
  -- Every call brings in the same leaf.
  have hbrought : ∀ c ∈ [addToOuter, addToInner, addToStranger], c.brought = [.leaf .matchAll] := by
    simp only [List.forall_mem_cons]
    exact ⟨rfl, rfl, rfl, fun _ h => absurd h List.not_mem_nil⟩
  rw [hbrought c hc, List.mem_singleton] at hx
  rw [hx, Query.boundCount_cons]
  rfl

theorem boundCount_inner :
    total (fun t => t.boundCount innerHandle) [nestedNodes] = 1 := by
  have hinner : (Query.node innerHandle {}).boundCount innerHandle = 1 := by
    rw [Query.boundCount_cons]
    rfl
  have houter : nestedNodes.boundCount innerHandle
      = 0 + ((Query.node innerHandle {}).boundCount innerHandle + 0) := by
    rw [Query.boundCount_cons]
    rfl
  rw [total_cons, total_nil, houter, hinner]

/-- The call on the inner node is carried out after that on the outer one, and it might as well come
before it. The third call is refused and does not matter. -/
theorem edits_of_nested_nodes :
    Additive [addToOuter, addToInner, addToStranger] ∧
    (∃ t, (afterAll (fun c => Query.mutateSteps c.handle c.change) nestedNodes [addToOuter]).mutate
      addToInner.handle addToInner.change = .ok t) ∧
    afterAll (fun c => Query.mutateSteps c.handle c.change) nestedNodes
        [addToInner, addToOuter, addToStranger]
      = afterAll (fun c => Query.mutateSteps c.handle c.change) nestedNodes
        [addToOuter, addToInner, addToStranger] := by
  have hrun := (edits_do_not_interfere additive_nested).2.1 nestedNodes
  have hreorders : Reorders key [addToOuter, addToInner, addToStranger]
      [addToInner, addToOuter, addToStranger] :=
    Reorders.exchange (by decide) [] [addToStranger]
  have hprefix : [addToOuter] ++ [addToInner] <+: [addToOuter, addToInner, addToStranger] :=
    ⟨[addToStranger], rfl⟩
  exact ⟨additive_nested, (hrun.carriedOut _ _ hprefix).mpr boundCount_inner,
    hrun.reordered _ hreorders⟩

end Call

end SearchQuery
