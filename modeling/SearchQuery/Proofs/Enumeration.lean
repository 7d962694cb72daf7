import SearchQuery.Proofs.Fold.Calls
import SearchQuery.Proofs.Lookup

/-!
# The walk enumerates the tree

A walk takes the query on top of a stack, visits it and pushes its sub-queries. The stack then holds
queries of many levels, but what is visited before any of them comes off again is all that is below
the query just visited. So a walk goes through all positions of the tree, each once and each before
those below it (`positions`), and it is the one order to which counting, the list of nodes and the
search for a handle refer; a fold that goes everywhere makes its calls in this order backwards.
-/

namespace SearchQuery

namespace Query

/-! ## 1. The steps of a walk -/

/-- What a walk with the given stack, its top first, visits until the stack is empty. Each
derivation is a finite run. -/
inductive Visits : List Query → List Query → Prop
  | done : Visits [] []
  | next (q : Query) (stack visited : List Query)
      (rest : Visits (q.children.reverse ++ stack) visited) : Visits (q :: stack) (q :: visited)

/-- Whatever is on the stack, the walk comes to an end. -/
theorem visits_flatMap_walk (stack : List Query) : Visits stack (stack.flatMap walk) := by
  fun_induction walkLoop stack [] with
  | case1 _ => exact .done
  | case2 q stack _ ih =>
      rw [List.flatMap_cons, walk_cons, List.cons_append]
      rw [List.flatMap_append] at ih
      exact .next q stack _ ih

theorem visits_iff {stack visited : List Query} :
    Visits stack visited ↔ visited = stack.flatMap walk := by
  constructor
  · intro h
    induction h with
    | done => rfl
    | next q stack visited rest ih =>
        rw [List.flatMap_cons, walk_cons, List.cons_append, ih, List.flatMap_append]
  · rintro rfl
    exact visits_flatMap_walk stack

/-! ## 2. The positions in walk order -/

/-- The positions of a tree in the order in which a walk comes to them. -/
def positions (q : Query) : List Position := q.placed.map Prod.fst

theorem mem_positions {q : Query} {p : Position} :
    p ∈ q.positions ↔ ∃ x, q.at? p = some x := by
  rw [positions, List.mem_map]
  constructor
  · rintro ⟨⟨s, x⟩, hx, rfl⟩
    exact ⟨x, mem_placed.mp hx⟩
  · rintro ⟨x, hx⟩
    exact ⟨(p, x), mem_placed.mpr hx, rfl⟩

/-- A walk visits what is at the positions, in their order. -/
theorem map_at?_positions (q : Query) : q.positions.map q.at? = q.walk.map some := by
  rw [positions, walk_eq, List.map_map, List.map_map]
  exact List.map_congr_left fun x hx => mem_placed.mp hx

/-- The nodes are those at the positions, in the order of the walk. -/
theorem nodes_eq (q : Query) : q.nodes = q.positions.filterMap fun p => (q.at? p).bind node? := by
  have hbind : (q.positions.filterMap fun p => (q.at? p).bind node?)
      = (q.positions.map q.at?).filterMap fun o => o.bind node? := by
    rw [List.filterMap_map]
    rfl
  rw [hbind, map_at?_positions, List.filterMap_map]
  rfl

theorem finite_and_countNodes_eq (q : Query) :
    {p : Position | ∃ x, q.at? p = some x}.Finite ∧
      q.countNodes = {p : Position | ∃ x, q.at? p = some x}.ncard := by
  have h := q.finite_and_ncard_positions fun _ => true
  simp only [and_true] at h
  refine ⟨h.1, ?_⟩
  rw [h.2, countNodes, walk_eq, List.length_map, List.countP_true]

/-! ## 3. The enumeration -/

/-- **The walk enumerates the tree.** It ends, and visits the query at each position once, a query
before all those below it and the sub-queries from the last to the first. A fold that goes
everywhere makes its calls in the opposite order. The queries counted are as many as there are
positions, the nodes listed are those of the walk, and what is found is the first of them that is
bound to the handle, if the handle is bound at all. -/
theorem walk_enumerates (t : Query) :
    (∀ visited, Visits [t] visited ↔ visited = t.walk) ∧
    t.walk = t :: t.children.reverse.flatMap walk ∧
    (t.positions.map t.at? = t.walk.map some ∧
      (∀ p, p ∈ t.positions ↔ ∃ x, t.at? p = some x) ∧ t.positions.Nodup ∧
      t.positions.Pairwise fun p s => ¬ s <+: p) ∧
    (∀ (ρ σ : Type) (combine : Query → List ρ → σ → ρ × σ) (s : σ), ∃ calls,
      foldState (fun _ => true) (noting combine) t (s, [])
        = ((foldState (fun _ => true) combine t s).1,
          (foldState (fun _ => true) combine t s).2, calls) ∧
      calls.map Prod.fst = t.walk.reverse) ∧
    ({p : Position | ∃ x, t.at? p = some x}.Finite ∧
      t.countNodes = {p : Position | ∃ x, t.at? p = some x}.ncard) ∧
    (t.nodes = t.positions.filterMap fun p => (t.at? p).bind node?) ∧
    ∀ (kind : NodeKind) (h : Handle kind),
      (∀ c, t.find? h = some c ↔
        ∃ before b after, t.walk = before ++ node b c :: after ∧ (b == h) = true ∧
          ∀ y ∈ before, y.isBoundTo h = false) ∧
      (t.find? h = none ↔ t.boundCount h = 0) := by
  have hsteps (visited : List Query) : Visits [t] visited ↔ visited = t.walk := by
    rw [visits_iff, List.flatMap_singleton]
  have hcalls (ρ σ : Type) (combine : Query → List ρ → σ → ρ × σ) (s : σ) : ∃ calls,
      foldState (fun _ => true) (noting combine) t (s, [])
        = ((foldState (fun _ => true) combine t s).1,
          (foldState (fun _ => true) combine t s).2, calls) ∧
      calls.map Prod.fst = t.walk.reverse := by
    -- For the order of the calls nothing has to be known of the results.
    obtain ⟨calls, horder, -, heq⟩ :=
      foldState_noting (fun _ => true) combine (fun _ _ => True) (fun _ _ _ _ => trivial) t s
    rw [postorder_eq_walk] at horder
    exact ⟨calls, heq, horder⟩
  refine ⟨hsteps, t.walk_cons, ?_, hcalls, t.finite_and_countNodes_eq, t.nodes_eq, ?_⟩
  · exact ⟨t.map_at?_positions, fun p => mem_positions, t.nodup_placed, t.pairwise_placed⟩
  · intro kind h
    refine ⟨fun c => find?_eq_some_iff, ?_⟩
    rw [find?_eq_none_iff, boundCount_eq_zero_iff]

end Query

end SearchQuery
