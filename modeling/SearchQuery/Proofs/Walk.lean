import Mathlib.Data.List.Nodup
import Mathlib.Data.Set.Card
import SearchQuery.Proofs.Position
import SearchQuery.Query.Walk

/-!
# The walk enumerates the positions

A walk works off a stack of queries. `placed` is the same enumeration by recursion, with the
position of each query: first the query itself, then all that is below its direct sub-queries, the
last of them first. A walk visits what `placed` lists (`walk_eq`), and `placed` lists every position
once (`mem_placed`, `nodup_placed`), so that what is counted or found by a walk is counted or found
over the positions of a query.
-/

namespace SearchQuery

namespace Query

/-! ## 1. The enumeration -/

/-- Every query of the tree with its position, in walk order. -/
def placed (q : Query) : List (Position × Query) :=
  ([], q) :: q.children.zipIdx.reverse.attach.flatMap fun c =>
    (placed c.1.1).map fun x => (c.1.2 :: x.1, x.2)
termination_by sizeOf q
decreasing_by
  exact sizeOf_lt_of_mem_children (List.fst_mem_of_mem_zipIdx (List.mem_reverse.mp c.2))

theorem placed_eq (q : Query) :
    q.placed = ([], q) :: q.children.zipIdx.reverse.flatMap fun c =>
      (placed c.1).map fun x => (c.2 :: x.1, x.2) := by
  rw [placed]
  conv => rhs; rw [← List.attach_map_subtype_val q.children.zipIdx.reverse, List.flatMap_map]

theorem map_snd_placed (q : Query) :
    q.placed.map Prod.snd
      = q :: q.children.reverse.flatMap fun c => c.placed.map Prod.snd := by
  have hchildren : q.children.reverse = q.children.zipIdx.reverse.map Prod.fst := by
    rw [List.map_reverse, List.zipIdx_map_fst]
  rw [placed_eq, List.map_cons, List.map_flatMap, hchildren, List.flatMap_map]
  simp only [List.map_map, Function.comp_def]

/-! Both this enumeration and that of a fold put the index of a sub-query before what is listed for
it, and differ in where the query itself comes and in the order of its sub-queries. -/

section Numbered

variable {f : Query → List (Position × Query)} {l : List (Query × Nat)}

theorem nil_notMem_numbered (x : Query) :
    ([], x) ∉ l.flatMap fun c => (f c.1).map fun y => (c.2 :: y.1, y.2) := by
  intro h
  obtain ⟨c, -, hc⟩ := List.mem_flatMap.mp h
  obtain ⟨y, -, hy⟩ := List.mem_map.mp hc
  exact List.cons_ne_nil _ _ (Prod.mk.inj hy).1

theorem cons_mem_numbered_iff {i : Nat} {p : Position} {x : Query} :
    (i :: p, x) ∈ (l.flatMap fun c => (f c.1).map fun y => (c.2 :: y.1, y.2)) ↔
      ∃ c, (c, i) ∈ l ∧ (p, x) ∈ f c := by
  rw [List.mem_flatMap]
  constructor
  · rintro ⟨c, hc, hx⟩
    obtain ⟨y, hy, heq⟩ := List.mem_map.mp hx
    obtain ⟨hp, rfl⟩ := Prod.mk.inj heq
    obtain ⟨rfl, rfl⟩ := List.cons.inj hp
    exact ⟨c.1, hc, hy⟩
  · rintro ⟨c, hc, hx⟩
    exact ⟨(c, i), hc, List.mem_map.mpr ⟨(p, x), hx, rfl⟩⟩

/-- What relates the positions listed: within one sub-query, and between two of them. -/
theorem pairwise_numbered {R : Position → Position → Prop}
    (hwithin : ∀ c ∈ l, ((f c.1).map Prod.fst).Pairwise fun p s => R (c.2 :: p) (c.2 :: s))
    (hbetween : l.Pairwise fun a b => ∀ p s, R (a.2 :: p) (b.2 :: s)) :
    ((l.flatMap fun c => (f c.1).map fun y => (c.2 :: y.1, y.2)).map Prod.fst).Pairwise R := by
  rw [List.map_flatMap, List.pairwise_flatMap]
  simp only [List.map_map, Function.comp_def]
  refine ⟨fun c hc => ?_, hbetween.imp fun {a b} hab => ?_⟩
  · have h := hwithin c hc
    rw [List.pairwise_map] at h ⊢
    exact h
  · intro p hp s hs
    obtain ⟨x, -, rfl⟩ := List.mem_map.mp hp
    obtain ⟨y, -, rfl⟩ := List.mem_map.mp hs
    exact hab x.1 y.1

end Numbered

/-- The queries listed are those at the positions of the tree. -/
theorem mem_placed {q x : Query} {p : Position} : (p, x) ∈ q.placed ↔ q.at? p = some x := by
  induction p generalizing q with
  | nil =>
      rw [placed_eq, at?_nil, Option.some.injEq, List.mem_cons, Prod.mk.injEq,
        or_iff_left (nil_notMem_numbered x), and_iff_right rfl, eq_comm]
  | cons i p ih =>
      have hne : (i :: p, x) ≠ (([] : Position), q) :=
        fun heq => List.cons_ne_nil i p (Prod.mk.inj heq).1
      rw [placed_eq, at?_cons_eq_some_iff, List.mem_cons, or_iff_right hne, cons_mem_numbered_iff]
      simp only [List.mem_reverse, List.mem_zipIdx_iff_getElem?, ih]

/-- A change that is made at every level keeps the positions. -/
theorem placed_of_children_map {g : Query → Query} (hg : ∀ q, (g q).children = q.children.map g)
    (q : Query) : (g q).placed = q.placed.map fun x => (x.1, g x.2) := by
  induction q using Query.induction with
  | step q ih =>
      rw [placed_eq, placed_eq q, hg, List.zipIdx_map, ← List.map_reverse, List.flatMap_map,
        List.map_cons, List.map_flatMap]
      refine congrArg (([], g q) :: ·) (List.flatMap_congr fun c hc => ?_)
      have hmem := List.fst_mem_of_mem_zipIdx (List.mem_reverse.mp hc)
      show ((g c.1).placed.map fun x => (c.2 :: x.1, x.2)) = _
      rw [ih c.1 hmem, List.map_map, List.map_map]
      rfl

/-- The indices of a numbered list go up. -/
theorem pairwise_zipIdx {α : Type} (l : List α) : l.zipIdx.Pairwise fun a b => a.2 < b.2 := by
  have h : (l.zipIdx.map Prod.snd).Pairwise (· < ·) := by
    rw [List.zipIdx_map_snd]
    exact List.pairwise_lt_range'
  exact List.pairwise_map.mp h

theorem pairwise_zipIdx_reverse {α : Type} (l : List α) :
    l.zipIdx.reverse.Pairwise fun a b => a.2 ≠ b.2 :=
  List.pairwise_reverse.mpr ((pairwise_zipIdx l).imp fun hlt => hlt.ne.symm)

/-- A position is listed before all positions below it: no later one is a beginning of it. -/
theorem pairwise_placed (q : Query) : (q.placed.map Prod.fst).Pairwise fun p s => ¬ s <+: p := by
  induction q using Query.induction with
  | step q ih =>
      rw [placed_eq, List.map_cons, List.pairwise_cons]
      refine ⟨fun p hp => ?_, pairwise_numbered (fun c hc => ?_) ?_⟩
      · -- Only the query itself is at the empty position.
        obtain ⟨⟨s, x⟩, hx, rfl⟩ := List.mem_map.mp hp
        intro hprefix
        obtain rfl := List.prefix_nil.mp hprefix
        exact nil_notMem_numbered x hx
      · have hmem := List.fst_mem_of_mem_zipIdx (List.mem_reverse.mp hc)
        exact (ih c.1 hmem).imp fun hps => by rwa [List.prefix_cons_inj]
      · refine (pairwise_zipIdx_reverse q.children).imp fun hab p s hprefix => ?_
        -- Positions below two sub-queries differ at once, in the first index.
        exact hab (List.cons_prefix_cons.mp hprefix).1.symm

/-- No position is listed twice. -/
theorem nodup_placed (q : Query) : (q.placed.map Prod.fst).Nodup :=
  q.pairwise_placed.imp fun hps => by
    rintro rfl
    exact hps List.prefix_rfl

/-- A list without duplicates has as many members as entries. -/
theorem finite_and_ncard_mem {α : Type} {l : List α} (hl : l.Nodup) :
    {a | a ∈ l}.Finite ∧ {a | a ∈ l}.ncard = l.length := by
  classical
  rw [← List.coe_toFinset, Set.ncard_coe_finset, List.toFinset_card_of_nodup hl]
  exact ⟨Finset.finite_toSet _, rfl⟩

/-- As many positions have a property as are counted along the enumeration. -/
theorem finite_and_ncard_positions (q : Query) (P : Position × Query → Bool) :
    {p | ∃ x, q.at? p = some x ∧ P (p, x) = true}.Finite ∧
      {p | ∃ x, q.at? p = some x ∧ P (p, x) = true}.ncard = q.placed.countP P := by
  have hset : {p | ∃ x, q.at? p = some x ∧ P (p, x) = true}
      = {p | p ∈ (q.placed.filter P).map Prod.fst} := by
    ext p
    simp only [Set.mem_ofPred_eq, List.mem_map, List.mem_filter, Prod.exists, mem_placed,
      exists_and_right, exists_eq_right]
  rw [hset, List.countP_eq_length_filter, ← List.length_map Prod.fst]
  exact finite_and_ncard_mem (q.nodup_placed.sublist (List.filter_sublist.map Prod.fst))

/-! ## 2. The walk -/

/-- The loop visits what is below the queries on its stack, from the top of the stack down. -/
theorem walkLoop_eq (stack visited : List Query) :
    walkLoop stack visited
      = visited.reverse ++ stack.flatMap fun q => q.placed.map Prod.snd := by
  fun_induction walkLoop stack visited with
  | case1 visited => rw [List.flatMap_nil, List.append_nil]
  | case2 visited q stack ih =>
      rw [ih, List.flatMap_append, List.flatMap_cons, map_snd_placed, List.reverse_cons]
      simp only [List.append_assoc, List.cons_append, List.nil_append]

theorem walk_eq (q : Query) : q.walk = q.placed.map Prod.snd := by
  rw [walk, walkLoop_eq, List.flatMap_singleton]
  rfl

theorem walk_of_children_map {g : Query → Query} (hg : ∀ q, (g q).children = q.children.map g)
    (q : Query) : (g q).walk = q.walk.map g := by
  rw [walk_eq, walk_eq, placed_of_children_map hg, List.map_map, List.map_map]
  rfl

/-- A walk visits the query and then what the walks of its sub-queries visit, last to first. -/
theorem walk_cons (q : Query) : q.walk = q :: q.children.reverse.flatMap walk := by
  rw [walk_eq, map_snd_placed]
  simp only [← walk_eq]

/-- The queries in the tree are the query itself and those below its direct sub-queries. -/
theorem countNodes_eq (q : Query) : q.countNodes = 1 + total countNodes q.children := by
  have hbelow (l : List Query) : (l.flatMap walk).length = total countNodes l := by
    induction l with
    | nil => rfl
    | cons c l ih => rw [List.flatMap_cons, List.length_append, ih, total_cons, countNodes]
  rw [countNodes, walk_cons, List.length_cons, hbelow, total_reverse, Nat.add_comm]

theorem mem_walk {q x : Query} : x ∈ q.walk ↔ ∃ p, q.at? p = some x := by
  rw [walk_eq, List.mem_map]
  constructor
  · rintro ⟨⟨p, y⟩, hp, rfl⟩
    exact ⟨p, mem_placed.mp hp⟩
  · rintro ⟨p, hp⟩
    exact ⟨(p, x), mem_placed.mpr hp, rfl⟩

end Query

end SearchQuery
