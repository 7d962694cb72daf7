import SearchQuery.Proofs.Walk
import SearchQuery.Query.Mutation

/-!
# Looking a handle up

A handle is looked up in three ways: by counting the nodes bound to it, by finding the first of
them in a tree, and by the search of an edit through several trees. All three go over the same
positions. The count is a count over the positions (`boundCount_eq`), the first node found is that
of the first position in walk order (`find?_cons` gives it by recursion), and the search goes
through the positions of all trees, tree by tree (`searchLoop_eq`, `locate_eq`).
-/

namespace SearchQuery

variable {α : Type} {kind : NodeKind}

/-! ## 1. Nodes bound to a handle -/

namespace BoundNode

/-- A node is of a kind exactly if it has been bound as one. -/
theorem project_eq_some_iff {n : BoundNode α} {b : Handle kind} {c : Node α kind} :
    n.project kind = some (b, c) ↔ n = bind b c := by
  cases kind with
  | bool => cases n <;> simp [project, bind]
  | disMax => cases n <;> simp [project, bind]
  | functionScore => cases n <;> simp [project, bind]

theorem project_bind (b : Handle kind) (c : Node α kind) :
    (bind b c).project kind = some (b, c) :=
  project_eq_some_iff.mpr rfl

theorem modify_bind (b : Handle kind) (c : Node α kind) (change : Node α kind → Node α kind) :
    (bind b c).modify kind change = bind b (change c) := by
  cases kind <;> rfl

theorem isBoundTo_setChild (n : BoundNode α) (i : Nat) (x : α) (h : Handle kind) :
    (n.setChild i x).isBoundTo h = n.isBoundTo h := by
  cases kind with
  | bool => cases n <;> rfl
  | disMax => cases n <;> rfl
  | functionScore => cases n <;> rfl

end BoundNode

namespace Query

/-- The query is a node bound to the handle. -/
def isBoundTo (q : Query) (h : Handle kind) : Bool :=
  match q.node? with
  | some n => n.isBoundTo h
  | none => false

theorem isBoundTo_iff {q : Query} {h : Handle kind} :
    q.isBoundTo h = true ↔ ∃ b c, q = node b c ∧ (b == h) = true := by
  obtain ⟨form⟩ := q
  cases form with
  | leaf test options => simp [isBoundTo, node?, node]
  | nested path query options => simp [isBoundTo, node?, node]
  | compound body options => simp [isBoundTo, node?, node]
  | node n =>
      simp only [isBoundTo, node?, form_of, BoundNode.isBoundTo, node, of.injEq, Form.node.injEq]
      constructor
      · intro hb
        cases hp : n.project kind with
        | none => simp [hp] at hb
        | some pair =>
            rw [hp] at hb
            exact ⟨pair.1, pair.2, BoundNode.project_eq_some_iff.mp hp, hb⟩
      · rintro ⟨b, c, rfl, hb⟩
        rw [BoundNode.project_bind]
        exact hb

theorem contentsIfBound_node {b h : Handle kind} (hb : (b == h) = true) (c : Node Query kind) :
    contentsIfBound h (node b c) = some c := by
  rw [contentsIfBound, node, node?, form_of, Option.bind_some, BoundNode.project_bind,
    Option.filter_some, if_pos hb, Option.map_some]

theorem contentsIfBound_isSome (h : Handle kind) (q : Query) :
    (contentsIfBound h q).isSome = q.isBoundTo h := by
  rw [contentsIfBound, isBoundTo, Option.isSome_map, Option.isSome_filter]
  cases q.node? with
  | none => rfl
  | some n =>
      show (n.project kind).any (fun b => b.1 == h) = n.isBoundTo h
      rw [BoundNode.isBoundTo]
      cases n.project kind with
      | none => rfl
      | some pair => rfl

theorem contentsIfBound_eq_none_iff {h : Handle kind} {q : Query} :
    contentsIfBound h q = none ↔ q.isBoundTo h = false := by
  rw [← contentsIfBound_isSome, Option.isSome_eq_false_iff, Option.isNone_iff_eq_none]

theorem contentsIfBound_eq_some_iff {h : Handle kind} {q : Query} {c : Node Query kind} :
    contentsIfBound h q = some c ↔ ∃ b, (b == h) = true ∧ q = node b c := by
  constructor
  · intro hc
    have hbound : q.isBoundTo h = true := by rw [← contentsIfBound_isSome, hc, Option.isSome_some]
    obtain ⟨b, d, rfl, hb⟩ := isBoundTo_iff.mp hbound
    rw [contentsIfBound_node hb, Option.some.injEq] at hc
    exact ⟨b, hb, by rw [hc]⟩
  · rintro ⟨b, hb, rfl⟩
    exact contentsIfBound_node hb c

theorem isBoundTo_setChild (q : Query) (i : Nat) (x : Query) (h : Handle kind) :
    (q.setChild i x).isBoundTo h = q.isBoundTo h := by
  obtain ⟨form⟩ := q
  cases form with
  | leaf test options => rfl
  | nested path query options => rfl
  | compound body options => rfl
  | node n => exact n.isBoundTo_setChild i x h

theorem modifyNode_node (b : Handle kind) (c : Node Query kind)
    (change : Node Query kind → Node Query kind) :
    modifyNode kind change (node b c) = node b (change c) := by
  rw [modifyNode, node, form_of]
  simp only [BoundNode.modify_bind, node]

/-! ## 2. Counting and finding in one tree -/

theorem countP_flatMap_eq_total {β γ : Type} (p : γ → Bool) (g : β → List γ) (l : List β) :
    (l.flatMap g).countP p = total (fun a => (g a).countP p) l := by
  induction l with
  | nil => rfl
  | cons a l ih => rw [List.flatMap_cons, List.countP_append, ih, total_cons]

/-- The count is a count over the positions of the tree. -/
theorem boundCount_eq (q : Query) (h : Handle kind) :
    q.boundCount h = q.placed.countP fun x => x.2.isBoundTo h := by
  -- The three passes over the nodes are one pass over the walk.
  rw [boundCount, nodes, List.filterMap_filterMap, List.filter_filterMap,
    List.length_filterMap_eq_countP, walk_eq, List.countP_map]
  congr 1
  funext x
  rw [← contentsIfBound_isSome, contentsIfBound, Option.isSome_map]
  rfl

/-- The count of a query is that of its sub-queries, and one more if it is itself a node bound to
the handle. -/
theorem boundCount_cons (q : Query) (h : Handle kind) :
    q.boundCount h
      = (if q.isBoundTo h then 1 else 0) + total (fun c => c.boundCount h) q.children := by
  have count (q : Query) : q.boundCount h = q.walk.countP fun x => x.isBoundTo h := by
    rw [boundCount_eq, walk_eq, List.countP_map]
    rfl
  rw [count, walk_cons, List.countP_cons, countP_flatMap_eq_total, total_reverse, Nat.add_comm]
  simp only [← count]

/-- A count of zero means that no query at any position is bound to the handle. -/
theorem boundCount_eq_zero_iff {q : Query} {h : Handle kind} :
    q.boundCount h = 0 ↔
      ∀ (p : Position) (x : Query), q.at? p = some x → x.isBoundTo h = false := by
  rw [boundCount_eq, List.countP_eq_zero]
  constructor
  · intro hzero p x hx
    exact Bool.eq_false_iff.mpr (hzero (p, x) (mem_placed.mpr hx))
  · rintro hzero ⟨p, x⟩ hmem
    exact Bool.eq_false_iff.mp (hzero p x (mem_placed.mp hmem))

theorem find?_eq (q : Query) (h : Handle kind) :
    q.find? h = q.walk.findSome? (contentsIfBound h) := by
  rw [find?, nodes, List.filterMap_filterMap, ← List.head?_filter, List.filter_filterMap,
    List.head?_filterMap, List.map_findSome?]
  rfl

/-- Nothing is found exactly if there is nothing at any position. -/
theorem find?_eq_none_iff {q : Query} {h : Handle kind} :
    q.find? h = none ↔ ∀ (p : Position) (x : Query), q.at? p = some x → x.isBoundTo h = false := by
  rw [find?_eq, List.findSome?_eq_none_iff]
  constructor
  · intro hnone p x hx
    exact contentsIfBound_eq_none_iff.mp (hnone x (mem_walk.mpr ⟨p, hx⟩))
  · intro hnone x hx
    obtain ⟨p, hp⟩ := mem_walk.mp hx
    exact contentsIfBound_eq_none_iff.mpr (hnone p x hp)

/-- What is found is the node that the walk comes to first. -/
theorem find?_eq_some_iff {q : Query} {h : Handle kind} {c : Node Query kind} :
    q.find? h = some c ↔
      ∃ before b after, q.walk = before ++ node b c :: after ∧ (b == h) = true ∧
        ∀ y ∈ before, y.isBoundTo h = false := by
  rw [find?_eq, List.findSome?_eq_some_iff]
  constructor
  · rintro ⟨before, x, after, hwalk, hx, hbefore⟩
    obtain ⟨b, hb, rfl⟩ := contentsIfBound_eq_some_iff.mp hx
    exact ⟨before, b, after, hwalk, hb, fun y hy => contentsIfBound_eq_none_iff.mp (hbefore y hy)⟩
  · rintro ⟨before, b, after, hwalk, hb, hbefore⟩
    exact ⟨before, node b c, after, hwalk, contentsIfBound_node hb c,
      fun y hy => contentsIfBound_eq_none_iff.mpr (hbefore y hy)⟩

theorem findSome?_flatMap {β γ : Type} (f : β → Option γ) (g : α → List β) (l : List α) :
    (l.flatMap g).findSome? f = l.findSome? fun a => (g a).findSome? f := by
  induction l with
  | nil => rfl
  | cons a l ih =>
      rw [List.flatMap_cons, List.findSome?_append, List.findSome?_cons, ih]
      cases (g a).findSome? f <;> rfl

/-- The query itself is looked at first, then its sub-queries from the last to the first. -/
theorem find?_cons (q : Query) (h : Handle kind) :
    q.find? h = (contentsIfBound h q).or (q.children.reverse.findSome? fun c => c.find? h) := by
  rw [find?_eq, walk_cons, List.findSome?_cons, findSome?_flatMap]
  simp only [← find?_eq]
  cases contentsIfBound h q <;> rfl

/-! ## 3. Locating in several trees -/

/-- The queries at all positions of several trees, tree by tree in walk order. -/
def placedIn (trees : List Query) : List ((Nat × Position) × Query) :=
  trees.zipIdx.flatMap fun t => t.1.placed.map fun x => ((t.2, x.1), x.2)

theorem mem_placedIn {trees : List Query} {i : Nat} {p : Position} {x : Query} :
    ((i, p), x) ∈ placedIn trees ↔ ∃ t, trees[i]? = some t ∧ t.at? p = some x := by
  rw [placedIn, List.mem_flatMap]
  constructor
  · rintro ⟨t, ht, hx⟩
    obtain ⟨y, hy, heq⟩ := List.mem_map.mp hx
    obtain ⟨hkey, rfl⟩ := Prod.mk.inj heq
    obtain ⟨rfl, rfl⟩ := Prod.mk.inj hkey
    exact ⟨t.1, List.mem_zipIdx_iff_getElem?.mp ht, mem_placed.mp hy⟩
  · rintro ⟨t, ht, hx⟩
    refine ⟨(t, i), List.mem_zipIdx_iff_getElem?.mpr ht, List.mem_map.mpr ⟨(p, x), ?_, rfl⟩⟩
    exact mem_placed.mpr hx

theorem nodup_placedIn (trees : List Query) : ((placedIn trees).map Prod.fst).Nodup := by
  rw [placedIn, List.map_flatMap]
  simp only [List.map_map, Function.comp_def]
  refine List.nodup_flatMap.mpr ⟨fun t _ => ?_, ?_⟩
  · have hinj : Function.Injective fun p : Position => (t.2, p) :=
      fun _ _ heq => (Prod.mk.inj heq).2
    -- In one tree the positions are apart, and between trees the trees are.
    have h := t.1.nodup_placed.map hinj
    rwa [List.map_map] at h
  · refine ((List.pairwise_reverse.mp (pairwise_zipIdx_reverse trees))).imp fun {a b} hab => ?_
    refine List.disjoint_left.mpr ?_
    intro key ha hb
    obtain ⟨x, -, rfl⟩ := List.mem_map.mp ha
    obtain ⟨y, -, hy⟩ := List.mem_map.mp hb
    exact hab (Prod.mk.inj hy).1

/-- The counts of several trees add up to a count over all their positions. -/
theorem total_boundCount (trees : List Query) (h : Handle kind) :
    total (fun t => t.boundCount h) trees
      = (placedIn trees).countP fun x => x.2.isBoundTo h := by
  rw [placedIn, countP_flatMap_eq_total]
  -- The positions are numbered by tree, which the counts do not look at.
  conv => lhs; rw [← List.zipIdx_map_fst 0 trees, total_map]
  congr 1
  funext t
  rw [Function.comp_apply, boundCount_eq, List.countP_map]
  rfl

namespace Pending

/-- The positions below a pending query, with the tree it is in. -/
def placed (p : Pending) : List ((Nat × Position) × Query) :=
  p.query.placed.map fun x => ((p.tree, p.path.reverse ++ x.1), x.2)

theorem placed_cons (p : Pending) :
    p.placed = ((p.tree, p.path.reverse), p.query) :: p.children.reverse.flatMap placed := by
  rw [placed, placed_eq, List.map_cons, List.append_nil, List.map_flatMap, children,
    ← List.map_reverse, List.flatMap_map]
  simp only [placed, List.map_map, Function.comp_def, List.reverse_cons, List.append_assoc,
    List.singleton_append]

end Pending

/-- The loop searches all positions below the queries on its stack, from the top down, and ends at
the first one with a bound node. -/
theorem searchLoop_eq {β : Type} (h : Handle kind)
    (found : Nat → Position → Node Query kind → β) (missing : β) (stack : List Pending) :
    searchLoop h found missing stack
      = ((stack.flatMap Pending.placed).findSome? fun x =>
          (contentsIfBound h x.2).map (found x.1.1 x.1.2)).getD missing := by
  fun_induction searchLoop h found missing stack with
  | case1 => rfl
  | case2 p stack contents hc =>
      -- The query on top is the first of all positions left, and it is bound.
      rw [List.flatMap_cons, Pending.placed_cons, List.cons_append, List.findSome?_cons]
      simp only [hc, Option.map_some, Option.getD_some]
  | case3 p stack hc ih =>
      -- It is passed, and its sub-queries come before the rest of the stack.
      rw [ih, List.flatMap_cons, Pending.placed_cons, List.cons_append, List.findSome?_cons,
        List.flatMap_append]
      simp only [hc, Option.map_none]

theorem searchLoop_roots {β : Type} (trees : List Query) (h : Handle kind)
    (found : Nat → Position → Node Query kind → β) (missing : β) :
    searchLoop h found missing (Pending.roots trees)
      = ((placedIn trees).findSome? fun x =>
          (contentsIfBound h x.2).map (found x.1.1 x.1.2)).getD missing := by
  rw [searchLoop_eq, Pending.roots, List.flatMap_map]
  rfl

/-- Where the search of an edit ends: the tree that the first node bound to the handle is in, and
its position there. -/
def locate (trees : List Query) (h : Handle kind) : Option (Nat × Position) :=
  searchLoop h (fun tree position _ => some (tree, position)) none (Pending.roots trees)

theorem locate_eq (trees : List Query) (h : Handle kind) :
    locate trees h = ((placedIn trees).find? fun x => x.2.isBoundTo h).map Prod.fst := by
  rw [locate, searchLoop_roots]
  induction placedIn trees with
  | nil => rfl
  | cons x places ih =>
      rw [List.findSome?_cons, List.find?_cons, ← contentsIfBound_isSome]
      cases contentsIfBound h x.2 with
      | none => exact ih
      | some contents => rfl

end Query

end SearchQuery
