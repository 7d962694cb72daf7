import Mathlib.Data.Set.Card
import SearchQuery.Proofs.Lookup
import SearchQuery.Proofs.TreeHolder

/-!
# An edit through a handle changes one node or nothing

An edit counts the nodes bound to its handle by one traversal and goes to the node by another. Both
are about the same set of places, `boundPlaces`: the count is its cardinality
(`ncard_boundPlaces`), and where there is one place the search ends there
(`searchLoop_of_boundPlaces_eq`). So the search cannot fail after a count of one, and the edit
changes the node at the only place there is. What that does to the tree is the frame condition of
positions. The changed node is found again (`find?_modifyAt`), since whatever the change puts below
it comes later in the walk.

Trees are edited in their places, step by step, and what a step has changed stays changed if a later
one is refused. So it has to be shown that a refusal leaves the trees alone, and that the change is
not made then: a refusal always comes from the count, before any step has changed anything
(`runOn_editIn_of_not_found`, `runOn_editIn_of_duplicate`).
-/

namespace SearchQuery

variable {kind : NodeKind}

namespace Query

/-! ## 1. The places of a handle -/

/-- The places at which nodes bound to the handle stand: the tree, and the position in it. -/
def boundPlaces (trees : List Query) (h : Handle kind) : Set (Nat × Position) :=
  {place | ∃ t x, trees[place.1]? = some t ∧ t.at? place.2 = some x ∧ x.isBoundTo h = true}

/-- The places as a list, in the order in which they are searched. -/
def boundPlacesList (trees : List Query) (h : Handle kind) : List (Nat × Position) :=
  ((placedIn trees).filter fun x => x.2.isBoundTo h).map Prod.fst

theorem mem_boundPlacesList {trees : List Query} {h : Handle kind} {place : Nat × Position} :
    place ∈ boundPlacesList trees h ↔ place ∈ boundPlaces trees h := by
  obtain ⟨i, p⟩ := place
  rw [boundPlacesList, List.mem_map]
  constructor
  · rintro ⟨⟨key, x⟩, hx, rfl⟩
    obtain ⟨hplaced, hb⟩ := List.mem_filter.mp hx
    obtain ⟨t, ht, hat⟩ := mem_placedIn.mp hplaced
    exact ⟨t, x, ht, hat, hb⟩
  · rintro ⟨t, x, ht, hat, hb⟩
    exact ⟨((i, p), x), List.mem_filter.mpr ⟨mem_placedIn.mpr ⟨t, ht, hat⟩, hb⟩, rfl⟩

theorem boundPlaces_eq (trees : List Query) (h : Handle kind) :
    boundPlaces trees h = {place | place ∈ boundPlacesList trees h} :=
  Set.ext fun _ => mem_boundPlacesList.symm

theorem nodup_boundPlacesList (trees : List Query) (h : Handle kind) :
    (boundPlacesList trees h).Nodup :=
  (nodup_placedIn trees).sublist (List.filter_sublist.map Prod.fst)

theorem finite_boundPlaces (trees : List Query) (h : Handle kind) :
    (boundPlaces trees h).Finite := by
  rw [boundPlaces_eq]
  exact (finite_and_ncard_mem (nodup_boundPlacesList trees h)).1

/-- What an edit counts is the number of places. -/
theorem ncard_boundPlaces (trees : List Query) (h : Handle kind) :
    (boundPlaces trees h).ncard = total (fun t => t.boundCount h) trees := by
  rw [boundPlaces_eq, (finite_and_ncard_mem (nodup_boundPlacesList trees h)).2, boundPlacesList,
    List.length_map, ← List.countP_eq_length_filter, total_boundCount]

theorem locate_eq_head? (trees : List Query) (h : Handle kind) :
    locate trees h = (boundPlacesList trees h).head? := by
  rw [locate_eq, boundPlacesList, List.head?_map, List.head?_filter]

/-- Where there is one place, the query there is the only one that is bound. -/
theorem eq_of_boundPlaces_eq {trees : List Query} {h : Handle kind} {place : Nat × Position}
    {x : Query} (hplaces : boundPlaces trees h = {place}) (hx : (place, x) ∈ placedIn trees)
    {y : (Nat × Position) × Query} (hy : y ∈ placedIn trees) (hb : y.2.isBoundTo h = true) :
    y = (place, x) := by
  obtain ⟨⟨i, p⟩, y⟩ := y
  obtain ⟨t', ht', hat'⟩ := mem_placedIn.mp hy
  have hplace : (i, p) ∈ boundPlaces trees h := ⟨t', y, ht', hat', hb⟩
  rw [hplaces, Set.mem_singleton_iff] at hplace
  obtain rfl := hplace
  obtain ⟨t, ht, hat⟩ := mem_placedIn.mp hx
  rw [ht', Option.some.injEq] at ht
  rw [← ht, hat', Option.some.injEq] at hat
  rw [hat]

/-- Where there is one place, the search ends there, with the contents of the node. -/
theorem searchLoop_of_boundPlaces_eq {β : Type} {trees : List Query} {h : Handle kind}
    {place : Nat × Position} {t x : Query} {contents : Node Query kind}
    (hplaces : boundPlaces trees h = {place}) (ht : trees[place.1]? = some t)
    (hx : t.at? place.2 = some x) (hc : contentsIfBound h x = some contents)
    (found : Nat → Position → Node Query kind → β) (missing : β) :
    searchLoop h found missing (Pending.roots trees) = found place.1 place.2 contents := by
  have hmem : (place, x) ∈ placedIn trees := mem_placedIn.mpr ⟨t, ht, hx⟩
  rw [searchLoop_roots]
  rcases hfound : (placedIn trees).findSome? fun y =>
      (contentsIfBound h y.2).map (found y.1.1 y.1.2) with _ | answer
  · -- The search does not pass the node.
    have hnone := List.findSome?_eq_none_iff.mp hfound _ hmem
    rw [hc, Option.map_some] at hnone
    cases hnone
  · -- It does not stop before it either.
    obtain ⟨y, hy, hanswer⟩ := List.exists_of_findSome?_eq_some hfound
    obtain ⟨contents', hc', rfl⟩ := Option.map_eq_some_iff.mp hanswer
    have hb : y.2.isBoundTo h = true := by
      rw [← contentsIfBound_isSome, hc', Option.isSome_some]
    obtain rfl := eq_of_boundPlaces_eq hplaces hmem hy hb
    rw [hc, Option.some.injEq] at hc'
    rw [hfound, Option.getD_some, hc']

/-! ## 2. Finding the changed node -/

theorem findSome?_reverse_set {α β : Type} {f : α → Option β} {l : List α} {i : Nat} {a : α}
    {b : β} (hi : i < l.length) (ha : f a = some b) (hlater : ∀ x ∈ l.drop (i + 1), f x = none) :
    (l.set i a).reverse.findSome? f = some b := by
  have hdrop : (l.drop (i + 1)).reverse.findSome? f = none := by
    rw [List.findSome?_eq_none_iff]
    intro x hx
    exact hlater x (List.mem_reverse.mp hx)
  rw [List.set_eq_take_append_cons_drop, if_pos hi, List.reverse_append, List.reverse_cons,
    List.append_assoc, List.findSome?_append, hdrop, Option.none_or, List.singleton_append,
    List.findSome?_cons, ha]

/-- If no other node of the tree is bound to the handle, then the changed node is the first one
found. The induction goes down to the position of the change: the query passed is not bound, and
neither is anything in the sub-queries that are searched before the one with the change. What the
change puts below the node does not matter, since the node is found before it. -/
theorem find?_modifyAt {q r x : Query} {p : Position} {h : Handle kind} {change : Query → Query}
    {contents : Node Query kind} (hx : q.at? p = some x)
    (honly : ∀ (s : Position) (y : Query), q.at? s = some y → y.isBoundTo h = true → s = p)
    (hr : q.modifyAt p change = some r) (hc : contentsIfBound h (change x) = some contents) :
    r.find? h = some contents := by
  induction p generalizing q r with
  | nil =>
      rw [at?_nil, Option.some.injEq] at hx
      rw [modifyAt_nil, Option.some.injEq] at hr
      rw [find?_cons, ← hr, hx, hc, Option.some_or]
  | cons i p ih =>
      obtain ⟨c, d, hchild, hd, rfl⟩ := modifyAt_cons_eq_some_iff.mp hr
      obtain ⟨hi, -⟩ := List.getElem?_eq_some_iff.mp hchild
      have hself : contentsIfBound h (q.setChild i d) = none := by
        rw [contentsIfBound_eq_none_iff, isBoundTo_setChild, ← Bool.not_eq_true]
        intro hb
        exact List.cons_ne_nil i p (honly [] q (at?_nil q) hb).symm
      have hlater : ∀ y ∈ q.children.drop (i + 1), y.find? h = none := by
        intro y hy
        obtain ⟨k, hk⟩ := List.mem_iff_getElem?.mp hy
        rw [List.getElem?_drop] at hk
        rw [find?_eq_none_iff]
        intro s z hz
        rw [← Bool.not_eq_true]
        intro hb
        -- A bound node here would be below an index past `i`.
        have hs := honly _ z (at?_cons_eq_some_iff.mpr ⟨y, hk, hz⟩) hb
        have hindex := (List.cons.inj hs).1
        omega
      have hfound : d.find? h = some contents := by
        refine ih ?_ ?_ hd
        · rwa [at?_cons, hchild, Option.bind_some] at hx
        · intro s y hy hb
          exact (List.cons.inj (honly _ y (at?_cons_eq_some_iff.mpr ⟨c, hchild, hy⟩) hb)).2
      -- The walk takes the last sub-query first, so the later ones come before the changed one.
      rw [find?_cons, hself, Option.none_or, children_setChild]
      exact findSome?_reverse_set hi hfound hlater

/-! ## 3. Other contents at one place -/

/-- One tree is another with a query in the place of the one at a position. The first field says it
all; the other two say what it means: the query is there, and everywhere that is not below it
everything but the sub-queries is as it was. -/
structure EditedAt (t t' : Query) (p : Position) (x : Query) : Prop where
  replaced : t.replaceAt p x = some t'
  there : t'.at? p = some x
  elsewhere : ∀ s : Position, ¬ p <+: s → (t'.at? s).map shape = (t.at? s).map shape

theorem editedAt_of_modifyAt {t t' x : Query} {p : Position} {change : Query → Query}
    (hx : t.at? p = some x) (ht' : t.modifyAt p change = some t') :
    EditedAt t t' p (change x) := by
  refine ⟨?_, at?_modifyAt hx ht', fun s hs => shape_at?_modifyAt ht' hs⟩
  rw [← modifyAt_eq_replaceAt hx, ht']

/-- The only bound node of several trees can be given other contents, which a lookup in its tree
then finds. -/
theorem exists_editedAt {trees : List Query} {h b : Handle kind} {i : Nat} {p : Position}
    {t : Query} {contents : Node Query kind} (hplaces : boundPlaces trees h = {(i, p)})
    (ht : trees[i]? = some t) (hat : t.at? p = some (node b contents)) (hb : (b == h) = true)
    (contents' : Node Query kind) :
    ∃ t', EditedAt t t' p (node b contents') ∧ t'.find? h = some contents' := by
  obtain ⟨t', ht'⟩ := exists_modifyAt hat fun _ => node b contents'
  refine ⟨t', editedAt_of_modifyAt hat ht', find?_modifyAt hat ?_ ht' ?_⟩
  · -- Another bound node of this tree would be a second place.
    intro s y hy hys
    have hplace : (i, s) ∈ boundPlaces trees h := ⟨t, y, ht, hy, hys⟩
    rw [hplaces, Set.mem_singleton_iff] at hplace
    exact (Prod.mk.inj hplace).2
  · exact contentsIfBound_node hb contents'

/-! ## 4. The steps of an edit -/

theorem modify_eq_set {α : Type} {l : List α} {i : Nat} {a : α} (h : l[i]? = some a) (f : α → α) :
    l.modify i f = l.set i (f a) := by
  rw [List.modify_eq_set_getElem?, h]
  rfl

section Steps

variable {τ : Type} {trees : List Query} {h : Handle kind}

/-- Without a bound node the edit is refused. The trees stay as they are, and so does whatever the
change might have touched. -/
theorem runOn_editIn_of_not_found (hn : (boundPlaces trees h).ncard = 0)
    (change : Node Query kind → τ → Node Query kind × τ) (x : τ) :
    (editIn h change).runOn (trees, x) = (.error (.handleNotFound h.display), (trees, x)) := by
  rw [ncard_boundPlaces] at hn
  rw [editIn, Steps.runOn_bind, Steps.runOn_get]
  simp only [hn]
  rfl

/-- With several bound nodes the edit is refused in the same way. -/
theorem runOn_editIn_of_duplicate (hn : 2 ≤ (boundPlaces trees h).ncard)
    (change : Node Query kind → τ → Node Query kind × τ) (x : τ) :
    (editIn h change).runOn (trees, x)
      = (.error (.duplicateHandle h.display (boundPlaces trees h).ncard), (trees, x)) := by
  -- The count is spelled as a successor twice, which is how the third case is reached.
  obtain ⟨n, hcount⟩ := Nat.exists_eq_add_of_le' hn
  rw [hcount]
  rw [ncard_boundPlaces] at hcount
  rw [editIn, Steps.runOn_bind, Steps.runOn_get]
  simp only [hcount]
  rfl

/-- The last step changes the node at the place and nothing else in the trees. -/
theorem runOn_changeAt {place : Nat × Position} {t t' : Query} {b : Handle kind}
    {contents : Node Query kind} {change : Node Query kind → τ → Node Query kind × τ} {x : τ}
    (ht : trees[place.1]? = some t) (hat : t.at? place.2 = some (node b contents))
    (ht' : t.replaceAt place.2 (node b (change contents x).1) = some t') :
    (changeAt change place.1 place.2 contents).runOn (trees, x)
      = (.ok (), (trees.set place.1 t', (change contents x).2)) := by
  have hput : t.modifyAt place.2 (modifyNode kind fun _ => (change contents x).1) = some t' := by
    rw [modifyAt_eq_replaceAt hat, modifyNode_node, ht']
  show (Except.ok (), (trees.modify place.1 fun t =>
    (t.modifyAt place.2 (modifyNode kind fun _ => (change contents x).1)).getD t,
    (change contents x).2)) = _
  rw [modify_eq_set ht, hput, Option.getD_some]

/-- With one bound node the search ends in the change of what is found at its place. The refusal at
the end of the search is never reached. -/
theorem runOn_editIn_of_found {place : Nat × Position} {t t' : Query} {b : Handle kind}
    {contents : Node Query kind} {change : Node Query kind → τ → Node Query kind × τ} {x : τ}
    (hplaces : boundPlaces trees h = {place}) (ht : trees[place.1]? = some t)
    (hat : t.at? place.2 = some (node b contents)) (hb : (b == h) = true)
    (ht' : t.replaceAt place.2 (node b (change contents x).1) = some t') :
    (editIn h change).runOn (trees, x)
      = (.ok (), (trees.set place.1 t', (change contents x).2)) := by
  have hn : total (fun t => t.boundCount h) trees = 1 := by
    rw [← ncard_boundPlaces, hplaces, Set.ncard_singleton]
  have hsearch := searchLoop_of_boundPlaces_eq hplaces ht hat (contentsIfBound_node hb contents)
    (changeAt change) (throw (.handleNotFound h.display))
  rw [editIn, Steps.runOn_bind, Steps.runOn_get]
  simp only [hn, hsearch]
  exact runOn_changeAt ht hat ht'

end Steps

/-! ## 5. One node or nothing -/

/-- A way of editing something in its place, for each change to a node. What else a change may
touch comes with it. -/
abbrev Editing (kind : NodeKind) (S : Type) : Type 1 :=
  (τ : Type) → (Node Query kind → τ → Node Query kind × τ) → Steps (S × τ) Unit

section Outcomes

variable {S : Type}

/-- An edit is refused, whatever the change. Carried out step by step, it leaves everything as it
was: what was to be edited, and what the change would have touched, so that the change has not been
made. -/
structure Refused (s : S) (edit : Editing kind S)
    (mutate : (Node Query kind → Node Query kind) → Except QueryError S) (e : QueryError) :
    Prop where
  untouched : ∀ (τ : Type) (change : Node Query kind → τ → Node Query kind × τ) (x : τ),
    (edit τ change).runOn (s, x) = (.error e, (s, x))
  answer : ∀ change, mutate change = .error e

/-- The trees held in `s'` are those held in `s` but for the contents of one node: it stands at a
position of the tree `t`, bound as it was, and a lookup in the new tree finds the new contents. -/
def ChangedAt (trees : S → List Query) (s s' : S) (h : Handle kind) (i : Nat) (t : Query)
    (p : Position) (b : Handle kind) (contents : Node Query kind) : Prop :=
  ∃ t', trees s' = (trees s).set i t' ∧ EditedAt t t' p (node b contents) ∧
    t'.find? h = some contents

/-- A way of editing something that holds trees hits the one node bound to the handle or nothing,
carried out step by step with a change that may do more (`edit`) and as a whole with one that may
not (`mutate`). It is refused, with the number of places if that is to blame, before anything has
been changed. It is carried out where there is one place, which does not depend on the change. -/
structure HitsOneNode (trees : S → List Query) (s : S) (h : Handle kind) (edit : Editing kind S)
    (mutate : (Node Query kind → Node Query kind) → Except QueryError S) : Prop where
  finite : (boundPlaces (trees s) h).Finite
  notFound : (boundPlaces (trees s) h).ncard = 0 →
    Refused s edit mutate (.handleNotFound h.display)
  duplicate : 2 ≤ (boundPlaces (trees s) h).ncard →
    Refused s edit mutate (.duplicateHandle h.display (boundPlaces (trees s) h).ncard)
  /-- The search ends at the one place, and the change is made once, to the contents found there. -/
  edited : (boundPlaces (trees s) h).ncard = 1 →
    ∃ i p t b contents, boundPlaces (trees s) h = {(i, p)} ∧ locate (trees s) h = some (i, p) ∧
      (trees s)[i]? = some t ∧ t.at? p = some (node b contents) ∧ (b == h) = true ∧
      (∀ (τ : Type) (change : Node Query kind → τ → Node Query kind × τ) (x : τ), ∃ s',
        (edit τ change).runOn (s, x) = (.ok (), (s', (change contents x).2)) ∧
        ChangedAt trees s s' h i t p b (change contents x).1) ∧
      ∀ change, ∃ s', mutate change = .ok s' ∧
        ChangedAt trees s s' h i t p b (change contents)

/-- Whatever comes of an edit, either it is refused and everything is as it was, or it goes through
and there are as many trees as before. -/
theorem HitsOneNode.refused_or_edited {trees : S → List Query} {s : S} {h : Handle kind}
    {edit : Editing kind S} {mutate : (Node Query kind → Node Query kind) → Except QueryError S}
    (hits : HitsOneNode trees s h edit mutate) {τ : Type}
    (change : Node Query kind → τ → Node Query kind × τ) (x : τ) :
    (∃ e, (edit τ change).runOn (s, x) = (.error e, (s, x))) ∨
      ∃ s' x', (edit τ change).runOn (s, x) = (.ok (), (s', x')) ∧
        (trees s').length = (trees s).length := by
  rcases Nat.lt_trichotomy (boundPlaces (trees s) h).ncard 1 with hlt | hone | hgt
  · exact .inl ⟨_, (hits.notFound (Nat.lt_one_iff.mp hlt)).untouched τ change x⟩
  · obtain ⟨i, p, t, b, contents, -, -, -, -, -, hsteps, -⟩ := hits.edited hone
    obtain ⟨s', hrun, t', htrees, -, -⟩ := hsteps τ change x
    exact .inr ⟨s', _, hrun, by rw [htrees, List.length_set]⟩
  · exact .inl ⟨_, (hits.duplicate hgt).untouched τ change x⟩

end Outcomes

end Query

/-! ## 6. Wherever trees are held -/

namespace TreeHolder

variable {S : Type} (H : TreeHolder S)

/-- Trees that are left as they were are put back as they were. -/
theorem refused {s : S} {h : Handle kind} {e : QueryError}
    (hrun : ∀ (τ : Type) (change : Node Query kind → τ → Node Query kind × τ) (x : τ),
      (Query.editIn h change).runOn (H.trees s, x) = (.error e, (H.trees s, x))) :
    Query.Refused s (fun _ => H.edit h) (fun change => (H.mutateSteps h change).result s) e := by
  have huntouched : ∀ (τ : Type) (change : Node Query kind → τ → Node Query kind × τ) (x : τ),
      (H.edit h change).runOn (s, x) = (.error e, (s, x)) := by
    intro τ change x
    have hput := H.runOn_edit (hrun τ change x)
    rwa [H.put_trees] at hput
  refine ⟨huntouched, fun change => ?_⟩
  exact Steps.result_of_error (Steps.runOn_alone (huntouched Unit (Query.onlyNode change) ()))

/-- Wherever trees are held, an edit hits one node or nothing. -/
theorem hitsOneNode (s : S) (h : Handle kind) :
    Query.HitsOneNode H.trees s h (fun _ => H.edit h)
      fun change => (H.mutateSteps h change).result s where
  finite := Query.finite_boundPlaces (H.trees s) h
  notFound hn := H.refused fun _ change x => Query.runOn_editIn_of_not_found hn change x
  duplicate hn := H.refused fun _ change x => Query.runOn_editIn_of_duplicate hn change x
  edited := by
    intro hn
    obtain ⟨⟨i, p⟩, hplaces⟩ := Set.ncard_eq_one.mp hn
    have hmem : (i, p) ∈ Query.boundPlaces (H.trees s) h := by
      rw [hplaces]
      exact Set.mem_singleton (i, p)
    obtain ⟨t, x, ht, hx, hbound⟩ := hmem
    obtain ⟨b, contents, rfl, hb⟩ := Query.isBoundTo_iff.mp hbound
    have hlocate : Query.locate (H.trees s) h = some (i, p) :=
      Query.searchLoop_of_boundPlaces_eq hplaces ht hx (Query.contentsIfBound_node hb contents) _ _
    have hsteps : ∀ (τ : Type) (change : Node Query kind → τ → Node Query kind × τ) (x : τ),
        ∃ s', (H.edit h change).runOn (s, x) = (.ok (), (s', (change contents x).2)) ∧
          Query.ChangedAt H.trees s s' h i t p b (change contents x).1 := by
      intro τ change x
      obtain ⟨t', hedited, hfind⟩ :=
        Query.exists_editedAt hplaces ht hx hb (change contents x).1
      have hrun := Query.runOn_editIn_of_found hplaces ht hx hb hedited.replaced
      exact ⟨_, H.runOn_edit hrun, t', H.trees_put s _ List.length_set, hedited, hfind⟩
    refine ⟨i, p, t, b, contents, hplaces, hlocate, ht, hx, hb, hsteps, fun change => ?_⟩
    -- The whole answer is that of the steps, for a change that touches nothing else.
    obtain ⟨s', hrun, hchanged⟩ := hsteps Unit (Query.onlyNode change) ()
    exact ⟨s', Steps.result_eq_ok_iff.mpr (Steps.runOn_alone hrun), hchanged⟩

end TreeHolder

namespace Query

/-- An edit leaves as many trees as there were. -/
theorem length_runOn_editIn {τ : Type} (trees : List Query) (h : Handle kind)
    (change : Node Query kind → τ → Node Query kind × τ) (x : τ) :
    ((editIn h change).runOn (trees, x)).2.1.length = trees.length := by
  rcases (TreeHolder.list.hitsOneNode trees h).refused_or_edited change x with
    ⟨e, hrun⟩ | ⟨trees', x', hrun, hlength⟩
  · exact congrArg (fun answer => answer.2.1.length) hrun
  · exact (congrArg (fun answer => answer.2.1.length) hrun).trans hlength

end Query

namespace SearchRequest

/-- Whether an edit is carried out or refused, nothing of the request but its trees can be
another. -/
theorem sameButTrees_edit {τ : Type} (r : SearchRequest) (h : Handle kind)
    (change : Node Query kind → τ → Node Query kind × τ) (x : τ) :
    SameButTrees r ((edit h change).runOn (r, x)).2.1 :=
  (withTrees_spec (Query.length_runOn_editIn r.trees h change x)).2

theorem sameButTrees_of_mutate {r r' : SearchRequest} {h : Handle kind}
    {change : Node Query kind → Node Query kind} (hr : r.mutate h change = .ok r') :
    SameButTrees r r' := by
  have hrun : (mutateSteps h change).runOn r = (.ok (), r') := Steps.result_eq_ok_iff.mp hr
  have hsame : SameButTrees r ((mutateSteps h change).runOn r).2 :=
    sameButTrees_edit r h (Query.onlyNode change) ()
  rwa [hrun] at hsame

/-- A refused step leaves the request as it is. Only an edit is ever refused. -/
theorem snd_runOn_take_of_error {r : SearchRequest} {step : Step} {e : QueryError}
    (h : r.apply step = .error e) : ((take step).runOn r).2 = r := by
  cases step with
  | mutate handle edits =>
      rcases (TreeHolder.request.hitsOneNode r handle).refused_or_edited
        (Query.onlyNode (Edit.applyAll edits)) () with ⟨e', hrun⟩ | ⟨r', x', hrun, -⟩
      · exact congrArg Prod.snd (Steps.runOn_alone hrun)
      · have hok : r.apply (.mutate handle edits) = .ok r' :=
          Steps.result_eq_ok_iff.mpr (Steps.runOn_alone hrun)
        rw [hok] at h
        cases h
  | _ => cases h

end SearchRequest

/-- **An edit through a handle hits exactly one node or nothing**, in any list of trees, in one tree
and in a request, whose trees are the root query and then the rescorers' queries. What is said of a
tree and of a request comes down to lists of trees. -/
theorem edit_hits_one_node (h : Handle kind) :
    (∀ trees : List Query,
      Query.HitsOneNode id trees h (fun _ => Query.editIn h) (Query.mutateIn trees h)) ∧
    (∀ t : Query,
      Query.HitsOneNode (fun t => [t]) t h (fun _ => Query.edit h) (t.mutate h)) ∧
    (∀ r : SearchRequest,
      Query.HitsOneNode SearchRequest.trees r h (fun _ => SearchRequest.edit h) (r.mutate h) ∧
      (∀ change r', r.mutate h change = .ok r' → r.SameButTrees r') ∧
      ∀ (τ : Type) (change : Node Query kind → τ → Node Query kind × τ) (x : τ),
        r.SameButTrees ((SearchRequest.edit h change).runOn (r, x)).2.1) := by
  refine ⟨fun trees => TreeHolder.list.hitsOneNode trees h,
    fun t => TreeHolder.tree.hitsOneNode t h,
    fun r => ⟨TreeHolder.request.hitsOneNode r h, ?_, ?_⟩⟩
  · intro change r' hr
    exact SearchRequest.sameButTrees_of_mutate hr
  · intro τ change x
    exact r.sameButTrees_edit h change x

end SearchQuery
