import Mathlib.Data.List.Basic
import SearchQuery.Request

/-!
# Where trees are held

Trees are edited in a list, alone and in a request. The three ways differ only in where the trees
are read from and put back to, which is a `TreeHolder`: each of them is the edit of a list of trees,
made on a part of what holds them. For a request the part is the root query and the rescorers'
queries. They can be put back into it because there are as many as there were, and then nothing else
of the request is another (`withTrees_spec`).
-/

namespace SearchQuery

variable {kind : NodeKind}

/-! ## 1. Holders -/

/-- Trees are read from somewhere and put back there, as many as there were. -/
structure TreeHolder (S : Type) where
  trees : S → List Query
  put : S → List Query → S
  trees_put : ∀ s ts, ts.length = (trees s).length → trees (put s ts) = ts
  put_trees : ∀ s, put s (trees s) = s
  put_put : ∀ s ts us, ts.length = (trees s).length → us.length = ts.length →
    put (put s ts) us = put s us

namespace TreeHolder

variable {S τ : Type} (H : TreeHolder S) {s : S} {h : Handle kind}

/-- Edits the trees where they are held. -/
def edit (h : Handle kind) (change : Node Query kind → τ → Node Query kind × τ) :
    Steps (S × τ) Unit :=
  (Query.editIn h change).onFirst H.trees H.put

/-- Edits the trees with a change that only changes its node. -/
def mutateSteps (h : Handle kind) (change : Node Query kind → Node Query kind) : Steps S Unit :=
  (H.edit h (Query.onlyNode change)).alone

theorem runOn_edit {change : Node Query kind → τ → Node Query kind × τ} {x x' : τ}
    {ts : List Query} {answer : Except QueryError Unit}
    (hrun : (Query.editIn h change).runOn (H.trees s, x) = (answer, (ts, x'))) :
    (H.edit h change).runOn (s, x) = (answer, (H.put s ts, x')) :=
  Steps.runOn_onFirst hrun

theorem runOn_mutateSteps {change : Node Query kind → Node Query kind} {ts : List Query}
    {answer : Except QueryError Unit}
    (hrun : (Query.mutateInSteps h change).runOn (H.trees s) = (answer, ts)) :
    (H.mutateSteps h change).runOn s = (answer, H.put s ts) :=
  Steps.runOn_onPart hrun

theorem result_mutateSteps (s : S) (h : Handle kind)
    (change : Node Query kind → Node Query kind) :
    (H.mutateSteps h change).result s = (Query.mutateIn (H.trees s) h change).map (H.put s) :=
  Steps.result_onPart H.trees H.put (Query.mutateInSteps h change) s

end TreeHolder

/-! ## 2. The trees of a request -/

namespace SearchRequest

/-- A request is another one but for its trees: it has a root query and rescorers where the other
has them, with the same settings. -/
structure SameButTrees (r r' : SearchRequest) : Prop where
  settings : { r' with query := r.query, rescore := r.rescore } = r
  root : r'.query.isSome = r.query.isSome
  rescorers : (r'.rescore.map fun e => (e.windowSize, e.options))
    = r.rescore.map fun e => (e.windowSize, e.options)

theorem map_query_zipWith {l : List Rescore} {ts : List Query} (h : ts.length = l.length) :
    (l.zipWith (fun entry query => { entry with query }) ts).map Rescore.query = ts := by
  have hsnd : (l.zip ts).map Prod.snd = ts := List.map_snd_zip (Nat.le_of_eq h)
  rw [List.zip, List.map_zipWith] at hsnd
  rwa [List.map_zipWith]

theorem map_settings_zipWith {l : List Rescore} {ts : List Query} (h : ts.length = l.length) :
    (l.zipWith (fun entry query => { entry with query }) ts).map
        (fun e => (e.windowSize, e.options))
      = l.map fun e => (e.windowSize, e.options) := by
  have hfst : (l.zip ts).map Prod.fst = l := List.map_fst_zip (Nat.le_of_eq h.symm)
  conv => rhs; rw [← hfst, List.map_map, List.zip, List.map_zipWith]
  rw [List.map_zipWith]
  rfl

/-- The trees put into a request are the ones read from it afterwards, and nothing else of the
request is another. -/
theorem withTrees_spec {r : SearchRequest} {ts : List Query} (h : ts.length = r.trees.length) :
    (r.withTrees ts).trees = ts ∧ SameButTrees r (r.withTrees ts) := by
  obtain ⟨query, offset, size, trackTotalHits, sort, rescore, body, params⟩ := r
  rw [trees, List.length_append, List.length_map] at h
  rcases query with _ | q
  · -- Without a root query all trees are the rescorers'.
    rw [Option.toList_none, List.length_nil, Nat.zero_add] at h
    exact ⟨map_query_zipWith h, rfl, rfl, map_settings_zipWith h⟩
  · rw [Option.toList_some, List.length_singleton, Nat.add_comm] at h
    obtain ⟨t, rest, rfl⟩ := List.exists_cons_of_length_eq_add_one h
    rw [List.length_cons, Nat.add_right_cancel_iff] at h
    exact ⟨congrArg (t :: ·) (map_query_zipWith h), rfl, rfl, map_settings_zipWith h⟩

theorem withTrees_trees (r : SearchRequest) : r.withTrees r.trees = r := by
  obtain ⟨query, offset, size, trackTotalHits, sort, rescore, body, params⟩ := r
  have hentries : rescore.zipWith (fun entry query => { entry with query })
      (rescore.map Rescore.query) = rescore := by
    rw [List.zipWith_map_right, List.zipWith_self]
    exact List.map_id' rescore
  rcases query with _ | q
  · simp only [withTrees, trees, Option.toList_none, List.nil_append, hentries]
  · simp only [withTrees, trees, Option.toList_some, List.singleton_append, List.head?_cons,
      List.tail_cons, hentries]

theorem zipWith_zipWith {l : List Rescore} {ts us : List Query} (ht : ts.length = l.length) :
    (l.zipWith (fun entry query => { entry with query }) ts).zipWith
        (fun entry query => { entry with query }) us
      = l.zipWith (fun entry query => { entry with query }) us := by
  induction l generalizing ts us with
  | nil => rfl
  | cons e l ih =>
      obtain ⟨t, ts, rfl⟩ := List.exists_cons_of_length_eq_add_one ht
      cases us with
      | nil => rfl
      | cons u us =>
          simp only [List.zipWith_cons_cons, ih (Nat.succ.inj ht)]

/-- Of trees put into a request one after the other, the last ones stay. -/
theorem withTrees_withTrees {r : SearchRequest} {ts us : List Query}
    (hts : ts.length = r.trees.length) (hus : us.length = ts.length) :
    (r.withTrees ts).withTrees us = r.withTrees us := by
  obtain ⟨query, offset, size, trackTotalHits, sort, rescore, body, params⟩ := r
  rw [trees, List.length_append, List.length_map] at hts
  rcases query with _ | q
  · rw [Option.toList_none, List.length_nil, Nat.zero_add] at hts
    simp only [withTrees, zipWith_zipWith hts]
  · rw [Option.toList_some, List.length_singleton, Nat.add_comm] at hts
    obtain ⟨t, rest, rfl⟩ := List.exists_cons_of_length_eq_add_one hts
    have hrest : rest.length = rescore.length := Nat.succ.inj hts
    simp only [withTrees, List.head?_cons, List.tail_cons, zipWith_zipWith hrest]

/-- After a change a request has the trees that the change leaves, also if it is refused. -/
theorem snd_runOn_mutateSteps (r : SearchRequest) (h : Handle kind)
    (change : Node Query kind → Node Query kind) :
    ((mutateSteps h change).runOn r).2
      = r.withTrees ((Query.mutateInSteps h change).runOn r.trees).2 := rfl

end SearchRequest

/-! ## 3. The three holders -/

namespace TreeHolder

/-- A list of trees holds itself. -/
def list : TreeHolder (List Query) where
  trees ts := ts
  put _ ts := ts
  trees_put _ _ _ := rfl
  put_trees _ := rfl
  put_put _ _ _ _ _ := rfl

/-- A tree holds itself alone. -/
def tree : TreeHolder Query where
  trees t := [t]
  put t ts := ts.headD t
  trees_put := by
    intro t ts hlen
    obtain ⟨t', rfl⟩ := List.length_eq_one_iff.mp hlen
    rfl
  put_trees _ := rfl
  put_put := by
    intro t ts us hlen hlen'
    obtain ⟨u, rfl⟩ := List.length_eq_one_iff.mp (hlen'.trans hlen)
    rfl

/-- A request holds its root query and its rescorers' queries. -/
def request : TreeHolder SearchRequest where
  trees := SearchRequest.trees
  put := SearchRequest.withTrees
  trees_put _ _ hlen := (SearchRequest.withTrees_spec hlen).1
  put_trees := SearchRequest.withTrees_trees
  put_put _ _ _ hts hus := SearchRequest.withTrees_withTrees hts hus

end TreeHolder

end SearchQuery
