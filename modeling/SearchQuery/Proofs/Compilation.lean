import SearchQuery.Proofs.Writing
import SearchQuery.Request

/-!
# Compilation is all or nothing

A query is compiled in three ways: to a document, into any sink, and as part of a request. The ways
agree on what is written and on when nothing is. Whether anything is refused is settled before the
first member is written, and it hangs on the depth of the reduced queries alone: `forM_checkDepth`
and `forM_checkDepth_of_lt` say what checking several queries in order comes to.

That a refusal leaves the sink alone cannot be seen in a function that answers either with a sink or
with an error. Section 4 therefore carries the writing out step by step, on a sink that keeps what
has been written when a step is refused, and shows that the refusal always comes first.
-/

namespace SearchQuery

/-! ## 1. Checking depths -/

namespace Query

theorem checkDepth_of_le {q : Query} (h : q.depth ≤ 128) : q.checkDepth = .ok () := by
  unfold checkDepth
  exact if_neg (Nat.not_lt.mpr h)

theorem checkDepth_of_lt {q : Query} (h : 128 < q.depth) :
    q.checkDepth = .error (.depthLimitExceeded q.depth 128) := by
  unfold checkDepth
  exact if_pos h

/-- Queries that are checked in order pass if none of them is too deep. -/
theorem forM_checkDepth {qs : List Query} (h : ∀ q ∈ qs, q.depth ≤ 128) :
    forM qs checkDepth = .ok () := by
  induction qs with
  | nil => rfl
  | cons q qs ih =>
      rw [List.forall_mem_cons] at h
      rw [List.forM_cons, checkDepth_of_le h.1]
      exact ih h.2

/-- The first one that is too deep is the one that is reported. -/
theorem forM_checkDepth_of_lt {before after : List Query} {q : Query}
    (hbefore : ∀ p ∈ before, p.depth ≤ 128) (hq : 128 < q.depth) :
    forM (before ++ q :: after) checkDepth = .error (.depthLimitExceeded q.depth 128) := by
  rw [List.forM_append, forM_checkDepth hbefore, List.forM_cons, checkDepth_of_lt hq]
  rfl

/-- Either no query is too deep or there is a first one that is. -/
theorem depths_le_or_first_lt (qs : List Query) :
    (∀ q ∈ qs, q.depth ≤ 128) ∨
    ∃ before q after, qs = before ++ q :: after ∧ (∀ p ∈ before, p.depth ≤ 128) ∧
      128 < q.depth := by
  induction qs with
  | nil =>
      apply Or.inl
      intro q hq
      exact absurd hq List.not_mem_nil
  | cons q qs ih =>
      by_cases hq : q.depth ≤ 128
      · rcases ih with hall | ⟨before, p, after, rfl, hbefore, hp⟩
        · exact Or.inl (List.forall_mem_cons.mpr ⟨hq, hall⟩)
        · exact Or.inr ⟨q :: before, p, after, rfl, List.forall_mem_cons.mpr ⟨hq, hbefore⟩, hp⟩
      · refine Or.inr ⟨[], q, qs, rfl, fun p hp => absurd hp List.not_mem_nil, ?_⟩
        omega

/-! ## 2. One query -/

section Compile

variable {q r : Query}

theorem compileInto_of_reduce_none (h : q.reduce = none) {σ : Type} [ObjectSink σ] (out : σ) :
    q.compileInto out = .ok (false, out) := by
  rw [compileInto, h]

theorem compileInto_of_lt (h : q.reduce = some r) (hr : 128 < r.depth) {σ : Type} [ObjectSink σ]
    (out : σ) : q.compileInto out = .error (.depthLimitExceeded r.depth 128) := by
  rw [compileInto, h]
  show (r.checkDepth >>= fun _ => .ok (true, writeAll out r.members)) = _
  rw [checkDepth_of_lt hr]
  rfl

theorem compileInto_of_le (h : q.reduce = some r) (hr : r.depth ≤ 128) {σ : Type} [ObjectSink σ]
    (out : σ) :
    q.compileInto out = .ok (true, ObjectSink.write out (.object r.name r.body)) := by
  rw [compileInto, h]
  show (r.checkDepth >>= fun _ => .ok (true, writeAll out r.members)) = _
  rw [checkDepth_of_le hr, members_eq]
  rfl

/-- Compiling to a document is compiling into an empty one, which is given up if nothing has been
written into it. -/
theorem compile_eq_compileInto (q : Query) :
    q.compile = (q.compileInto (OrderedMap.empty : JsonObject)).map
      fun written => if written.1 then some written.2 else none := by
  rw [compile, compileInto]
  rcases q.reduce with _ | r
  · rfl
  · show (r.checkDepth >>= fun _ => .ok (some r.toJson))
      = (r.checkDepth >>= fun _ => .ok (true, writeAll OrderedMap.empty r.members)).map _
    rcases r.checkDepth with e | _ <;> rfl

/-- What has been compiled is the document of a reduction that is not too deep. -/
theorem exists_reduce_of_compile {q : Query} {o : JsonObject} (h : q.compile = .ok (some o)) :
    ∃ r, q.reduce = some r ∧ r.depth ≤ 128 ∧ o = r.toJson := by
  rcases hr : q.reduce with _ | r
  · rw [compile, hr] at h
    cases h
  · have hcompile : (r.checkDepth >>= fun _ => .ok (some r.toJson)) = .ok (some o) := by
      rw [compile, hr] at h
      exact h
    by_cases hdepth : r.depth ≤ 128
    · rw [checkDepth_of_le hdepth] at hcompile
      exact ⟨r, rfl, hdepth, (Option.some.inj (Except.ok.inj hcompile)).symm⟩
    · rw [checkDepth_of_lt (Nat.lt_of_not_le hdepth)] at hcompile
      cases hcompile

/-- A query that is written into one sink is written into any other, and the same members are. -/
theorem compileInto_uniform {q : Query} {σ : Type} [ObjectSink σ] {out out' : σ}
    (h : q.compileInto out = .ok (true, out')) :
    ∃ ms, ∀ (τ : Type) [ObjectSink τ] (into : τ),
      q.compileInto into = .ok (true, writeAll into ms) := by
  rcases hr : q.reduce with _ | r
  · rw [compileInto_of_reduce_none hr] at h
    cases h
  · by_cases hdepth : r.depth ≤ 128
    · exact ⟨[.object r.name r.body], fun τ _ into => compileInto_of_le hr hdepth into⟩
    · rw [compileInto_of_lt hr (by omega)] at h
      cases h

end Compile

end Query

/-- An object written into a document sets its key and no other. -/
theorem JsonObject.setsOnly_write (o : JsonObject) (key : String) (ms : List Member) :
    OrderedMap.SetsOnly o (ObjectSink.write o (.object key ms)) key
      (.object (JsonObject.ofMembers ms)) := by
  rw [← Member.toJson_object key ms]
  exact OrderedMap.setsOnly_insert o key _

/-- An object written into a container sets its key and no other. -/
theorem Parameters.setsOnly_write (p : Parameters) (key : String) (ms : List Member) :
    OrderedMap.SetsOnly p (ObjectSink.write p (.object key ms)) key
      (.object (Parameters.ofMembers ms)) := by
  rw [← Member.toValue_object key ms]
  exact OrderedMap.setsOnly_insert p key _

/-! ## 3. A request -/

namespace SearchRequest

/-- The queries that a request writes: its trees, reduced, without those that come to nothing. The
root query is first, and the rescorers' queries follow in the order of the rescorers. -/
def written (r : SearchRequest) : List Query := r.trees.filterMap Query.reduce

/-- What a request writes of its own accord, before the extra fields. -/
def fixedMembers (r : SearchRequest) : List Member :=
  optionalMember r.reducedQuery (fun q => .object "query" q.members) ++
    optionalMember r.offset (fun n => (toValue n).member "from") ++
    optionalMember r.size (fun n => (toValue n).member "size") ++
    optionalMember r.trackTotalHits (Value.member "track_total_hits") ++
    (if r.sort.isEmpty then [] else [.array "sort" (r.sort.map SortKey.item)]) ++
    nonemptyArray "rescore" (r.reducedRescore.map Rescore.members)

theorem written_eq (r : SearchRequest) :
    r.written = r.reducedQuery.toList ++ r.reducedRescore.map Rescore.query := by
  have hroot : r.query.toList.filterMap Query.reduce = r.reducedQuery.toList := by
    unfold reducedQuery
    rcases r.query with _ | q
    · rfl
    · rw [Option.toList_some, List.filterMap_cons, List.filterMap_nil, Option.bind_some]
      rcases q.reduce with _ | q' <;> rfl
  have hrescore : (r.rescore.map Rescore.query).filterMap Query.reduce
      = r.reducedRescore.map Rescore.query := by
    have hentry : Query.reduce ∘ Rescore.query = fun e => e.reduce.map Rescore.query := by
      funext e
      rw [Function.comp_apply, Rescore.reduce, Option.map_map]
      exact Option.map_id'.symm
    rw [reducedRescore, List.filterMap_map, List.map_filterMap, hentry]
  rw [written, trees, List.filterMap_append, hroot, hrescore]

/-- The queries are checked first, all of them and in order; the rest cannot be refused. -/
theorem members_eq (r : SearchRequest) :
    r.members
      = (forM r.written Query.checkDepth).map fun _ => r.fixedMembers ++ r.body.members := by
  rw [written_eq, List.forM_append, List.forM_map, members]
  simp only [List.forM_eq_forM]
  -- A refused check of the root query leaves the rescorers unchecked.
  rcases forM r.reducedQuery.toList Query.checkDepth with e | _
  · rfl
  · rcases forM r.reducedRescore (fun entry : Rescore => entry.query.checkDepth) with e | _ <;> rfl

theorem members_of_le {r : SearchRequest} (h : ∀ q ∈ r.written, q.depth ≤ 128) :
    r.members = .ok (r.fixedMembers ++ r.body.members) := by
  rw [members_eq, Query.forM_checkDepth h]
  rfl

theorem members_of_lt {r : SearchRequest} {before after : List Query} {q : Query}
    (h : r.written = before ++ q :: after) (hbefore : ∀ p ∈ before, p.depth ≤ 128)
    (hq : 128 < q.depth) : r.members = .error (.depthLimitExceeded q.depth 128) := by
  rw [members_eq, h, Query.forM_checkDepth_of_lt hbefore hq]
  rfl

/-- A request is refused or accepted as a whole, whatever it is written into. -/
theorem writeBody_eq {σ : Type} [ObjectSink σ] (r : SearchRequest) (out : σ) :
    ((∀ q ∈ r.written, q.depth ≤ 128) ∧
      r.writeBody out = .ok (writeAll out (r.fixedMembers ++ r.body.members))) ∨
    ∃ before q after, r.written = before ++ q :: after ∧ (∀ p ∈ before, p.depth ≤ 128) ∧
      128 < q.depth ∧ r.writeBody out = .error (.depthLimitExceeded q.depth 128) := by
  rcases Query.depths_le_or_first_lt r.written with hall | ⟨before, q, after, h, hbefore, hq⟩
  · refine Or.inl ⟨hall, ?_⟩
    rw [writeBody, members_of_le hall]
    rfl
  · refine Or.inr ⟨before, q, after, h, hbefore, hq, ?_⟩
    rw [writeBody, members_of_lt h hbefore hq]
    rfl

theorem writeBody_isOk_iff {σ : Type} [ObjectSink σ] (r : SearchRequest) (out : σ) :
    (∃ out', r.writeBody out = .ok out') ↔ ∀ q ∈ r.written, q.depth ≤ 128 := by
  rcases r.writeBody_eq out with ⟨hall, hok⟩ | ⟨before, q, after, h, -, hq, herror⟩
  · exact ⟨fun _ => hall, fun _ => ⟨_, hok⟩⟩
  · constructor
    · rintro ⟨out', hok⟩
      rw [herror] at hok
      cases hok
    · intro hall
      have hle : q.depth ≤ 128 := by
        apply hall
        rw [h]
        exact List.mem_append_right before List.mem_cons_self
      omega

/-- A request that is written into one sink is written into any other, and the same members are. -/
theorem writeBody_uniform {σ : Type} [ObjectSink σ] {r : SearchRequest} {out out' : σ}
    (h : r.writeBody out = .ok out') :
    ∃ ms, ∀ (τ : Type) [ObjectSink τ] (into : τ), r.writeBody into = .ok (writeAll into ms) := by
  have hle : ∀ q ∈ r.written, q.depth ≤ 128 := (r.writeBody_isOk_iff out).mp ⟨out', h⟩
  refine ⟨r.fixedMembers ++ r.body.members, fun τ _ into => ?_⟩
  rw [writeBody, members_of_le hle]
  rfl

/-- A rescorer whose query comes to nothing might as well not be there. -/
theorem writeBody_dropped {σ : Type} [ObjectSink σ] {r : SearchRequest}
    {before after : List Rescore} {e : Rescore} (h : r.rescore = before ++ e :: after)
    (he : e.query.reduce = none) (out : σ) :
    r.writeBody out = { r with rescore := before ++ after }.writeBody out := by
  have hrescore : r.reducedRescore = { r with rescore := before ++ after }.reducedRescore := by
    have hdrop : e.reduce = none := by rw [Rescore.reduce, he, Option.map_none]
    rw [reducedRescore, reducedRescore, h, List.filterMap_append, List.filterMap_append,
      List.filterMap_cons_none hdrop]
  rw [writeBody, writeBody, members, members, hrescore]
  rfl

end SearchRequest

/-! ## 4. Step by step -/

namespace Steps

variable {σ α : Type}

/-- The step that checks a query. -/
def check (q : Query) : Steps σ Unit := liftExcept q.checkDepth

/-- The step that writes a member. -/
def write [ObjectSink σ] (m : Member) : Steps σ Unit :=
  modify fun out => ObjectSink.write out m

/-- How an answer that comes with a sink would look to the one who handed the sink over: a refusal
leaves it alone. -/
def outcome (out : σ) : Except QueryError (α × σ) → Except QueryError α × σ
  | .ok (a, out') => (.ok a, out')
  | .error e => (.error e, out)

theorem runOn_check (q : Query) (out : σ) :
    (check q : Steps σ Unit).runOn out = (q.checkDepth, out) := by
  unfold check
  rcases q.checkDepth with e | _ <;> rfl

/-- Checking writes nothing, and ends as the checks do. -/
theorem runOn_forM_check (qs : List Query) (out : σ) :
    (forM qs check : Steps σ Unit).runOn out = (forM qs Query.checkDepth, out) := by
  induction qs with
  | nil => rfl
  | cons q qs ih =>
      rw [List.forM_cons, List.forM_cons, runOn_bind, runOn_check]
      rcases q.checkDepth with e | _
      · rfl
      · exact ih

/-- Writing is never refused. -/
theorem runOn_forM_write [ObjectSink σ] (ms : List Member) (out : σ) :
    (forM ms write : Steps σ Unit).runOn out = (.ok (), writeAll out ms) := by
  induction ms generalizing out with
  | nil => rfl
  | cons m ms ih =>
      have hwrite : (write m : Steps σ Unit).runOn out = (.ok (), ObjectSink.write out m) := rfl
      rw [List.forM_cons, runOn_bind, hwrite, writeAll_cons]
      exact ih (ObjectSink.write out m)

end Steps

open Steps

section StepByStep

variable {σ : Type} [ObjectSink σ]

/-- Compiling a query into a sink, step by step: what is left of it is checked and then written. -/
def Query.compileSteps (q : Query) : Steps σ Bool :=
  match q.reduce with
  | none => pure false
  | some r => do
    check r
    forM r.members write
    return true

/-- Writing the body of a request, step by step: all queries are checked, and then the members are
written one after the other. -/
def SearchRequest.writeBodySteps (r : SearchRequest) : Steps σ Unit := do
  forM r.reducedQuery.toList check
  forM (r.reducedRescore.map Rescore.query) check
  forM r.fixedMembers write
  forM r.body.members write

/-- A query is compiled into a sink as a whole or not at all. -/
theorem Query.runOn_compileSteps (q : Query) (out : σ) :
    q.compileSteps.runOn out = outcome out (q.compileInto out) := by
  rw [compileSteps, compileInto]
  rcases q.reduce with _ | r
  · rfl
  · show Steps.runOn (do check r; forM r.members write; return true) out
      = outcome out (r.checkDepth >>= fun _ => .ok (true, writeAll out r.members))
    rw [runOn_bind, runOn_check]
    rcases r.checkDepth with e | _
    · rfl
    · show Steps.runOn (do forM r.members write; return true) out
        = (.ok true, writeAll out r.members)
      rw [runOn_bind, runOn_forM_write]
      rfl

/-- The body of a request is written as a whole or not at all. -/
theorem SearchRequest.runOn_writeBodySteps (r : SearchRequest) (out : σ) :
    r.writeBodySteps.runOn out = outcome out ((r.writeBody out).map fun out' => ((), out')) := by
  -- The root query and the rescorers are checked as one list, and then all members are written.
  have hsteps : r.writeBodySteps.runOn out
      = (forM r.written check >>= fun _ => forM (r.fixedMembers ++ r.body.members) write :
          Steps σ Unit).runOn out := by
    rw [written_eq, List.forM_append, List.forM_append, bind_assoc]
    rfl
  rw [hsteps, runOn_bind, runOn_forM_check, writeBody, members_eq]
  rcases forM r.written Query.checkDepth with e | _
  · rfl
  · exact runOn_forM_write _ out

end StepByStep

/-! ## 5. All or nothing -/

/-- Compiling `q` into the sinks that there are writes `r` as one object: a document and a container
get one key set and keep all others in their places, and a log is added to at its end. -/
structure Query.WritesAsOne (q r : Query) : Prop where
  document : ∀ o : JsonObject, ∃ o', q.compileInto o = .ok (true, o') ∧
    OrderedMap.SetsOnly o o' r.name (.object (JsonObject.ofMembers r.body))
  container : ∀ p : Parameters, ∃ p', q.compileInto p = .ok (true, p') ∧
    OrderedMap.SetsOnly p p' r.name (.object (Parameters.ofMembers r.body))
  log : ∀ l : List Event, q.compileInto l
    = .ok (true, l ++ .openObject r.name :: (Member.eventsOf r.body ++ [.closeObject]))

theorem Query.writesAsOne {q r : Query} (h : q.reduce = some r) (hr : r.depth ≤ 128) :
    q.WritesAsOne r where
  document o := ⟨_, compileInto_of_le h hr o, o.setsOnly_write r.name r.body⟩
  container p := ⟨_, compileInto_of_le h hr p, p.setsOnly_write r.name r.body⟩
  log l := by
    have hwrite : ObjectSink.write l (.object r.name r.body)
        = l ++ .openObject r.name :: (Member.eventsOf r.body ++ [.closeObject]) := by
      show l ++ (Member.object r.name r.body).events = _
      rw [Member.events]
    rw [compileInto_of_le h hr, hwrite]

/-- What compiling a query comes to, in each of its ways. The first three cases exclude each other
and leave nothing out. -/
structure Query.CompilesWhole (q : Query) : Prop where
  /-- A query that comes to nothing is left out, and nothing is written. -/
  skipped : q.reduce = none →
    q.compile = .ok none ∧
    ∀ (σ : Type) [ObjectSink σ] (out : σ), q.compileInto out = .ok (false, out)
  /-- A query whose reduction is too deep is refused, with the depth of the reduction. -/
  refused : ∀ r, q.reduce = some r → 128 < r.depth →
    q.compile = .error (.depthLimitExceeded r.depth 128) ∧
    ∀ (σ : Type) [ObjectSink σ] (out : σ),
      q.compileInto out = .error (.depthLimitExceeded r.depth 128)
  /-- Any other query is written as one object under the name of its reduction. -/
  written : ∀ r, q.reduce = some r → r.depth ≤ 128 →
    q.compile = .ok (some ⟨[(r.name, .object (JsonObject.ofMembers r.body))]⟩) ∧
    (∀ (σ : Type) [ObjectSink σ] (out : σ),
      q.compileInto out = .ok (true, ObjectSink.write out (.object r.name r.body))) ∧
    q.WritesAsOne r
  /-- Carried out step by step, compiling leaves the sink alone unless it goes through. -/
  atomic : ∀ (σ : Type) [ObjectSink σ] (out : σ),
    q.compileSteps.runOn out = outcome out (q.compileInto out)

theorem Query.compilesWhole (q : Query) : q.CompilesWhole where
  skipped h := by
    refine ⟨?_, fun _ _ out => compileInto_of_reduce_none h out⟩
    rw [compile_eq_compileInto, compileInto_of_reduce_none h]
    rfl
  refused r h hr := by
    refine ⟨?_, fun _ _ out => compileInto_of_lt h hr out⟩
    rw [compile_eq_compileInto, compileInto_of_lt h hr]
    rfl
  written r h hr := by
    refine ⟨?_, fun _ _ out => compileInto_of_le h hr out, writesAsOne h hr⟩
    rw [compile_eq_compileInto, compileInto_of_le h hr, ← Member.toJson_object r.name]
    rfl
  atomic _ _ out := q.runOn_compileSteps out

/-- What compiling a request comes to, as a document and into a sink. -/
structure SearchRequest.CompilesWhole (r : SearchRequest) : Prop where
  /-- Where no query is too deep, the same members are written into whatever there is. -/
  accepted : (∀ q ∈ r.written, q.depth ≤ 128) →
    ∃ ms, r.compile = .ok ⟨JsonObject.ofMembers ms, r.params⟩ ∧
      ∀ (σ : Type) [ObjectSink σ] (out : σ), r.writeBody out = .ok (writeAll out ms)
  /-- Otherwise the first query that is too deep is reported. -/
  refused : ∀ before q after, r.written = before ++ q :: after →
    (∀ p ∈ before, p.depth ≤ 128) → 128 < q.depth →
      r.compile = .error (.depthLimitExceeded q.depth 128) ∧
      ∀ (σ : Type) [ObjectSink σ] (out : σ),
        r.writeBody out = .error (.depthLimitExceeded q.depth 128)
  compiles_iff : (∃ c, r.compile = .ok c) ↔ ∀ q ∈ r.written, q.depth ≤ 128
  writes_iff : ∀ (σ : Type) [ObjectSink σ] (out : σ),
    (∃ out', r.writeBody out = .ok out') ↔ ∀ q ∈ r.written, q.depth ≤ 128
  /-- Carried out step by step, writing leaves the sink alone unless it goes through. -/
  atomic : ∀ (σ : Type) [ObjectSink σ] (out : σ),
    r.writeBodySteps.runOn out = outcome out ((r.writeBody out).map fun out' => ((), out'))
  /-- A rescorer whose query comes to nothing makes no difference. -/
  dropped : ∀ before e after, r.rescore = before ++ e :: after → e.query.reduce = none →
    r.compile = { r with rescore := before ++ after }.compile ∧
    ∀ (σ : Type) [ObjectSink σ] (out : σ),
      r.writeBody out = { r with rescore := before ++ after }.writeBody out

theorem SearchRequest.compilesWhole (r : SearchRequest) : r.CompilesWhole where
  accepted h := by
    have hwrite {σ : Type} [ObjectSink σ] (out : σ) :
        r.writeBody out = .ok (writeAll out (r.fixedMembers ++ r.body.members)) := by
      rw [writeBody, members_of_le h]
      rfl
    refine ⟨r.fixedMembers ++ r.body.members, ?_, fun _ _ out => hwrite out⟩
    rw [compile, hwrite]
    rfl
  refused before q after h hbefore hq := by
    have hwrite {σ : Type} [ObjectSink σ] (out : σ) :
        r.writeBody out = .error (.depthLimitExceeded q.depth 128) := by
      rw [writeBody, members_of_lt h hbefore hq]
      rfl
    refine ⟨?_, fun _ _ out => hwrite out⟩
    rw [compile, hwrite]
    rfl
  compiles_iff := by
    rw [← r.writeBody_isOk_iff (OrderedMap.empty : JsonObject), compile]
    rcases r.writeBody (OrderedMap.empty : JsonObject) with e | body
    · constructor
      · rintro ⟨c, hc⟩
        cases hc
      · rintro ⟨body, hbody⟩
        cases hbody
    · exact ⟨fun _ => ⟨body, rfl⟩, fun _ => ⟨⟨body, r.params⟩, rfl⟩⟩
  writes_iff _ _ out := r.writeBody_isOk_iff out
  atomic _ _ out := r.runOn_writeBodySteps out
  dropped before e after h he := by
    refine ⟨?_, fun _ _ out => writeBody_dropped h he out⟩
    rw [compile, writeBody_dropped h he]
    rfl

/-- **Compilation is all or nothing**, for queries and for requests, and its ways agree: what is
left out, what is refused and what is written depends on the reduced queries and not on the sink. -/
theorem compilation_all_or_nothing :
    (∀ q : Query, q.CompilesWhole) ∧ ∀ r : SearchRequest, r.CompilesWhole :=
  ⟨Query.compilesWhole, SearchRequest.compilesWhole⟩

end SearchQuery
