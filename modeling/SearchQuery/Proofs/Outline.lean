import Mathlib.Data.List.Basic
import SearchQuery.Proofs.Position
import SearchQuery.Proofs.Writing

/-!
# Where sub-queries stand in what is written

The traversals list the sub-queries of a form, and the writer reaches them on its own way through
the form. This file shows that the two agree: a query with `n` direct sub-queries writes `n + 1`
stretches of steps that its `shape` determines, and between each two of them all the steps of one
sub-query, in the order of `children` (`Query.filled_outline`).

The outline of a form is what it writes with the sub-queries left open. That a place is left open
for each sub-query and for nothing else is a relation, `Filled`, which is closed under putting
outlines one after the other, so that each list of clauses, each function and each body is dealt
with by itself.
-/

namespace SearchQuery

variable {α β γ : Type}

/-! ## 1. Outlines -/

/-- The steps that are the same whatever stands in the open places, with `none` for each place. -/
abbrev Outline := List (Option Event)

/-- Stretches of steps with a gap between each two of them. -/
structure Segments where
  first : List Event
  /-- After each gap, the steps up to the next one. -/
  rest : List (List Event)
  deriving DecidableEq

/-- The stretches with something in each of the gaps. -/
def Segments.around (s : Segments) (contents : List (List Event)) : List Event :=
  s.first ++ (List.zipWith (· ++ ·) contents s.rest).flatten

namespace Outline

/-- Steps with no place among them. -/
def fixed (steps : List Event) : Outline := steps.map some

/-- An object that is one place, left out when there is nothing to stand in it. -/
def optionalPlace (key : String) (o : Option α) : Outline :=
  if o.isSome then [some (.openObject key), none, some .closeObject] else []

/-- An object in an array. -/
def item (o : Outline) : Outline := some .openObjectItem :: (o ++ [some .closeObject])

/-- An array of objects, left out when there are none. -/
def nonemptyArray (key : String) (objects : List Outline) : Outline :=
  if objects.isEmpty then []
  else some (.openArray key) :: (objects.flatMap item ++ [some .closeArray])

/-- A place in an object of its own for each entry of a list. -/
def places (key : String) (l : List α) : Outline := nonemptyArray key (l.map fun _ => [none])

/-- Cuts an outline at its places. -/
def segments : Outline → Segments
  | [] => ⟨[], []⟩
  | some e :: o => ⟨e :: (segments o).first, (segments o).rest⟩
  | none :: o => ⟨[], (segments o).first :: (segments o).rest⟩

end Outline

/-- The outline comes to these steps when the contents stand in its places: each in one place, from
left to right, and none left over. -/
inductive Filled : Outline → List (List Event) → List Event → Prop
  | nil : Filled [] [] []
  | step (e : Event) {o : Outline} {contents : List (List Event)} {steps : List Event} :
      Filled o contents steps → Filled (some e :: o) contents (e :: steps)
  | place (c : List Event) {o : Outline} {contents : List (List Event)} {steps : List Event} :
      Filled o contents steps → Filled (none :: o) (c :: contents) (c ++ steps)

namespace Filled

variable {o o' : Outline} {contents contents' : List (List Event)} {steps steps' : List Event}

theorem append (h : Filled o contents steps) (h' : Filled o' contents' steps') :
    Filled (o ++ o') (contents ++ contents') (steps ++ steps') := by
  induction h with
  | nil => exact h'
  | step e _ ih => exact .step e ih
  | place c _ ih =>
      rw [List.append_assoc]
      exact .place c ih

theorem fixed (steps : List Event) : Filled (Outline.fixed steps) [] steps := by
  induction steps with
  | nil => exact .nil
  | cons e steps ih => exact .step e ih

/-- Steps with no place among them may follow. -/
theorem append_fixed (h : Filled o contents steps) (last : List Event) :
    Filled (o ++ Outline.fixed last) contents (steps ++ last) := by
  have happend := h.append (fixed last)
  rwa [List.append_nil] at happend

theorem flatMap {outline : α → Outline} {contents : α → List (List Event)}
    {steps : α → List Event} {l : List α}
    (h : ∀ a ∈ l, Filled (outline a) (contents a) (steps a)) :
    Filled (l.flatMap outline) (l.flatMap contents) (l.flatMap steps) := by
  induction l with
  | nil => exact .nil
  | cons a l ih =>
      obtain ⟨ha, hl⟩ := List.forall_mem_cons.mp h
      exact ha.append (ih hl)

/-- One stretch more than there are contents. -/
theorem length_rest (h : Filled o contents steps) : o.segments.rest.length = contents.length := by
  induction h with
  | nil => rfl
  | step e _ ih => exact ih
  | place c _ ih => exact congrArg (· + 1) ih

theorem eq_around (h : Filled o contents steps) : steps = o.segments.around contents := by
  induction h with
  | nil => rfl
  | step e _ ih => exact congrArg (e :: ·) ih
  | place c _ ih =>
      -- A new stretch begins, empty so far, and what was the first one follows the gap.
      rw [ih, Segments.around, Segments.around, Outline.segments, List.zipWith_cons_cons,
        List.flatten_cons, List.nil_append, List.append_assoc]

end Filled

/-! ## 2. Parts of a body -/

namespace Filled

theorem optionalPlace (key : String) (o : Option (List Member)) :
    Filled (Outline.optionalPlace key o) (o.toList.map Member.eventsOf)
      (Member.eventsOf (optionalMember o (.object key))) := by
  rcases o with _ | ms
  · exact .nil
  · rw [optionalMember, Member.eventsOf_singleton, Member.events]
    exact .step _ (.place _ (fixed [.closeObject]))

/-- The contents of an array stand in its objects, one object after the other. -/
theorem nonemptyArray {outline : α → Outline} {contents : α → List (List Event)}
    {members : α → List Member} (key : String) (l : List α)
    (h : ∀ a ∈ l, Filled (outline a) (contents a) (Member.eventsOf (members a))) :
    Filled (Outline.nonemptyArray key (l.map outline)) (l.flatMap contents)
      (Member.eventsOf (SearchQuery.nonemptyArray key (l.map members))) := by
  have hitem (a : α) (ha : a ∈ l) : Filled (Outline.item (outline a)) (contents a)
      (Item.object (members a)).events := by
    rw [Item.events]
    exact .step _ ((h a ha).append_fixed [.closeObject])
  have hitems := flatMap hitem
  -- Without objects there is no array, on either side.
  cases l with
  | nil => exact .nil
  | cons a l =>
      rw [SearchQuery.nonemptyArray, if_neg (by simp), Member.eventsOf_singleton, Member.events,
        Item.eventsOf_eq, List.map_map, List.flatMap_map]
      rw [Outline.nonemptyArray, if_neg (by simp), List.flatMap_map]
      exact .step _ (hitems.append_fixed [.closeArray])

theorem places (key : String) (l : List (List Member)) :
    Filled (Outline.places key l) (l.map Member.eventsOf)
      (Member.eventsOf (SearchQuery.nonemptyArray key l)) := by
  have hplace (ms : List Member) :
      Filled [none] [Member.eventsOf ms] (Member.eventsOf (id ms)) := by
    have h := Filled.place (Member.eventsOf ms) .nil
    rwa [List.append_nil] at h
  have hplaces := Filled.nonemptyArray key l fun ms _ => hplace ms
  rwa [List.map_id, ← List.map_eq_flatMap] at hplaces

end Filled

/-! ## 3. Forms -/

/-- The place of the filter comes first, and the rest of a function is what it writes without
one. -/
def ScoreFunction.outline (s : ScoreFunction α) : Outline :=
  Outline.optionalPlace "filter" s.filter ++
    .fixed (Member.eventsOf (members { weight := s.weight, kind := s.kind }))

namespace Compound

/-- What is left of a body without its clauses and functions. -/
def settings : Compound α → Compound β
  | bool b => .bool { minimumShouldMatch := b.minimumShouldMatch }
  | disMax b => .disMax { tieBreaker := b.tieBreaker }
  | functionScore b =>
    .functionScore { scoreMode := b.scoreMode, boostMode := b.boostMode, minScore := b.minScore }

/-- The sub-queries of a body come first, and the settings follow. -/
def outline (c : Compound α) : Outline :=
  (match c with
    | bool b =>
      (WireName.all : List Occur).flatMap fun occur =>
        Outline.places (WireName.wire occur) (b.clauses occur)
    | disMax b => .places "queries" b.queries
    | functionScore b =>
      Outline.optionalPlace "query" b.query ++
        .nonemptyArray "functions" (b.functions.map ScoreFunction.outline)) ++
  .fixed (Member.eventsOf (members c.settings))

end Compound

namespace Form

def bodyOutline : Form α → Outline
  | leaf test options => .fixed (Member.eventsOf (test.members options))
  | nested path query options =>
    .fixed (Member.events (.string "path" path.name)) ++ Outline.optionalPlace "query" (some query) ++
      .fixed (Member.eventsOf (Parameters.members options))
  | compound c options => c.outline ++ .fixed (Member.eventsOf (Parameters.members options))
  | node n => n.body.outline ++ .fixed (Member.eventsOf (Parameters.members n.options))

/-- What a form writes, with a place for each sub-query. -/
def outline (f : Form α) : Outline :=
  some (.openObject f.name) :: (f.bodyOutline ++ Outline.fixed [.closeObject])

end Form

/-! ## 4. The places are those of the sub-queries -/

theorem ScoreFunction.filled_outline (s : ScoreFunction (List Member)) :
    Filled s.outline (s.filter.toList.map Member.eventsOf) (Member.eventsOf s.members) := by
  have hmembers : s.members = optionalMember s.filter (.object "filter") ++
      members { weight := s.weight, kind := s.kind } := by
    rw [members, List.append_assoc]
    rfl
  rw [hmembers, Member.eventsOf_append]
  exact (Filled.optionalPlace "filter" s.filter).append_fixed _

namespace Compound

theorem filled_clauses (b : BoolBody (List Member)) :
    Filled ((WireName.all : List Occur).flatMap fun occur =>
        Outline.places (WireName.wire occur) (b.clauses occur))
      (b.children.map Member.eventsOf)
      (Member.eventsOf ((WireName.all : List Occur).flatMap fun occur =>
        nonemptyArray (WireName.wire occur) (b.clauses occur))) := by
  have hclauses := Filled.flatMap (l := (WireName.all : List Occur)) fun occur _ =>
    Filled.places (WireName.wire occur) (b.clauses occur)
  -- The places of clauses are written in the order in which the clauses are listed.
  have hchildren : b.children = (WireName.all : List Occur).flatMap b.clauses := by
    simp only [BoolBody.children, List.append_assoc]
    show _ = b.filter ++ (b.should ++ (b.must ++ (b.mustNot ++ [])))
    rw [List.append_nil]
  rw [hchildren, List.map_flatMap, Member.eventsOf_eq, List.flatMap_assoc]
  simp only [← Member.eventsOf_eq]
  exact hclauses

theorem filled_functions (l : List (ScoreFunction (List Member))) :
    Filled (Outline.nonemptyArray "functions" (l.map ScoreFunction.outline))
      ((l.filterMap ScoreFunction.filter).map Member.eventsOf)
      (Member.eventsOf (nonemptyArray "functions" (l.map ScoreFunction.members))) := by
  have hfilters : (l.filterMap ScoreFunction.filter).map Member.eventsOf
      = l.flatMap fun s => s.filter.toList.map Member.eventsOf := by
    rw [List.filterMap_eq_flatMap_toList, List.map_flatMap]
  rw [hfilters]
  exact Filled.nonemptyArray "functions" l fun s _ => s.filled_outline

/-- The places of a body are those of its sub-queries, in the order of `children`. -/
theorem filled_outline (c : Compound (List Member)) :
    Filled c.outline (c.children.map Member.eventsOf) (Member.eventsOf c.members) := by
  -- Each kind writes its settings last, so that only the parts before them are to be looked at.
  cases c with
  | bool b =>
      rw [members, Member.eventsOf_append]
      exact (filled_clauses b).append_fixed _
  | disMax b =>
      rw [members, Member.eventsOf_append]
      exact (Filled.places "queries" b.queries).append_fixed _
  | functionScore b =>
      have hmembers : members (.functionScore b)
          = (optionalMember b.query (.object "query") ++
            nonemptyArray "functions" (b.functions.map ScoreFunction.members)) ++
            members (settings (.functionScore b)) := by
        simp only [members, List.append_assoc]
        rfl
      rw [hmembers, Member.eventsOf_append, Member.eventsOf_append]
      have hparts := (Filled.optionalPlace "query" b.query).append (filled_functions b.functions)
      rw [← List.map_append] at hparts
      exact hparts.append_fixed _

end Compound

namespace Form

theorem filled_bodyOutline (f : Form (List Member)) :
    Filled f.bodyOutline (f.children.map Member.eventsOf) (Member.eventsOf f.body) := by
  cases f with
  | leaf test options => exact .fixed _
  | nested path query options =>
      -- The path stands before the sub-query, and the options after it.
      have hquery := (Filled.fixed (Member.events (.string "path" path.name))).append
        (Filled.optionalPlace "query" (some query))
      rw [body, Member.eventsOf, Member.eventsOf, ← List.append_assoc]
      rw [optionalMember, Member.eventsOf_singleton] at hquery
      exact hquery.append_fixed _
  | compound c options =>
      rw [body, Member.eventsOf_append]
      exact c.filled_outline.append_fixed _
  | node n =>
      rw [body, Member.eventsOf_append]
      exact n.body.filled_outline.append_fixed _

theorem filled_outline (f : Form (List Member)) :
    Filled f.outline (f.children.map Member.eventsOf) (Member.eventsOf f.members) := by
  rw [members, Member.eventsOf_singleton, Member.events]
  exact .step _ (f.filled_bodyOutline.append_fixed [.closeObject])

end Form

/-! ## 5. The outline is a matter of the shape -/

theorem Outline.optionalPlace_map (key : String) (g : α → β) (o : Option α) :
    optionalPlace key (o.map g) = optionalPlace key o := by
  rw [optionalPlace, optionalPlace, Option.isSome_map]

theorem Outline.places_map (key : String) (g : α → β) (l : List α) :
    places key (l.map g) = places key l := by
  rw [places, places, List.map_map]
  rfl

theorem ScoreFunction.outline_map (g : α → β) (s : ScoreFunction α) :
    (s.map g).outline = s.outline := by
  rw [outline, map, Outline.optionalPlace_map, outline]

namespace Compound

theorem settings_map (g : α → β) (c : Compound α) :
    (settings (c.map g) : Compound γ) = settings c := by
  cases c with
  | bool b => rfl
  | disMax b => rfl
  | functionScore b => rfl

theorem outline_map (g : α → β) (c : Compound α) : (c.map g).outline = c.outline := by
  have hsettings := settings_map g c (γ := List Member)
  cases c with
  | bool b =>
      have hclauses (occur : Occur) : (b.map g).clauses occur = (b.clauses occur).map g := by
        cases occur <;> rfl
      simp only [outline, hsettings]
      simp only [map, hclauses, Outline.places_map]
  | disMax b =>
      simp only [outline, hsettings]
      simp only [map, Outline.places_map]
  | functionScore b =>
      have hfunctions : (ScoreFunction.outline ∘ ScoreFunction.map g : ScoreFunction α → Outline)
          = ScoreFunction.outline := funext (ScoreFunction.outline_map g)
      simp only [outline, hsettings]
      simp only [map, FunctionScoreBody.map, Outline.optionalPlace_map, List.map_map, hfunctions]

end Compound

namespace Form

theorem bodyOutline_map (g : α → β) (f : Form α) : (f.map g).bodyOutline = f.bodyOutline := by
  cases f with
  | leaf test options => rfl
  | nested path query options => rfl
  | compound c options => rw [map, bodyOutline, Compound.outline_map, bodyOutline]
  | node n =>
      rw [map, bodyOutline, BoundNode.body_map, Compound.outline_map, BoundNode.options_map,
        bodyOutline]

theorem outline_map (g : α → β) (f : Form α) : (f.map g).outline = f.outline := by
  rw [outline, name_map, bodyOutline_map, outline]

/-- The stretches of steps that a form writes around its sub-queries. -/
def segments (f : Form α) : Segments := f.outline.segments

end Form

/-! ## 6. Queries -/

namespace Query

theorem filled_outline (q : Query) :
    Filled q.shape.outline (q.children.map fun c => Member.eventsOf c.members)
      (Member.eventsOf q.members) := by
  obtain ⟨form⟩ := q
  have hform := (form.map members).filled_outline
  rw [Form.outline_map, Form.children_map, List.map_map, ← members_of] at hform
  rw [shape, Form.shape, Form.outline_map]
  exact hform

/-- A query is written in the stretches of its shape, around what its sub-queries write. -/
theorem written_around_children (q : Query) :
    writeAll ([] : List Event) q.members
      = q.shape.segments.around (q.children.map fun c => writeAll [] c.members) := by
  simp only [writeAll_nil_events]
  exact q.filled_outline.eq_around

/-- **Writing visits the direct sub-queries.** The shape of a query with `n` of them determines
`n + 1` stretches of steps, and whichever `n` queries are put in their places, writing is the first
stretch, the steps of the first query, the second stretch, and so on up to the last stretch. -/
theorem writing_visits_children (q : Query) :
    q.shape.segments.rest.length = q.children.length ∧
    ∀ cs : List Query, cs.length = q.children.length →
      writeAll ([] : List Event) (q.withChildren cs).members
        = q.shape.segments.around (cs.map fun c => writeAll [] c.members) := by
  constructor
  · rw [Form.segments, q.filled_outline.length_rest, List.length_map]
  · intro cs hcs
    -- The query with other sub-queries is of the same shape, so its stretches are the same.
    have hwritten := (q.withChildren cs).written_around_children
    rwa [shape_withChildren hcs, children_withChildren hcs] at hwritten

/-- A node without an inner query, and with a function without a filter among those with one. -/
def mixedFunctions : Query :=
  .node (⟨0, none, "0x10"⟩ : Handle .functionScore)
    { body := { functions := [
        { filter := some (.leaf .matchAll), kind := .weight },
        .ofWeight ⟨0x4000000000000000⟩,
        { filter := some (.leaf .matchAll), kind := .weight }] } }

def otherFilters : List Query := [.leaf .matchAll, .leaf (.existsField ⟨"tag"⟩)]

/-- Both filters of the node are replaced, and each is written where it stands. -/
theorem writing_visits_filters :
    otherFilters.length = mixedFunctions.children.length ∧
    writeAll ([] : List Event) (mixedFunctions.withChildren otherFilters).members
      = Segments.around
        ⟨[.openObject "function_score", .openArray "functions",
            .openObjectItem, .openObject "filter"],
          [[.closeObject, .closeObject,
              .openObjectItem, .field "weight" (.float ⟨0x4000000000000000⟩), .closeObject,
              .openObjectItem, .openObject "filter"],
            [.closeObject, .closeObject, .closeArray, .closeObject]]⟩
        [writeAll [] (Query.leaf .matchAll).members,
          writeAll [] (Query.leaf (.existsField ⟨"tag"⟩)).members] := by
  refine ⟨rfl, ?_⟩
  rw [(writing_visits_children mixedFunctions).2 otherFilters rfl]
  rfl

end Query

end SearchQuery
