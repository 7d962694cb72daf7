import Mathlib.Data.List.Basic
import SearchQuery.Proofs.Position
import SearchQuery.Proofs.Reduction.Normal

/-!
# What reduction keeps

The content of a query is what its wrappers are wrapped around: its leaves, with nested queries
among them, and the function_score queries that compute scores. `Query.contents` lists it in
pre-order, each with the lasting slots on the way down to it. Reduction drops wrappers that have
no content and removes wrappers whose only part is in a slot that can go, and neither changes that
list (`contents_reduce`). Nothing is left exactly if the list is empty.
-/

namespace SearchQuery

variable {α β γ : Type}

/-! ## 1. Content -/

/-- What a function_score query computes: all of it but its inner query and the filters. -/
structure Scoring where
  scoreMode : Option ScoreMode
  boostMode : Option BoostMode
  minScore : Option Double
  /-- The kind and the weight of each function. -/
  functions : List (FunctionKind × Option Double)
  options : Parameters

/-- A piece of content. -/
inductive Content where
  /-- A leaf, or a nested query with everything below it. -/
  | leaf (q : Query)
  | scoring (s : Scoring)

def FunctionScoreBody.scoring (b : FunctionScoreBody α) (options : Parameters) : Scoring where
  scoreMode := b.scoreMode
  boostMode := b.boostMode
  minScore := b.minScore
  functions := b.functions.map fun s => (s.kind, s.weight)
  options := options

/-- A piece of content seen from above a slot: a lasting slot lies on the way to it from then on. -/
def Slot.above (slot : Slot) (x : List Slot × γ) : List Slot × γ :=
  (if slot.lasting then slot :: x.1 else x.1, x.2)

namespace Compound

/-- The body is one that computes scores. -/
def Scores : Compound α → Prop
  | bool _ | disMax _ => False
  | functionScore b => b.Scores

/-- The content of a body itself, without that of its sub-queries. -/
def own (options : Parameters) : Compound α → List Content
  | bool _ | disMax _ => []
  | functionScore b => if b.Scores then [.scoring (b.scoring options)] else []

theorem own_map (g : α → β) (options : Parameters) (c : Compound α) :
    (c.map g).own options = c.own options := by
  cases c with
  | bool b => rfl
  | disMax b => rfl
  | functionScore b =>
      simp only [map, own, FunctionScoreBody.map, FunctionScoreBody.Scores,
        FunctionScoreBody.scoring, List.length_map, List.map_map]
      rfl

theorem own_prune (options : Parameters) (c : Compound (Option α)) :
    c.prune.own options = c.own options := by
  cases c with
  | bool b => rfl
  | disMax b => rfl
  | functionScore b =>
      simp only [prune, own, FunctionScoreBody.prune, FunctionScoreBody.Scores,
        FunctionScoreBody.scoring, List.length_map, List.map_map]
      rfl

theorem own_eq_nil_iff {options : Parameters} {c : Compound α} :
    c.own options = [] ↔ ¬ c.Scores := by
  cases c with
  | bool b => exact ⟨fun _ h => h, fun _ => rfl⟩
  | disMax b => exact ⟨fun _ h => h, fun _ => rfl⟩
  | functionScore b =>
      show (if b.Scores then [Content.scoring (b.scoring options)] else []) = [] ↔ ¬ b.Scores
      by_cases hb : b.Scores
      · rw [if_pos hb]
        exact ⟨fun h => absurd h (List.cons_ne_nil _ _), fun h => absurd hb h⟩
      · rw [if_neg hb]
        exact ⟨fun _ => hb, fun _ => rfl⟩

theorem not_scores_of_not_stands {c : Compound α} (h : ¬ c.Stands) : ¬ c.Scores := by
  cases c with
  | bool b => exact id
  | disMax b => exact id
  | functionScore b => exact h

end Compound

namespace Query

/-- A query has content of its own: it is a leaf, a nested query, or a function_score query, open
for edits or not, that computes scores. -/
def Bears (q : Query) : Prop :=
  match q.form with
  | .leaf .. | .nested .. => True
  | .compound body _ => body.Scores
  | .node n => n.body.Scores

/-- The content of a query itself. -/
def own (q : Query) : List Content :=
  match q.form with
  | .leaf .. | .nested .. => [.leaf q]
  | .compound body options => body.own options
  | .node n => n.body.own n.options

/-- The sub-queries that reduction looks at, with their slots. -/
def parts (q : Query) : List (Slot × Query) :=
  match q.form with
  | .leaf .. | .nested .. => []
  | .compound body _ => body.slotted
  | .node n => n.body.slotted

theorem mem_children_of_mem_parts {q : Query} {x : Slot × Query} (h : x ∈ q.parts) :
    x.2 ∈ q.children := by
  obtain ⟨form⟩ := q
  cases form with
  | leaf test options => exact absurd h List.not_mem_nil
  | nested path query options => exact absurd h List.not_mem_nil
  | compound body options => exact Compound.mem_children_of_mem_slotted h
  | node n => exact Compound.mem_children_of_mem_slotted h

/-- The content of a query in pre-order, each piece with the lasting slots on the way to it. -/
def contents (q : Query) : List (List Slot × Content) :=
  q.own.map (([] : List Slot), ·) ++
    q.parts.attach.flatMap fun c => (contents c.1.2).map c.1.1.above
termination_by sizeOf q
decreasing_by exact sizeOf_lt_of_mem_children (mem_children_of_mem_parts c.2)

theorem contents_eq (q : Query) :
    q.contents = q.own.map (([] : List Slot), ·) ++
      q.parts.flatMap fun c => (contents c.2).map c.1.above := by
  rw [contents]
  conv => rhs; rw [← List.attach_map_subtype_val q.parts, List.flatMap_map]

/-- The leaves from left to right, nested queries among them, with the lasting slots on the way
down to each. -/
def leaves (q : Query) : List (List Slot × Query) :=
  q.contents.filterMap fun x =>
    match x.2 with
    | .leaf l => some (x.1, l)
    | .scoring _ => none

/-- What the function_score queries that compute scores compute, in pre-order, with the lasting
slots on the way down to each. -/
def scorings (q : Query) : List (List Slot × Scoring) :=
  q.contents.filterMap fun x =>
    match x.2 with
    | .leaf _ => none
    | .scoring s => some (x.1, s)

/-! ## 2. Reduction keeps content -/

theorem contents_compound (body : Compound Query) (options : Parameters) :
    (compound body options).contents
      = (body.own options).map (([] : List Slot), ·) ++
        body.slotted.flatMap fun c => (contents c.2).map c.1.above :=
  contents_eq (compound body options)

/-- A node has the content of the query it stands for. -/
theorem contents_node (n : BoundNode Query) :
    (of (.node n)).contents = (compound n.body n.options).contents := by
  rw [contents_eq, contents_eq]
  rfl

/-- A slot that can go leaves no trace on the way. -/
theorem above_of_not_lasting {slot : Slot} (h : slot.lasting = false)
    (l : List (List Slot × γ)) : l.map slot.above = l := by
  have hid : (slot.above : List Slot × γ → List Slot × γ) = id := by
    funext x
    simp only [Slot.above, h, Bool.false_eq_true, if_false, id_eq]
  rw [hid, List.map_id]

/-- Settling keeps the content of a body. A body that stands is all there. One that does not has no
content of its own, and the content of its only part is not below a lasting slot. -/
theorem contents_settle (body : Compound Query) (options : Parameters) :
    (settle body options).elim [] contents
      = (body.own options).map (([] : List Slot), ·) ++
        body.slotted.flatMap fun c => (contents c.2).map c.1.above := by
  rw [settle_eq]
  by_cases hs : body.Stands
  · rw [if_pos hs, Option.elim_some]
    exact contents_compound body options
  · have hown : body.own options = [] :=
      Compound.own_eq_nil_iff.mpr (Compound.not_scores_of_not_stands hs)
    rw [if_neg hs, hown, List.map_nil, List.nil_append, ← Compound.map_snd_slotted]
    obtain hnil | ⟨slot, a, hone, hslot⟩ := Compound.slotted_of_not_stands hs
    · rw [hnil]
      rfl
    · -- The only part takes the place of the whole, and its slot is not recorded.
      rw [hone, List.flatMap_singleton, above_of_not_lasting hslot]
      rfl

/-- Reduction keeps the content of a query, and leaves nothing only where there is none. -/
theorem contents_reduce (t : Query) : t.reduce.elim [] contents = t.contents := by
  refine reduce_induction (motive := fun q result => result.elim [] contents = q.contents)
    (fun test options => rfl) (fun path query options => rfl) ?_ ?_ t
  · intro body options ih
    rw [contents_settle, Compound.own_prune, Compound.own_map, Compound.slotted_prune_map,
      contents_compound, List.filterMap_eq_flatMap_toList, List.flatMap_assoc]
    congr 1
    -- Sub-query by sub-query: what is left of one has the content of all of it.
    refine List.flatMap_congr fun c hc => ?_
    rw [← ih c.2 (Compound.mem_children_of_mem_slotted hc)]
    cases reduce c.2 with
    | none => rfl
    | some r =>
        rw [Option.map_some, Option.toList_some, List.flatMap_singleton, Option.elim_some]
  · intro n result h
    rw [h, contents_node]

/-! ## 3. When nothing is left -/

/-- A normal query has content: a body that stands scores or has a part, and so on down. -/
theorem Normal.contents_ne_nil {t : Query} (h : Normal t) : t.contents ≠ [] := by
  induction h with
  | leaf test options => rw [contents_eq]; exact List.cons_ne_nil _ _
  | nested path query options => rw [contents_eq]; exact List.cons_ne_nil _ _
  | compound body options stands parts ih =>
      rw [contents_compound]
      intro hnil
      obtain ⟨hown, hparts⟩ := List.append_eq_nil_iff.mp hnil
      rw [List.map_eq_nil_iff] at hown
      rw [List.flatMap_eq_nil_iff] at hparts
      have hslots : body.slotted = [] := by
        refine List.eq_nil_iff_forall_not_mem.mpr fun c hc => ?_
        exact ih c.2 (Compound.mem_children_of_mem_slotted hc)
          (List.map_eq_nil_iff.mp (hparts c hc))
      have hchildren : body.children = [] := by
        rw [← Compound.map_snd_slotted, hslots, List.map_nil]
      -- Without any part a body only stands if it scores, and then it has content of its own.
      cases body with
      | bool b => exact stands.1 (List.length_eq_zero_iff.mpr hchildren)
      | disMax b =>
          have : b.queries.length = 0 := List.length_eq_zero_iff.mpr hchildren
          have : 2 ≤ b.queries.length := stands
          omega
      | functionScore b =>
          simp only [Compound.own, if_pos (show b.Scores from stands)] at hown
          exact List.cons_ne_nil _ _ hown

theorem reduce_eq_none_iff_contents (t : Query) : t.reduce = none ↔ t.contents = [] := by
  rw [← contents_reduce t]
  cases h : t.reduce with
  | none => exact ⟨fun _ => rfl, fun _ => rfl⟩
  | some r =>
      refine ⟨fun hr => absurd hr (Option.some_ne_none r), fun hr => ?_⟩
      exact absurd hr (normal_of_reduce h).contents_ne_nil

theorem own_eq_nil_iff (q : Query) : q.own = [] ↔ ¬ q.Bears := by
  obtain ⟨form⟩ := q
  cases form with
  | leaf test options =>
      exact ⟨fun h => absurd h (List.cons_ne_nil _ _), fun h => absurd trivial h⟩
  | nested path query options =>
      exact ⟨fun h => absurd h (List.cons_ne_nil _ _), fun h => absurd trivial h⟩
  | compound body options => exact Compound.own_eq_nil_iff
  | node n => exact Compound.own_eq_nil_iff

/-- Below a query without content of its own, reduction looks at every sub-query. -/
theorem map_snd_parts {q : Query} (h : ¬ q.Bears) : q.parts.map Prod.snd = q.children := by
  obtain ⟨form⟩ := q
  cases form with
  | leaf test options => exact absurd trivial h
  | nested path query options => exact absurd trivial h
  | compound body options => exact body.map_snd_slotted
  | node n => exact n.body.map_snd_slotted

/-- The list of content is empty exactly if there is no content at any position. The induction is
on the query; below a nested query there is nothing to show, since it has content itself. -/
theorem contents_eq_nil_iff (t : Query) :
    t.contents = [] ↔ ∀ (p : Position) (x : Query), t.at? p = some x → ¬ x.Bears := by
  induction t using Query.induction with
  | step t ih =>
      rw [contents_eq, List.append_eq_nil_iff, List.map_eq_nil_iff, own_eq_nil_iff,
        List.flatMap_eq_nil_iff]
      constructor
      · rintro ⟨hown, hparts⟩ p x hx
        cases p with
        | nil =>
            rw [at?_nil, Option.some.injEq] at hx
            rwa [← hx]
        | cons i p =>
            obtain ⟨c, hc, hcx⟩ := at?_cons_eq_some_iff.mp hx
            have hmem : c ∈ t.children := List.mem_of_getElem? hc
            -- The query has no content of its own, so it is not nested and the way down is a part.
            have hpart : c ∈ t.parts.map Prod.snd := by rwa [map_snd_parts hown]
            obtain ⟨part, hmem', rfl⟩ := List.mem_map.mp hpart
            exact (ih part.2 hmem).mp (List.map_eq_nil_iff.mp (hparts part hmem')) p x hcx
      · intro h
        refine ⟨h [] t rfl, fun part hpart => ?_⟩
        have hmem := mem_children_of_mem_parts hpart
        obtain ⟨i, hi⟩ := exists_at?_of_mem_children hmem
        rw [List.map_eq_nil_iff, ih part.2 hmem]
        exact fun p x hx => h (i :: p) x (by rw [hi, hx])

/-- **Content.** Reduction leaves nothing exactly if no query at any position has content of its
own. Otherwise the result has the same leaves from left to right, nested queries untouched, each
below the same lasting slots, and the same function_score queries that compute scores, computing the
same. -/
theorem reduce_keeps_content (t : Query) :
    (t.reduce = none ↔ ∀ (p : Position) (x : Query), t.at? p = some x → ¬ x.Bears) ∧
      ∀ r, t.reduce = some r → r.leaves = t.leaves ∧ r.scorings = t.scorings := by
  refine ⟨?_, fun r h => ?_⟩
  · rw [reduce_eq_none_iff_contents, contents_eq_nil_iff]
  · have hcontents : r.contents = t.contents := by
      rw [← contents_reduce t, h, Option.elim_some]
    exact ⟨by rw [leaves, leaves, hcontents], by rw [scorings, scorings, hcontents]⟩

end Query

end SearchQuery
