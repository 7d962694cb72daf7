import SearchQuery.Proofs.Form

/-!
# The places of sub-queries

A sub-query of a compound query stands in a slot. Some slots can go: a clause that is the only
`should` or `must` of a bool query, the only query of a dis_max query or the inner query of a
function_score query that computes nothing can stand for the whole. The others stay, because what
they hold does not stand for the whole: a `filter` does not score, a `must_not` negates, and the
filter of a function belongs to its function.

`Compound.slotted` lists the sub-queries of a body with their slots, in the order of `children`.
-/

namespace SearchQuery

/-- Where a sub-query stands in a compound query. -/
inductive Slot where
  | clause (occur : Occur)
  /-- A query of a dis_max query. -/
  | alternative
  /-- The inner query of a function_score query. -/
  | inner
  /-- The filter of a function, counted over all functions of its query. -/
  | functionFilter (index : Nat)
  deriving DecidableEq, Repr

/-- The slots that a sub-query never leaves. -/
def Slot.lasting : Slot → Bool
  | .clause .filter | .clause .mustNot | .functionFilter _ => true
  | .clause .should | .clause .must | .alternative | .inner => false

variable {α β : Type}

/-! ## 1. Listing -/

namespace ScoreFunction

/-- The filters of functions, the first of which has the given index. -/
def slottedFrom : Nat → List (ScoreFunction α) → List (Slot × α)
  | _, [] => []
  | i, s :: rest => s.filter.toList.map (.functionFilter i, ·) ++ slottedFrom (i + 1) rest

theorem map_snd_slottedFrom (i : Nat) (l : List (ScoreFunction α)) :
    (slottedFrom i l).map Prod.snd = l.filterMap filter := by
  induction l generalizing i with
  | nil => rfl
  | cons s l ih =>
      rw [slottedFrom, List.map_append, ih, List.filterMap_cons]
      cases s.filter with
      | none => rfl
      | some a => rfl

theorem slottedFrom_map (g : α → β) (i : Nat) (l : List (ScoreFunction α)) :
    slottedFrom i (l.map (map g)) = (slottedFrom i l).map fun x => (x.1, g x.2) := by
  induction l generalizing i with
  | nil => rfl
  | cons s l ih =>
      rw [List.map_cons, slottedFrom, slottedFrom, ih, List.map_append]
      obtain ⟨filter, weight, kind⟩ := s
      cases filter with
      | none => rfl
      | some a => rfl

theorem slottedFrom_prune (i : Nat) (l : List (ScoreFunction (Option α))) :
    slottedFrom i (l.map prune)
      = (slottedFrom i l).filterMap fun x => x.2.map (x.1, ·) := by
  induction l generalizing i with
  | nil => rfl
  | cons s l ih =>
      rw [List.map_cons, slottedFrom, slottedFrom, ih, List.filterMap_append]
      obtain ⟨filter, weight, kind⟩ := s
      rcases filter with _ | _ | a
      · rfl
      · rfl
      · rfl

end ScoreFunction

namespace Compound

/-- The sub-queries with their slots, from left to right. -/
def slotted : Compound α → List (Slot × α)
  | bool b =>
    b.filter.map (.clause .filter, ·) ++ b.should.map (.clause .should, ·) ++
      b.must.map (.clause .must, ·) ++ b.mustNot.map (.clause .mustNot, ·)
  | disMax b => b.queries.map (.alternative, ·)
  | functionScore b => b.query.toList.map (.inner, ·) ++ ScoreFunction.slottedFrom 0 b.functions

theorem map_snd_slotted (c : Compound α) : c.slotted.map Prod.snd = c.children := by
  cases c with
  | bool b =>
      simp only [slotted, children, BoolBody.children, List.map_append, List.map_map,
        Function.comp_def, List.map_id']
  | disMax b => simp only [slotted, children, List.map_map, Function.comp_def, List.map_id']
  | functionScore b =>
      simp only [slotted, children, FunctionScoreBody.children, List.map_append, List.map_map,
        Function.comp_def, List.map_id', ScoreFunction.map_snd_slottedFrom]

theorem mem_children_of_mem_slotted {c : Compound α} {x : Slot × α} (h : x ∈ c.slotted) :
    x.2 ∈ c.children := by
  rw [← map_snd_slotted]
  exact List.mem_map_of_mem h

/-! ## 2. Slots under the operations of a body -/

theorem slotted_map (g : α → β) (c : Compound α) :
    (c.map g).slotted = c.slotted.map fun x => (x.1, g x.2) := by
  cases c with
  | bool b => simp only [slotted, map, BoolBody.map, List.map_append, List.map_map,
      Function.comp_def]
  | disMax b => simp only [slotted, map, List.map_map, Function.comp_def]
  | functionScore b =>
      rw [slotted, List.map_append, ← ScoreFunction.slottedFrom_map]
      obtain ⟨query, functions, scoreMode, boostMode, minScore⟩ := b
      cases query with
      | none => rfl
      | some q => rfl

/-- Pruning takes sub-queries out of their slots and moves none to another. -/
theorem slotted_prune (c : Compound (Option α)) :
    c.prune.slotted = c.slotted.filterMap fun x => x.2.map (x.1, ·) := by
  -- The lists of clauses are all pruned in one way, and so are the queries of a dis_max.
  have clauses (slot : Slot) (l : List (Option α)) :
      (l.filterMap id).map (slot, ·)
        = (l.map (slot, ·)).filterMap fun x => x.2.map (x.1, ·) := by
    rw [List.map_filterMap, List.filterMap_map]
    rfl
  cases c with
  | bool b => simp only [slotted, prune, BoolBody.prune, List.filterMap_append, clauses]
  | disMax b => simp only [slotted, prune, clauses]
  | functionScore b =>
      simp only [slotted, prune, FunctionScoreBody.prune, List.filterMap_append,
        ScoreFunction.slottedFrom_prune]
      congr 1
      -- The inner query is missing, or it came to nothing, or something is left of it.
      rcases b.query with _ | _ | q
      · rfl
      · rfl
      · rfl

/-- The sub-queries that are left of a body after each has been replaced or dropped, in the slots
they came from. -/
theorem slotted_prune_map (f : α → Option β) (c : Compound α) :
    (c.map f).prune.slotted = c.slotted.filterMap fun x => (f x.2).map (x.1, ·) := by
  rw [slotted_prune, slotted_map, List.filterMap_map]
  rfl

end Compound

end SearchQuery
