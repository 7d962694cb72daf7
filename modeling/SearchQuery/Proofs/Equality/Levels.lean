import SearchQuery.Proofs.Equality.Values
import SearchQuery.Proofs.Stored
import SearchQuery.Query.Equality

/-!
# Levels that are alike

Equality of queries is a test of one level after the other: the topmost levels have to agree and
the sub-queries to be equal in turn. `Compound.Alike` and `Form.Alike` say the same about one level
as a relation, over whatever relation there is between the things in the places of the sub-queries.
So they hold of levels over queries, and are kept when the queries are replaced by what a traversal
makes of them (`map`), dropped (`prune`) and written (`members`, `body`).
-/

namespace SearchQuery

open OrderedMap

variable {α β γ δ : Type}

/-! ## 1. Lists and options element by element -/

/-- Lists are compared piece by piece where the pieces are equally long. -/
theorem forall₂_append_iff {R : α → β → Prop} {l l' : List α} {m m' : List β}
    (h : l.length = m.length) :
    List.Forall₂ R (l ++ l') (m ++ m') ↔ List.Forall₂ R l m ∧ List.Forall₂ R l' m' := by
  refine ⟨fun hall => ?_, fun hall => List.rel_append hall.1 hall.2⟩
  have htake := List.forall₂_take l.length hall
  have hdrop := List.forall₂_drop l.length hall
  rw [List.take_left, h, List.take_left] at htake
  rw [List.drop_left, h, List.drop_left] at hdrop
  exact ⟨htake, hdrop⟩

theorem map_eq_of_forall₂ {f : α → γ} {g : β → γ} {l : List α} {l' : List β}
    (h : List.Forall₂ (fun a b => f a = g b) l l') : l.map f = l'.map g := by
  induction h with
  | nil => rfl
  | cons hab _ ih => rw [List.map_cons, List.map_cons, hab, ih]

theorem optionRel_toList {R : α → β → Prop} {o : Option α} {o' : Option β}
    (h : o.isSome = o'.isSome) :
    List.Forall₂ R o.toList o'.toList ↔ Option.Rel R o o' := by
  rcases o with _ | a
  · rcases o' with _ | b
    · exact iff_of_true .nil .none
    · cases h
  · rcases o' with _ | b
    · cases h
    · rw [Option.toList_some, Option.toList_some, List.forall₂_cons]
      refine ⟨fun hab => .some hab.1, fun hab => ⟨?_, .nil⟩⟩
      cases hab with
      | some hR => exact hR

theorem length_toList_eq {o : Option α} {o' : Option β} (h : o.isSome = o'.isSome) :
    o.toList.length = o'.toList.length := by
  rw [Option.length_toList, Option.length_toList, h]

theorem optionRel_head? {R : α → β → Prop} {l : List α} {l' : List β} (h : List.Forall₂ R l l') :
    Option.Rel R l.head? l'.head? := by
  cases h with
  | nil => exact .none
  | cons hab _ => exact .some hab

theorem exists_of_forall₂ {R : α → β → Prop} {l : List α} {l' : List β} (h : List.Forall₂ R l l')
    {a : α} (ha : a ∈ l) : ∃ b ∈ l', R a b := by
  induction h with
  | nil => exact absurd ha List.not_mem_nil
  | cons hab _ ih =>
      rcases List.mem_cons.mp ha with rfl | ha
      · exact ⟨_, List.mem_cons_self, hab⟩
      · obtain ⟨b, hb, hR⟩ := ih ha
        exact ⟨b, List.mem_cons_of_mem _ hb, hR⟩

theorem option_beq_iff [BEq α] {o o' : Option α} :
    (o == o') = true ↔ Option.Rel (fun a b => (a == b) = true) o o' := by
  rcases o with _ | a
  · rcases o' with _ | b
    · exact iff_of_true rfl .none
    · refine iff_of_false Bool.false_ne_true fun h => ?_
      cases h
  · rcases o' with _ | b
    · refine iff_of_false Bool.false_ne_true fun h => ?_
      cases h
    · refine ⟨fun h => .some h, fun h => ?_⟩
      cases h with
      | some hab => exact hab

theorem optionRel_same_iff {v w : Option Value} :
    Option.Rel Value.Same v w ↔ (∀ x ∈ v, x.WellFormed) ∧ (v == w) = true := by
  rw [option_beq_iff]
  constructor
  · intro h
    refine ⟨fun x hx => ?_, optionRel_imp (fun _ _ hsame => hsame.beq) h⟩
    rw [Option.mem_def.mp hx] at h
    obtain ⟨y, -, hsame⟩ := exists_of_optionRel h
    exact hsame.wellFormed
  · rintro ⟨hv, h⟩
    cases h with
    | none => exact .none
    | some hbeq => exact .some ⟨hv _ rfl, hbeq⟩

/-! ## 2. What a level stores -/

/-- The containers of a function have no key twice. -/
def FunctionKind.WellFormed : FunctionKind → Prop
  | weight => True
  | fieldValueFactor factor => factor.options.WellFormed
  | scriptScore script => script.params.WellFormed

/-- What a body stores beside its sub-queries has no key twice. -/
def Compound.WellFormed : Compound α → Prop
  | bool b => ∀ v ∈ b.minimumShouldMatch, v.WellFormed
  | disMax _ => True
  | functionScore b => ∀ s ∈ b.functions, s.kind.WellFormed

/-- What a level stores beside its sub-queries has no key twice. -/
def Form.WellFormed : Form α → Prop
  | leaf test options => (∀ v ∈ test.values, v.WellFormed) ∧ options.WellFormed
  | nested _ _ options => options.WellFormed
  | compound body options => body.WellFormed ∧ options.WellFormed
  | node n => n.body.WellFormed

/-- No container at any position of the query has a key twice. Containers are maps and are filled by
insertion, so that every query that is built up is of this kind. -/
def Query.WellFormed (q : Query) : Prop :=
  ∀ (p : Position) (x : Query), q.at? p = some x → x.form.WellFormed

/-! ## 3. Tests and functions that may stand for each other -/

/-- A test that may be written in place of another. -/
structure LeafTest.Same (t t' : LeafTest) : Prop where
  wellFormed : ∀ v ∈ t.values, v.WellFormed
  beq : (t == t') = true

/-- A function that may be written in place of another. -/
structure FunctionKind.Same (k k' : FunctionKind) : Prop where
  wellFormed : k.WellFormed
  beq : (k == k') = true

namespace LeafTest

/-- The tests of one field against one value write the value alone when there are no options. -/
theorem fieldValue_alike {f f' : Field} {v v' : Value} {p p' : Parameters} (key : String)
    (hv : ∀ x ∈ [v], x.WellFormed) (h : (f == f' && v == v') = true) (hp : p.Same p') :
    WriteAlike (fieldValue f key v p) (fieldValue f' key v' p') := by
  rw [List.forall_mem_singleton] at hv
  rw [Bool.and_eq_true, beq_iff_eq] at h
  have hvalue : v.Same v' := ⟨hv, h.2⟩
  -- Equal options are none at all on one side when they are on the other: the same form is chosen.
  have hempty : p.isEmpty = p'.isEmpty := (Parameters.same_iff.mp hp).isEmpty_eq
  rw [fieldValue, fieldValue, h.1, hempty]
  split
  · exact WriteAlike.value f'.name hvalue
  · exact WriteAlike.object f'.name ((WriteAlike.value key hvalue).append (WriteAlike.options hp))

/-- Tests of different kinds are never equal. -/
theorem Same.kind_eq {t t' : LeafTest} (h : t.Same t') : t.kind = t'.kind := by
  have hbeq := h.beq
  cases t <;> cases t' <;> first | rfl | cases hbeq

theorem Same.members {t t' : LeafTest} {p p' : Parameters} (h : t.Same t') (hp : p.Same p') :
    WriteAlike (t.members p) (t'.members p') := by
  obtain ⟨hv, hbeq⟩ := h
  have hoptions := WriteAlike.options hp
  cases t with
  | matchAll =>
      cases t' with
      | matchAll => exact hoptions
      | _ => cases hbeq
  | term f v =>
      cases t' with
      | term f' v' => exact fieldValue_alike "value" hv hbeq hp
      | _ => cases hbeq
  | terms f vs =>
      cases t' with
      | terms f' vs' =>
          have hparts : (f == f' && vs == vs') = true := hbeq
          rw [Bool.and_eq_true, beq_iff_eq] at hparts
          rw [LeafTest.members, LeafTest.members, ← hparts.1]
          exact (WriteAlike.items f.name hv hparts.2).append hoptions
      | _ => cases hbeq
  | range f =>
      cases t' with
      | range f' =>
          have hfield : (f == f') = true := hbeq
          rw [beq_iff_eq] at hfield
          rw [LeafTest.members, LeafTest.members, hfield]
          exact WriteAlike.object f'.name hoptions
      | _ => cases hbeq
  | matchText f v =>
      cases t' with
      | matchText f' v' => exact fieldValue_alike "query" hv hbeq hp
      | _ => cases hbeq
  | matchPhrase f v =>
      cases t' with
      | matchPhrase f' v' => exact fieldValue_alike "query" hv hbeq hp
      | _ => cases hbeq
  | existsField f =>
      cases t' with
      | existsField f' =>
          have hfield : (f == f') = true := hbeq
          rw [beq_iff_eq] at hfield
          rw [LeafTest.members, LeafTest.members, hfield]
          exact (WriteAlike.refl [.string "field" f'.name]).append hoptions
      | _ => cases hbeq
  | multiMatch v fs =>
      cases t' with
      | multiMatch v' fs' =>
          have hparts : (v == v' && fs == fs') = true := hbeq
          rw [Bool.and_eq_true, beq_iff_eq (a := fs)] at hparts
          rw [values, List.forall_mem_singleton] at hv
          rw [LeafTest.members, LeafTest.members, hparts.2]
          exact (WriteAlike.value "query" ⟨hv, hparts.1⟩).append
            ((WriteAlike.refl [.array "fields" _]).append hoptions)
      | _ => cases hbeq
  | ids ids =>
      cases t' with
      | ids ids' =>
          have hids : (ids == ids') = true := hbeq
          rw [beq_iff_eq] at hids
          rw [LeafTest.members, LeafTest.members, hids]
          exact (WriteAlike.refl [.array "values" _]).append hoptions
      | _ => cases hbeq

end LeafTest

theorem Script.members_alike {s t : Script} (hs : s.params.WellFormed) (h : (s == t) = true) :
    WriteAlike s.members t.members := by
  have hparts : (s.body == t.body && (s.lang == t.lang && s.params == t.params)) = true := h
  rw [Bool.and_eq_true, Bool.and_eq_true, beq_iff_eq, beq_iff_eq] at hparts
  have hparams : s.params.Same t.params := ⟨hs, hparts.2.2⟩
  have hempty : s.params.isEmpty = t.params.isEmpty := (Parameters.same_iff.mp hparams).isEmpty_eq
  rw [Script.members, Script.members, hparts.1, hparts.2.1, hempty]
  refine (WriteAlike.refl _).append ?_
  split
  · exact WriteAlike.nil
  · exact WriteAlike.object "params" (WriteAlike.options hparams)

theorem FieldValueFactor.members_alike {f g : FieldValueFactor} (hf : f.options.WellFormed)
    (h : (f == g) = true) : WriteAlike f.members g.members := by
  have hparts : (f.field == g.field && f.options == g.options) = true := h
  rw [Bool.and_eq_true, beq_iff_eq] at hparts
  rw [FieldValueFactor.members, FieldValueFactor.members, hparts.1]
  exact (WriteAlike.refl [.string "field" g.field.name]).append (WriteAlike.options ⟨hf, hparts.2⟩)

/-! ## 4. Score functions -/

namespace ScoreFunction

/-- The filters are related, and the rest is the same. -/
structure Alike (R : α → β → Prop) (s : ScoreFunction α) (t : ScoreFunction β) : Prop where
  filter : Option.Rel R s.filter t.filter
  weight : (s.weight == t.weight) = true
  kind : s.kind.Same t.kind

variable {R : α → β → Prop}

theorem filters_cons (s : ScoreFunction α) (l : List (ScoreFunction α)) :
    (s :: l).filterMap filter = s.filter.toList ++ l.filterMap filter := by
  rw [List.filterMap_eq_flatMap_toList, List.filterMap_eq_flatMap_toList, List.flatMap_cons]

/-- Agreeing asks of a filter only whether it is there. -/
theorem agreeAll_map (f : α → γ) (g : β → δ) (l : List (ScoreFunction α))
    (l' : List (ScoreFunction β)) : agreeAll (l.map (map f)) (l'.map (map g)) = agreeAll l l' := by
  induction l generalizing l' with
  | nil =>
      cases l' with
      | nil => rfl
      | cons t l' => rfl
  | cons s l ih =>
      cases l' with
      | nil => rfl
      | cons t l' => simp only [List.map_cons, agreeAll, agrees, map, Option.isSome_map, ih]

theorem length_filters_eq_of_agreeAll {l : List (ScoreFunction α)} {l' : List (ScoreFunction β)}
    (h : agreeAll l l' = true) :
    (l.filterMap filter).length = (l'.filterMap filter).length := by
  induction l generalizing l' with
  | nil =>
      cases l' with
      | nil => rfl
      | cons t l' => cases h
  | cons s l ih =>
      cases l' with
      | nil => cases h
      | cons t l' =>
          simp only [agreeAll, agrees, Bool.and_eq_true, beq_iff_eq (α := Bool)] at h
          rw [filters_cons, filters_cons, List.length_append, List.length_append, ih h.2,
            length_toList_eq h.1.1.1]

theorem alike_of_agreeAll {l : List (ScoreFunction α)} {l' : List (ScoreFunction β)}
    (h : agreeAll l l' = true) (hl : ∀ s ∈ l, s.kind.WellFormed)
    (hfilters : List.Forall₂ R (l.filterMap filter) (l'.filterMap filter)) :
    List.Forall₂ (Alike R) l l' := by
  induction l generalizing l' with
  | nil =>
      cases l' with
      | nil => exact .nil
      | cons t l' => cases h
  | cons s l ih =>
      cases l' with
      | nil => cases h
      | cons t l' =>
          rw [agreeAll, Bool.and_eq_true, agrees, Bool.and_eq_true, Bool.and_eq_true,
            beq_iff_eq] at h
          obtain ⟨⟨⟨hfilter, hweight⟩, hkind⟩, hrest⟩ := h
          rw [List.forall_mem_cons] at hl
          -- The first filters belong to the first functions, if these have one.
          rw [filters_cons, filters_cons, forall₂_append_iff (length_toList_eq hfilter),
            optionRel_toList hfilter] at hfilters
          exact .cons ⟨hfilters.1, hweight, hl.1, hkind⟩ (ih hrest hl.2 hfilters.2)

theorem agreeAll_of_alike {l : List (ScoreFunction α)} {l' : List (ScoreFunction β)}
    (h : List.Forall₂ (Alike R) l l') : agreeAll l l' = true := by
  induction h with
  | nil => rfl
  | cons hst _ ih =>
      rw [agreeAll, Bool.and_eq_true, agrees, Bool.and_eq_true, Bool.and_eq_true, beq_iff_eq]
      exact ⟨⟨⟨isSome_eq_of_optionRel hst.filter, hst.weight⟩, hst.kind.beq⟩, ih⟩

theorem filters_of_alike {l : List (ScoreFunction α)} {l' : List (ScoreFunction β)}
    (h : List.Forall₂ (Alike R) l l') :
    List.Forall₂ R (l.filterMap filter) (l'.filterMap filter) :=
  List.rel_filterMap (fun _ _ hst => hst.filter) h

theorem Alike.map {S : γ → δ → Prop} {f : α → γ} {g : β → δ} {s : ScoreFunction α}
    {t : ScoreFunction β} (h : Alike (fun a b => S (f a) (g b)) s t) :
    Alike S (s.map f) (t.map g) :=
  ⟨optionRel_map h.filter, h.weight, h.kind⟩

theorem Alike.prune {s : ScoreFunction (Option α)} {t : ScoreFunction (Option β)}
    (h : Alike (Option.Rel R) s t) : Alike R s.prune t.prune :=
  ⟨optionRel_join h.filter, h.weight, h.kind⟩

theorem Alike.members {s t : ScoreFunction (List Member)} (h : Alike WriteAlike s t) :
    WriteAlike s.members t.members := by
  obtain ⟨hfilter, hweight, hwell, hkind⟩ := h
  rw [ScoreFunction.members, ScoreFunction.members]
  refine WriteAlike.append (WriteAlike.append ?_ ?_) ?_
  · exact WriteAlike.optionalObject "filter" hfilter
  · -- Functions of different kinds are never equal.
    cases hs : s.kind with
    | weight =>
        cases ht : t.kind with
        | weight => exact WriteAlike.nil
        | _ => rw [hs, ht] at hkind; cases hkind
    | fieldValueFactor f =>
        cases ht : t.kind with
        | fieldValueFactor g =>
            rw [hs] at hwell
            rw [hs, ht] at hkind
            exact WriteAlike.object "field_value_factor" (f.members_alike hwell hkind)
        | _ => rw [hs, ht] at hkind; cases hkind
    | scriptScore s =>
        cases ht : t.kind with
        | scriptScore t =>
            rw [hs] at hwell
            rw [hs, ht] at hkind
            exact WriteAlike.object "script_score"
              (WriteAlike.object "script" (s.members_alike hwell hkind))
        | _ => rw [hs, ht] at hkind; cases hkind
  · exact WriteAlike.optionalFloat "weight" (option_beq_iff.mp hweight)

end ScoreFunction

/-! ## 5. Bodies -/

namespace Compound

/-- The bodies are of one kind with related sub-queries in every place, and what they store beside
them is the same. -/
inductive Alike (R : α → β → Prop) : Compound α → Compound β → Prop
  | bool {b : BoolBody α} {c : BoolBody β} (filter : List.Forall₂ R b.filter c.filter)
    (should : List.Forall₂ R b.should c.should) (must : List.Forall₂ R b.must c.must)
    (mustNot : List.Forall₂ R b.mustNot c.mustNot)
    (minimum : Option.Rel Value.Same b.minimumShouldMatch c.minimumShouldMatch) :
    Alike R (.bool b) (.bool c)
  | disMax {b : DisMaxBody α} {c : DisMaxBody β} (queries : List.Forall₂ R b.queries c.queries)
    (tieBreaker : (b.tieBreaker == c.tieBreaker) = true) : Alike R (.disMax b) (.disMax c)
  | functionScore {b : FunctionScoreBody α} {c : FunctionScoreBody β}
    (query : Option.Rel R b.query c.query)
    (functions : List.Forall₂ (ScoreFunction.Alike R) b.functions c.functions)
    (scoreMode : b.scoreMode = c.scoreMode) (boostMode : b.boostMode = c.boostMode)
    (minScore : (b.minScore == c.minScore) = true) : Alike R (.functionScore b) (.functionScore c)

variable {R : α → β → Prop}

/-- Agreeing asks of a body only how many sub-queries stand in each place. -/
theorem agrees_map (f : α → γ) (g : β → δ) (c : Compound α) (d : Compound β) :
    (c.map f).agrees (d.map g) = c.agrees d := by
  cases c with
  | bool b =>
      cases d with
      | bool c => simp only [map, agrees, BoolBody.map, List.length_map]
      | _ => rfl
  | disMax b =>
      cases d with
      | disMax c => simp only [map, agrees, List.length_map]
      | _ => rfl
  | functionScore b =>
      cases d with
      | functionScore c =>
          simp only [map, agrees, FunctionScoreBody.map, Option.isSome_map,
            ScoreFunction.agreeAll_map]
      | _ => rfl

theorem length_children_eq_of_agrees {c : Compound α} {d : Compound β} (h : c.agrees d = true) :
    c.children.length = d.children.length := by
  cases c with
  | bool b =>
      cases d with
      | bool c =>
          simp only [agrees, Bool.and_eq_true, beq_iff_eq (α := Nat)] at h
          obtain ⟨⟨⟨⟨hfilter, hshould⟩, hmust⟩, hmustNot⟩, -⟩ := h
          simp only [children, BoolBody.children, List.length_append, hfilter, hshould, hmust,
            hmustNot]
      | _ => cases h
  | disMax b =>
      cases d with
      | disMax c =>
          rw [agrees, Bool.and_eq_true, beq_iff_eq] at h
          exact h.1
      | _ => cases h
  | functionScore b =>
      cases d with
      | functionScore c =>
          simp only [agrees, Bool.and_eq_true, beq_iff_eq (α := Bool)] at h
          obtain ⟨⟨⟨⟨hquery, hfunctions⟩, -⟩, -⟩, -⟩ := h
          simp only [children, FunctionScoreBody.children, List.length_append,
            length_toList_eq hquery, ScoreFunction.length_filters_eq_of_agreeAll hfunctions]
      | _ => cases h

theorem alike_of_agrees {c : Compound α} {d : Compound β} (h : c.agrees d = true)
    (hc : c.WellFormed) (hchildren : List.Forall₂ R c.children d.children) : Alike R c d := by
  cases c with
  | bool b =>
      cases d with
      | bool c =>
          simp only [agrees, Bool.and_eq_true, beq_iff_eq (α := Nat)] at h
          obtain ⟨⟨⟨⟨hfilter, hshould⟩, hmust⟩, -⟩, hminimum⟩ := h
          simp only [children, BoolBody.children, List.append_assoc] at hchildren
          -- The clauses of the four places stand in one list, one place after the other.
          rw [forall₂_append_iff hfilter, forall₂_append_iff hshould,
            forall₂_append_iff hmust] at hchildren
          obtain ⟨hf, hs, hm, hn⟩ := hchildren
          exact .bool hf hs hm hn (optionRel_same_iff.mpr ⟨hc, hminimum⟩)
      | _ => cases h
  | disMax b =>
      cases d with
      | disMax c =>
          rw [agrees, Bool.and_eq_true] at h
          exact .disMax hchildren h.2
      | _ => cases h
  | functionScore b =>
      cases d with
      | functionScore c =>
          simp only [agrees, Bool.and_eq_true, beq_iff_eq (α := Bool),
            beq_iff_eq (α := Option ScoreMode), beq_iff_eq (α := Option BoostMode)] at h
          obtain ⟨⟨⟨⟨hquery, hfunctions⟩, hscore⟩, hboost⟩, hmin⟩ := h
          simp only [children, FunctionScoreBody.children] at hchildren
          rw [forall₂_append_iff (length_toList_eq hquery), optionRel_toList hquery] at hchildren
          exact .functionScore hchildren.1
            (ScoreFunction.alike_of_agreeAll hfunctions hc hchildren.2) hscore hboost hmin
      | _ => cases h

namespace Alike

theorem agrees {c : Compound α} {d : Compound β} (h : Alike R c d) : c.agrees d = true := by
  cases h with
  | bool filter should must mustNot minimum =>
      simp only [Compound.agrees, Bool.and_eq_true, beq_iff_eq (α := Nat), filter.length_eq,
        should.length_eq, must.length_eq, mustNot.length_eq, true_and]
      exact (optionRel_same_iff.mp minimum).2
  | disMax queries tieBreaker =>
      rw [Compound.agrees, Bool.and_eq_true, beq_iff_eq]
      exact ⟨queries.length_eq, tieBreaker⟩
  | functionScore query functions scoreMode boostMode minScore =>
      simp only [Compound.agrees, Bool.and_eq_true, beq_iff_eq]
      exact ⟨⟨⟨⟨isSome_eq_of_optionRel query, ScoreFunction.agreeAll_of_alike functions⟩,
        scoreMode⟩, boostMode⟩, minScore⟩

theorem wellFormed {c : Compound α} {d : Compound β} (h : Alike R c d) : c.WellFormed := by
  cases h with
  | bool filter should must mustNot minimum =>
      exact (optionRel_same_iff.mp minimum).1
  | disMax queries tieBreaker => trivial
  | functionScore query functions scoreMode boostMode minScore =>
      intro s hs
      obtain ⟨t, -, hst⟩ := exists_of_forall₂ functions hs
      exact hst.kind.wellFormed

theorem children {c : Compound α} {d : Compound β} (h : Alike R c d) :
    List.Forall₂ R c.children d.children := by
  cases h with
  | bool filter should must mustNot minimum =>
      exact List.rel_append (List.rel_append (List.rel_append filter should) must) mustNot
  | disMax queries tieBreaker => exact queries
  | functionScore query functions scoreMode boostMode minScore =>
      exact List.rel_append ((optionRel_toList (isSome_eq_of_optionRel query)).mpr query)
        (ScoreFunction.filters_of_alike functions)

theorem map {S : γ → δ → Prop} {f : α → γ} {g : β → δ} {c : Compound α} {d : Compound β}
    (h : Alike (fun a b => S (f a) (g b)) c d) : Alike S (c.map f) (d.map g) := by
  have lists {l : List α} {l' : List β} (h : List.Forall₂ (fun a b => S (f a) (g b)) l l') :
      List.Forall₂ S (l.map f) (l'.map g) :=
    List.forall₂_map_left_iff.mpr (List.forall₂_map_right_iff.mpr h)
  cases h with
  | bool filter should must mustNot minimum =>
      exact .bool (lists filter) (lists should) (lists must) (lists mustNot) minimum
  | disMax queries tieBreaker => exact .disMax (lists queries) tieBreaker
  | functionScore query functions scoreMode boostMode minScore =>
      refine .functionScore (optionRel_map query) ?_ scoreMode boostMode minScore
      refine List.forall₂_map_left_iff.mpr (List.forall₂_map_right_iff.mpr ?_)
      exact functions.imp fun _ _ hst => hst.map

/-- Sub-queries in the same place come to nothing together. -/
theorem prune {c : Compound (Option α)} {d : Compound (Option β)} (h : Alike (Option.Rel R) c d) :
    Alike R c.prune d.prune := by
  have lists {l : List (Option α)} {l' : List (Option β)}
      (h : List.Forall₂ (Option.Rel R) l l') :
      List.Forall₂ R (l.filterMap id) (l'.filterMap id) :=
    List.rel_filterMap (fun _ _ hab => hab) h
  cases h with
  | bool filter should must mustNot minimum =>
      exact .bool (lists filter) (lists should) (lists must) (lists mustNot) minimum
  | disMax queries tieBreaker => exact .disMax (lists queries) tieBreaker
  | functionScore query functions scoreMode boostMode minScore =>
      refine .functionScore (optionRel_join query) ?_ scoreMode boostMode minScore
      refine List.forall₂_map_left_iff.mpr (List.forall₂_map_right_iff.mpr ?_)
      exact functions.imp fun _ _ hst => hst.prune

theorem kind_eq {c : Compound α} {d : Compound β} (h : Alike R c d) : c.kind = d.kind := by
  cases h with
  | bool => rfl
  | disMax => rfl
  | functionScore => rfl

/-- Whether a body stands is a matter of how many sub-queries stand where. -/
theorem stands_iff {c : Compound α} {d : Compound β} (h : Alike R c d) : c.Stands ↔ d.Stands := by
  have hlength := h.children.length_eq
  cases h with
  | bool filter should must mustNot minimum =>
      simp only [Compound.children] at hlength
      simp only [Stands, BoolBody.Stands, hlength, should.length_eq, must.length_eq]
  | disMax queries tieBreaker => simp only [Stands, queries.length_eq]
  | functionScore query functions scoreMode boostMode minScore =>
      have hmin := isSome_eq_of_optionRel (option_beq_iff.mp minScore)
      simp only [Stands, FunctionScoreBody.Scores, functions.length_eq, hmin]

theorem members {c d : Compound (List Member)} (h : Alike WriteAlike c d) :
    WriteAlike c.members d.members := by
  cases h with
  | @bool b c filter should must mustNot minimum =>
      refine WriteAlike.append (WriteAlike.flatMap fun occur => ?_) ?_
      · cases occur with
        | filter => exact WriteAlike.nonemptyArray _ filter
        | should => exact WriteAlike.nonemptyArray _ should
        | must => exact WriteAlike.nonemptyArray _ must
        | mustNot => exact WriteAlike.nonemptyArray _ mustNot
      · exact WriteAlike.optionalValue _ minimum
  | disMax queries tieBreaker =>
      exact (WriteAlike.nonemptyArray "queries" queries).append
        (WriteAlike.optionalFloat "tie_breaker" (option_beq_iff.mp tieBreaker))
  | functionScore query functions scoreMode boostMode minScore =>
      rw [Compound.members, Compound.members, scoreMode, boostMode]
      refine WriteAlike.append (WriteAlike.append (WriteAlike.append (WriteAlike.append ?_ ?_)
        (WriteAlike.refl _)) (WriteAlike.refl _)) ?_
      · exact WriteAlike.optionalObject "query" query
      · refine WriteAlike.nonemptyArray "functions" ?_
        rw [List.forall₂_map_left_iff, List.forall₂_map_right_iff]
        exact functions.imp fun _ _ hst => hst.members
      · exact WriteAlike.optionalFloat "min_score" (option_beq_iff.mp minScore)

end Alike

end Compound

/-! ## 6. Nodes and forms -/

/-- Handles are told apart by their identities alone. -/
theorem Handle.beq_congr {kind : NodeKind} {h k : Handle kind} (hhk : (h == k) = true)
    (x : Handle kind) : (h == x) = (k == x) := by
  rw [Handle.beq_iff] at hhk
  show (h.token == x.token) = (k.token == x.token)
  rw [hhk]

namespace BoundNode

variable {n : BoundNode α} {m : BoundNode β}

theorem agrees_map (f : α → γ) (g : β → δ) (n : BoundNode α) (m : BoundNode β) :
    (n.map f).agrees (m.map g) = n.agrees m := by
  cases n with
  | bool a b =>
      cases m with
      | bool c d => exact congrArg (_ && ·) (Compound.agrees_map f g (.bool b.body) (.bool d.body))
      | _ => rfl
  | disMax a b =>
      cases m with
      | disMax c d =>
          exact congrArg (_ && ·) (Compound.agrees_map f g (.disMax b.body) (.disMax d.body))
      | _ => rfl
  | functionScore a b =>
      cases m with
      | functionScore c d =>
          exact congrArg (_ && ·)
            (Compound.agrees_map f g (.functionScore b.body) (.functionScore d.body))
      | _ => rfl

theorem isBoundTo_eq_of_agrees (h : n.agrees m = true) {kind : NodeKind} (x : Handle kind) :
    n.isBoundTo x = m.isBoundTo x := by
  cases n with
  | bool a b =>
      cases m with
      | bool c d =>
          simp only [agrees, Bool.and_eq_true] at h
          cases kind with
          | bool => exact Handle.beq_congr h.1.1 x
          | disMax => rfl
          | functionScore => rfl
      | _ => cases h
  | disMax a b =>
      cases m with
      | disMax c d =>
          simp only [agrees, Bool.and_eq_true] at h
          cases kind with
          | bool => rfl
          | disMax => exact Handle.beq_congr h.1.1 x
          | functionScore => rfl
      | _ => cases h
  | functionScore a b =>
      cases m with
      | functionScore c d =>
          simp only [agrees, Bool.and_eq_true] at h
          cases kind with
          | bool => rfl
          | disMax => rfl
          | functionScore => exact Handle.beq_congr h.1.1.1 x
      | _ => cases h

theorem options_same_of_agrees (h : n.agrees m = true) : n.options.Same m.options := by
  have hempty : Parameters.Same OrderedMap.empty OrderedMap.empty :=
    Parameters.same_iff.mpr Agree.empty
  cases n with
  | bool a b =>
      cases m with
      | bool c d =>
          simp only [agrees, Bool.and_eq_true] at h
          exact hempty.assign "boost" (Value.same_toValue (option_beq_iff.mp h.1.2))
      | _ => cases h
  | disMax a b =>
      cases m with
      | disMax c d =>
          simp only [agrees, Bool.and_eq_true] at h
          exact hempty.assign "boost" (Value.same_toValue (option_beq_iff.mp h.1.2))
      | _ => cases h
  | functionScore a b =>
      cases m with
      | functionScore c d =>
          simp only [agrees, Bool.and_eq_true] at h
          have hmax := hempty.assign "max_boost" (Value.same_toValue (option_beq_iff.mp h.1.2))
          exact hmax.assign "boost" (Value.same_toValue (option_beq_iff.mp h.1.1.2))
      | _ => cases h

theorem body_agrees_of_agrees (h : n.agrees m = true) : n.body.agrees m.body = true := by
  cases n with
  | bool a b =>
      cases m with
      | bool c d => exact (Bool.and_eq_true _ _ ▸ h).2
      | _ => cases h
  | disMax a b =>
      cases m with
      | disMax c d => exact (Bool.and_eq_true _ _ ▸ h).2
      | _ => cases h
  | functionScore a b =>
      cases m with
      | functionScore c d => exact (Bool.and_eq_true _ _ ▸ h).2
      | _ => cases h

end BoundNode

namespace Form

/-- The levels are of one kind with related sub-queries in every place, and what they store beside
them is the same. -/
inductive Alike (R : α → β → Prop) : Form α → Form β → Prop
  | leaf {t t' : LeafTest} {p p' : Parameters} (test : t.Same t') (options : p.Same p') :
    Alike R (.leaf t p) (.leaf t' p')
  | nested (path : Field) {a : α} {b : β} {p p' : Parameters} (query : R a b)
    (options : p.Same p') : Alike R (.nested path a p) (.nested path b p')
  | compound {c : Compound α} {d : Compound β} {p p' : Parameters} (body : Compound.Alike R c d)
    (options : p.Same p') : Alike R (.compound c p) (.compound d p')
  | node {n : BoundNode α} {m : BoundNode β} (body : Compound.Alike R n.body m.body)
    (options : n.options.Same m.options) : Alike R (.node n) (.node m)

variable {R : α → β → Prop}

theorem agrees_map (f : α → γ) (g : β → δ) (x : Form α) (y : Form β) :
    (x.map f).agrees (y.map g) = x.agrees y := by
  cases x with
  | leaf test options => cases y <;> rfl
  | nested path query options => cases y <;> rfl
  | compound body options =>
      cases y with
      | compound body' options' => exact congrArg (· && _) (body.agrees_map f g body')
      | _ => rfl
  | node n =>
      cases y with
      | node m => exact n.agrees_map f g m
      | _ => rfl

theorem length_children_eq_of_agrees {f : Form α} {g : Form β} (h : f.agrees g = true) :
    f.children.length = g.children.length := by
  cases f with
  | leaf t p =>
      cases g with
      | leaf t' p' => rfl
      | _ => cases h
  | nested path a p =>
      cases g with
      | nested path' b p' => rfl
      | _ => cases h
  | compound c p =>
      cases g with
      | compound d p' =>
          rw [agrees, Bool.and_eq_true] at h
          exact Compound.length_children_eq_of_agrees h.1
      | _ => cases h
  | node n =>
      cases g with
      | node m =>
          exact Compound.length_children_eq_of_agrees (BoundNode.body_agrees_of_agrees h)
      | _ => cases h

theorem alike_of_agrees {f : Form α} {g : Form β} (h : f.agrees g = true) (hf : f.WellFormed)
    (hchildren : List.Forall₂ R f.children g.children) : Alike R f g := by
  cases f with
  | leaf t p =>
      cases g with
      | leaf t' p' =>
          rw [agrees, Bool.and_eq_true] at h
          exact .leaf ⟨hf.1, h.1⟩ ⟨hf.2, h.2⟩
      | _ => cases h
  | nested path a p =>
      cases g with
      | nested path' b p' =>
          rw [agrees, Bool.and_eq_true, beq_iff_eq] at h
          obtain ⟨rfl, hoptions⟩ := h
          exact .nested path (List.forall₂_cons.mp hchildren).1 ⟨hf, hoptions⟩
      | _ => cases h
  | compound c p =>
      cases g with
      | compound d p' =>
          rw [agrees, Bool.and_eq_true] at h
          exact .compound (Compound.alike_of_agrees h.1 hf.1 hchildren) ⟨hf.2, h.2⟩
      | _ => cases h
  | node n =>
      cases g with
      | node m =>
          exact .node (Compound.alike_of_agrees (BoundNode.body_agrees_of_agrees h) hf hchildren)
            (BoundNode.options_same_of_agrees h)
      | _ => cases h

namespace Alike

theorem children {f : Form α} {g : Form β} (h : Alike R f g) :
    List.Forall₂ R f.children g.children := by
  cases h with
  | leaf test options => exact .nil
  | nested path query options => exact .cons query .nil
  | compound body options => exact body.children
  | node body options => exact body.children

theorem name_eq {f : Form α} {g : Form β} (h : Alike R f g) : f.name = g.name := by
  have hkind : f.kind = g.kind := by
    cases h with
    | leaf test options => exact test.kind_eq
    | nested path query options => rfl
    | compound body options => exact body.kind_eq
    | node body options => exact body.kind_eq
  rw [name, name, hkind]

theorem map {S : γ → δ → Prop} {f : α → γ} {g : β → δ} {x : Form α} {y : Form β}
    (h : Alike (fun a b => S (f a) (g b)) x y) : Alike S (x.map f) (y.map g) := by
  cases h with
  | leaf test options => exact .leaf test options
  | nested path query options => exact .nested path query options
  | compound body options => exact .compound body.map options
  | node body options =>
      refine .node ?_ ?_
      · rw [BoundNode.body_map, BoundNode.body_map]
        exact body.map
      · rw [BoundNode.options_map, BoundNode.options_map]
        exact options

/-- Levels that are alike over what their sub-queries write are written alike. -/
theorem body {f g : Form (List Member)} (h : Alike WriteAlike f g) :
    WriteAlike f.body g.body := by
  cases h with
  | leaf test options => exact test.members options
  | nested path query options =>
      exact (WriteAlike.refl [.string "path" path.name]).append
        ((WriteAlike.object "query" query).append (WriteAlike.options options))
  | compound body options => exact body.members.append (WriteAlike.options options)
  | node body options => exact body.members.append (WriteAlike.options options)

end Alike

end Form

end SearchQuery
