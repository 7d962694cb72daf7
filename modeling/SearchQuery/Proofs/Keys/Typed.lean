import SearchQuery.Proofs.Equality.Levels
import SearchQuery.Proofs.Keys

/-!
# The options of typed queries

A typed option has one of the keys of its owner (`OptionOwner.keys`), so a container that is filled
by typed options alone has no others. The keys that a level writes of its own accord
(`QueryKind.partKeys`) are different from those, for every kind of query.
-/

namespace SearchQuery

open OrderedMap

variable {α β : Type}

/-! ## 1. Keys of typed options -/

/-- The keys that the typed options of an owner have. -/
def OptionOwner.keys : OptionOwner → List String
  | .query .matchAll | .query .term | .query .terms | .query .existsField | .query .ids
  | .query .bool | .query .disMax => ["boost"]
  | .query .range => ["gt", "gte", "lt", "lte", "format", "boost"]
  | .query .matchText => ["operator", "analyzer", "fuzziness", "boost"]
  | .query .matchPhrase => ["slop", "analyzer", "boost"]
  | .query .multiMatch => ["type", "operator", "tie_breaker", "boost"]
  | .query .nested => ["score_mode", "ignore_unmapped", "boost"]
  | .query .functionScore => ["max_boost", "boost"]
  | .factor => ["factor", "modifier", "missing"]
  | .rescore => ["query_weight", "rescore_query_weight", "score_mode"]
  | .sort => ["order", "mode", "missing", "unmapped_type"]

theorem TypedOption.key_mem {owner : OptionOwner} (o : TypedOption owner) :
    o.entry.1 ∈ owner.keys := by
  cases o with
  | @boost kind x => cases kind <;> simp [entry, OptionOwner.keys]
  | _ => simp [entry, OptionOwner.keys]

/-- The keys that a query of a kind writes into the object that its options are written into as
well. A field that is named by the caller is not among them. -/
def QueryKind.partKeys : QueryKind → List String
  | .matchAll | .terms | .range => []
  | .term => ["value"]
  | .matchText | .matchPhrase => ["query"]
  | .existsField => ["field"]
  | .multiMatch => ["query", "fields"]
  | .ids => ["values"]
  | .nested => ["path", "query"]
  | .bool => ["filter", "should", "must", "must_not", "minimum_should_match"]
  | .disMax => ["queries", "tie_breaker"]
  | .functionScore => ["query", "functions", "score_mode", "boost_mode", "min_score"]

/-- No kind of query has an option under a key that it writes anyway. -/
theorem QueryKind.nodup_keys (kind : QueryKind) :
    (kind.partKeys ++ (OptionOwner.query kind).keys).Nodup := by
  cases kind <;> decide

namespace Parameters

/-- The container has been filled by typed options of the owner alone. Their values are arbitrary,
except that no container in them has a key twice. -/
structure TypedFor (owner : OptionOwner) (p : Parameters) : Prop where
  filled : ∃ os : List (TypedOption owner), p = ofOptions os
  wellFormed : p.WellFormed

theorem typedFor_ofOptions {owner : OptionOwner} (os : List (TypedOption owner))
    (h : ∀ o ∈ os, o.entry.2.WellFormed) : (ofOptions os).TypedFor owner := by
  have run (q : Parameters) (hq : q.WellFormed) : WellFormed (os.foldl withOption q) := by
    induction os generalizing q with
    | nil => exact hq
    | cons o os ih =>
        rw [List.forall_mem_cons] at h
        exact ih h.2 (q.withOption o) (hq.assign o.entry.1 h.1)
  exact ⟨⟨os, rfl⟩, run OrderedMap.empty WellFormed.empty⟩

theorem mem_keys_of_mem_keys_assign {p : Parameters} {key k : String} {v : Value}
    (h : k ∈ (assign p key v).keys) : k = key ∨ k ∈ p.keys := by
  by_contra hk
  rw [not_or] at hk
  have hnone : p.get? k = none := get?_eq_none_iff.mpr hk.2
  have hassign : (assign p key v).get? k = none := by rw [get?_assign, if_neg hk.1, hnone]
  exact get?_eq_none_iff.mp hassign h

/-- Whatever typed options are given, in whatever order, they come with keys of the owner. -/
theorem TypedFor.keys_subset {owner : OptionOwner} {p : Parameters} (h : p.TypedFor owner) :
    p.keys ⊆ owner.keys := by
  have run (os : List (TypedOption owner)) (q : Parameters) (hq : q.keys ⊆ owner.keys) :
      (os.foldl withOption q).keys ⊆ owner.keys := by
    induction os generalizing q with
    | nil => exact hq
    | cons o os ih =>
        refine ih (q.withOption o) fun k hk => ?_
        rcases mem_keys_of_mem_keys_assign hk with rfl | hk
        · exact o.key_mem
        · exact hq hk
  obtain ⟨os, rfl⟩ := h.filled
  exact run os OrderedMap.empty (List.nil_subset _)

end Parameters

/-! ## 2. Typed levels -/

/-- The options of a factor are typed. Script parameters are called whatever their script calls
them. -/
def FunctionKind.Typed : FunctionKind → Prop
  | weight => True
  | fieldValueFactor factor => factor.options.TypedFor .factor
  | scriptScore script => script.params.WellFormed

/-- The functions of a body are typed. -/
def Compound.Typed : Compound α → Prop
  | bool b => ∀ v ∈ b.minimumShouldMatch, v.WellFormed
  | disMax _ => True
  | functionScore b => ∀ s ∈ b.functions, s.kind.Typed

/-- The options of the level are typed, and so are its functions. What a node sets has types of its
own. -/
def Form.Typed : Form α → Prop
  | leaf test options =>
    (∀ v ∈ test.values, v.WellFormed) ∧ options.TypedFor (.query test.kind)
  | nested _ _ options => options.TypedFor (.query .nested)
  | compound body options => body.Typed ∧ options.TypedFor (.query body.kind)
  | node n => n.body.Typed

/-- The query has been built without assigning any option by its key. Fields, values and script
parameters are arbitrary. -/
def Query.Typed (q : Query) : Prop :=
  ∀ (p : Position) (x : Query), q.at? p = some x → x.form.Typed

/-- The level is a `terms` query over a field named `boost` that has the boost option, too. Both are
written under the same key. -/
def Form.BoostsBoost : Form α → Prop
  | leaf (.terms field _) options => field.name = "boost" ∧ "boost" ∈ options.keys
  | _ => False

/-! ## 3. What is written of values and containers -/

theorem Parameters.map_key_members (p : Parameters) : p.members.map Member.key = p.keys := by
  rw [Parameters.members, Value.members_eq, List.map_map, keys]
  refine List.map_congr_left fun e _ => ?_
  exact Value.key_member e.1 e.2

theorem Parameters.keysApart_of_parts {p : Parameters} (hp : p.Distinct)
    (h : ∀ e ∈ p.entries, ∀ key, (e.2.member key).KeysApart) : KeysApart p.members := by
  refine ⟨?_, fun m hm => ?_⟩
  · rw [p.map_key_members]
    exact hp
  · rw [Parameters.members, Value.members_eq] at hm
    obtain ⟨e, he, rfl⟩ := List.mem_map.mp hm
    exact h e he e.1

/-- The keys of a value are those of the containers in it. -/
theorem Value.keysApart {v : Value} (hv : v.WellFormed) :
    v.item.KeysApart ∧ ∀ key, (v.member key).KeysApart := by
  induction hv with
  | null | boolean | float | integer | string | field => exact ⟨trivial, fun _ => trivial⟩
  | array vs parts ih =>
      have hitems : ∀ i ∈ Value.items vs, i.KeysApart := by
        rw [Value.items_eq, List.forall_mem_map]
        exact fun v hv => (ih v hv).1
      exact ⟨Item.keysApart_array.mpr hitems, fun _ => Member.keysApart_array.mpr hitems⟩
  | object p distinct parts ih =>
      have hmembers : KeysApart (Parameters.members p) :=
        Parameters.keysApart_of_parts distinct fun e he => (ih e he).2
      exact ⟨Item.keysApart_object.mpr hmembers, fun _ => Member.keysApart_object.mpr hmembers⟩

theorem Value.keysApart_items {vs : List Value} (hvs : ∀ v ∈ vs, v.WellFormed) (key : String) :
    (Member.array key (Value.items vs)).KeysApart := by
  rw [Member.keysApart_array, Value.items_eq, List.forall_mem_map]
  exact fun v hv => (Value.keysApart (hvs v hv)).1

theorem Parameters.keysApart {p : Parameters} (hp : p.WellFormed) : KeysApart p.members :=
  keysApart_of_parts hp.distinct fun e he => (Value.keysApart (hp.parts e he)).2

/-- Typed options do not get in the way of what else is written into their object. -/
theorem keysApart_with_options {owner : OptionOwner} {partKeys : List String}
    {parts : List Member} {p : Parameters} (hkeys : (partKeys ++ owner.keys).Nodup)
    (hparts : (parts.map Member.key).Sublist partKeys) (typed : p.TypedFor owner) :
    KeysApart (parts ++ p.members) ↔ ∀ m ∈ parts, m.KeysApart := by
  obtain ⟨hnodup, -, hdisjoint⟩ := List.nodup_append'.mp hkeys
  rw [KeysApart.append_iff]
  refine ⟨fun h => h.1.parts, fun h => ⟨⟨hparts.nodup hnodup, h⟩, ?_, ?_⟩⟩
  · exact Parameters.keysApart typed.wellFormed
  · rw [p.map_key_members]
    exact fun key hpart hoption => hdisjoint (hparts.subset hpart) (typed.keys_subset hoption)

/-! ## 4. Leaves -/

namespace LeafTest

/-- A field tested against one value is written short, or in an object of its own with the
options. -/
theorem keysApart_fieldValue {kind : QueryKind} {field : Field} {key : String} {v : Value}
    {p : Parameters} (hkey : kind.partKeys = [key]) (hv : v.WellFormed)
    (typed : p.TypedFor (.query kind)) : KeysApart (fieldValue field key v p) := by
  rw [fieldValue]
  split
  · exact KeysApart.single_iff.mpr ((Value.keysApart hv).2 field.name)
  · have hlong : KeysApart ([v.member key] ++ p.members) := by
      refine (keysApart_with_options kind.nodup_keys ?_ typed).mpr ?_
      · rw [hkey, List.map_singleton, Value.key_member]
      · exact List.forall_mem_singleton.mpr ((Value.keysApart hv).2 key)
    exact KeysApart.single_iff.mpr (Member.keysApart_object.mpr hlong)

/-- The values of a `terms` query stand beside its options, under the name of the field. -/
theorem keysApart_terms_iff {field : Field} {vs : List Value} {p : Parameters}
    (hvs : ∀ v ∈ vs, v.WellFormed) (typed : p.TypedFor (.query .terms)) :
    KeysApart ((terms field vs).members p) ↔ ¬ (field.name = "boost" ∧ "boost" ∈ p.keys) := by
  show KeysApart ([.array field.name (Value.items vs)] ++ p.members) ↔ _
  rw [KeysApart.append_iff, KeysApart.single_iff, p.map_key_members, List.map_singleton,
    List.singleton_disjoint]
  constructor
  · rintro ⟨-, -, hnot⟩ ⟨hname, hboost⟩
    exact hnot (hname ▸ hboost)
  · intro hnot
    refine ⟨Value.keysApart_items hvs field.name, Parameters.keysApart typed.wellFormed, ?_⟩
    intro hmem
    -- The boost is the only option that it can have.
    have hname : field.name = "boost" := List.mem_singleton.mp (typed.keys_subset hmem)
    exact hnot ⟨hname, hname ▸ hmem⟩

theorem keysApart_iff {test : LeafTest} {p : Parameters} (hv : ∀ v ∈ test.values, v.WellFormed)
    (typed : p.TypedFor (.query test.kind)) :
    KeysApart (test.members p) ↔ ¬ (Form.leaf test p : Form α).BoostsBoost := by
  cases test with
  | matchAll => exact iff_of_true (Parameters.keysApart typed.wellFormed) id
  | term field v =>
      rw [values, List.forall_mem_singleton] at hv
      exact iff_of_true (keysApart_fieldValue rfl hv typed) id
  | terms field vs => exact keysApart_terms_iff hv typed
  | range field =>
      refine iff_of_true ?_ id
      exact KeysApart.single_iff.mpr
        (Member.keysApart_object.mpr (Parameters.keysApart typed.wellFormed))
  | matchText field text =>
      rw [values, List.forall_mem_singleton] at hv
      exact iff_of_true (keysApart_fieldValue rfl hv typed) id
  | matchPhrase field phrase =>
      rw [values, List.forall_mem_singleton] at hv
      exact iff_of_true (keysApart_fieldValue rfl hv typed) id
  | existsField field =>
      have hpart : KeysApart ([.string "field" field.name] ++ p.members) :=
        (keysApart_with_options (QueryKind.nodup_keys .existsField) (List.Sublist.refl _)
          typed).mpr (List.forall_mem_singleton.mpr trivial)
      exact iff_of_true hpart id
  | multiMatch text fields =>
      rw [values, List.forall_mem_singleton] at hv
      have hfields :
          (Member.array "fields" (fields.map fun f => .scalar (.string f.name))).KeysApart :=
        Member.keysApart_array.mpr (List.forall_mem_map.mpr fun _ _ => trivial)
      have hpart : KeysApart
          ([text.member "query", .array "fields" (fields.map fun f => .scalar (.string f.name))]
            ++ p.members) := by
        refine (keysApart_with_options (QueryKind.nodup_keys .multiMatch) ?_ typed).mpr ?_
        · rw [List.map_cons, Value.key_member]
          exact List.Sublist.refl _
        · exact List.forall_mem_cons.mpr
            ⟨(Value.keysApart hv).2 "query", List.forall_mem_singleton.mpr hfields⟩
      exact iff_of_true hpart id
  | ids ids =>
      have hids : (Member.array "values" (ids.map fun id => .scalar (.string id))).KeysApart :=
        Member.keysApart_array.mpr (List.forall_mem_map.mpr fun _ _ => trivial)
      have hpart : KeysApart
          ([.array "values" (ids.map fun id => .scalar (.string id))] ++ p.members) :=
        (keysApart_with_options (QueryKind.nodup_keys .ids) (List.Sublist.refl _) typed).mpr
          (List.forall_mem_singleton.mpr hids)
      exact iff_of_true hpart id

end LeafTest

/-! ## 5. Parts that may be absent -/

theorem keysApart_of_sublist {ms : List Member} {keys : List String}
    (hms : (ms.map Member.key).Sublist keys) (hkeys : keys.Nodup)
    (parts : ∀ m ∈ ms, m.KeysApart) : KeysApart ms :=
  ⟨hms.nodup hkeys, parts⟩

theorem keys_optionalMember_sublist {o : Option α} {f : α → Member} (key : String)
    (hf : ∀ a, (f a).key = key) : ((optionalMember o f).map Member.key).Sublist [key] := by
  rcases o with _ | a
  · exact List.nil_sublist [key]
  · show [(f a).key].Sublist [key]
    rw [hf a]

theorem keys_nonemptyArray_sublist (key : String) (mss : List (List Member)) :
    ((nonemptyArray key mss).map Member.key).Sublist [key] := by
  rw [nonemptyArray]
  split
  · exact List.nil_sublist [key]
  · exact List.Sublist.refl [key]

theorem forall_mem_optionalObject {o : Option (List Member)} {key : String} :
    (∀ m ∈ optionalMember o (.object key), m.KeysApart) ↔ ∀ ms ∈ o, KeysApart ms := by
  rcases o with _ | ms
  · exact iff_of_true (fun m hm => absurd hm List.not_mem_nil) fun ms hms => nomatch hms
  · rw [optionalMember, List.forall_mem_singleton, Member.keysApart_object]
    exact ⟨fun h ms' hms' => Option.some.inj hms' ▸ h, fun h => h ms rfl⟩

theorem forall_mem_optionalMember {o : Option α} {f : α → Member}
    (hf : ∀ a ∈ o, (f a).KeysApart) : ∀ m ∈ optionalMember o f, m.KeysApart := by
  rcases o with _ | a
  · exact fun m hm => absurd hm List.not_mem_nil
  · exact List.forall_mem_singleton.mpr (hf a rfl)

theorem forall_mem_nonemptyArray {key : String} {mss : List (List Member)} :
    (∀ m ∈ nonemptyArray key mss, m.KeysApart) ↔ ∀ ms ∈ mss, KeysApart ms := by
  rw [nonemptyArray]
  split
  · rename_i hempty
    rw [List.isEmpty_iff.mp hempty]
    exact iff_of_true (fun m hm => absurd hm List.not_mem_nil)
      fun ms hms => absurd hms List.not_mem_nil
  · rw [List.forall_mem_singleton, Member.keysApart_array, List.forall_mem_map]
    simp only [Item.keysApart_object]

/-! ## 6. Bodies -/

theorem Script.keysApart {s : Script} (hs : s.params.WellFormed) : KeysApart s.members := by
  have hlang : ∀ m ∈ (s.lang.map (Member.string "lang")).toList, m.KeysApart := by
    rcases s.lang with _ | lang
    · exact fun m hm => absurd hm List.not_mem_nil
    · exact List.forall_mem_singleton.mpr trivial
  have hlangKeys : (((s.lang.map (Member.string "lang")).toList).map Member.key).Sublist
      ["lang"] := by
    rcases s.lang with _ | lang
    · exact List.nil_sublist _
    · exact List.Sublist.refl _
  -- Where the text of the script is comes first, under one of two keys.
  have withSource (key text : String) (hkey : [key, "lang", "params"].Nodup) :
      KeysApart ([.string key text] ++ (s.lang.map (Member.string "lang")).toList ++
        if s.params.isEmpty then [] else [.object "params" (Parameters.members s.params)]) := by
    split
    · refine keysApart_of_sublist ?_ hkey ?_
      · rw [List.map_append, List.map_append]
        exact ((List.Sublist.refl [key]).append hlangKeys).append (List.nil_sublist ["params"])
      · rw [List.forall_mem_append, List.forall_mem_append]
        exact ⟨⟨List.forall_mem_singleton.mpr trivial, hlang⟩, KeysApart.nil.parts⟩
    · refine keysApart_of_sublist ?_ hkey ?_
      · rw [List.map_append, List.map_append]
        exact ((List.Sublist.refl [key]).append hlangKeys).append (List.Sublist.refl ["params"])
      · rw [List.forall_mem_append, List.forall_mem_append]
        exact ⟨⟨List.forall_mem_singleton.mpr trivial, hlang⟩, List.forall_mem_singleton.mpr
          (Member.keysApart_object.mpr (Parameters.keysApart hs))⟩
  rw [Script.members]
  rcases s.body with source | id
  · exact withSource "source" source (by decide)
  · exact withSource "id" id (by decide)

theorem FieldValueFactor.keysApart {f : FieldValueFactor}
    (typed : f.options.TypedFor .factor) : KeysApart f.members := by
  have hkeys : (["field"] ++ OptionOwner.factor.keys).Nodup := by decide
  have hmembers : KeysApart ([.string "field" f.field.name] ++ Parameters.members f.options) :=
    (keysApart_with_options hkeys (List.Sublist.refl _) typed).mpr
      (List.forall_mem_singleton.mpr trivial)
  exact hmembers

/-- What a function computes never clashes with its filter and its weight. -/
theorem ScoreFunction.keysApart_iff {s : ScoreFunction (List Member)} (typed : s.kind.Typed) :
    KeysApart s.members ↔ ∀ ms ∈ s.filter, KeysApart ms := by
  have around (computed : List Member)
      (hkeys : (computed.map Member.key).Sublist ["field_value_factor", "script_score"])
      (hcomputed : ∀ m ∈ computed, m.KeysApart) :
      KeysApart (optionalMember s.filter (.object "filter") ++ computed ++
        optionalMember s.weight (.float "weight")) ↔ ∀ ms ∈ s.filter, KeysApart ms := by
    constructor
    · intro h
      have hparts := h.parts
      rw [List.forall_mem_append, List.forall_mem_append] at hparts
      exact forall_mem_optionalObject.mp hparts.1.1
    · intro h
      refine keysApart_of_sublist ?_
        (by decide : ["filter", "field_value_factor", "script_score", "weight"].Nodup) ?_
      · rw [List.map_append, List.map_append]
        exact ((keys_optionalMember_sublist "filter" fun _ => rfl).append hkeys).append
          (keys_optionalMember_sublist "weight" fun _ => rfl)
      · rw [List.forall_mem_append, List.forall_mem_append]
        exact ⟨⟨forall_mem_optionalObject.mpr h, hcomputed⟩,
          forall_mem_optionalMember fun _ _ => trivial⟩
  rw [ScoreFunction.members]
  cases hkind : s.kind with
  | weight => exact around [] (List.nil_sublist _) KeysApart.nil.parts
  | fieldValueFactor f =>
      rw [hkind] at typed
      refine around _ ?_ (List.forall_mem_singleton.mpr (Member.keysApart_object.mpr
        (f.keysApart typed)))
      exact List.sublist_append_left ["field_value_factor"] ["script_score"]
  | scriptScore script =>
      rw [hkind] at typed
      have hscript : KeysApart [.object "script" script.members] :=
        KeysApart.single_iff.mpr (Member.keysApart_object.mpr (script.keysApart typed))
      refine around _ ?_ (List.forall_mem_singleton.mpr (Member.keysApart_object.mpr hscript))
      exact List.sublist_append_right ["field_value_factor"] ["script_score"]

namespace Compound

theorem keys_members_sublist (c : Compound (List Member)) :
    (c.members.map Member.key).Sublist c.kind.partKeys := by
  cases c with
  | bool b =>
      show ((nonemptyArray "filter" b.filter ++ (nonemptyArray "should" b.should ++
        (nonemptyArray "must" b.must ++ (nonemptyArray "must_not" b.mustNot ++ []))) ++
        optionalMember b.minimumShouldMatch (Value.member "minimum_should_match")).map
          Member.key).Sublist
        (["filter"] ++ (["should"] ++ (["must"] ++ (["must_not"] ++ []))) ++
          ["minimum_should_match"])
      simp only [List.map_append]
      have hclauses := ((keys_nonemptyArray_sublist "filter" b.filter).append
        ((keys_nonemptyArray_sublist "should" b.should).append
        ((keys_nonemptyArray_sublist "must" b.must).append
        ((keys_nonemptyArray_sublist "must_not" b.mustNot).append (List.Sublist.refl [])))))
      exact hclauses.append (keys_optionalMember_sublist _ (Value.key_member _))
  | disMax b =>
      show ((nonemptyArray "queries" b.queries ++
        optionalMember b.tieBreaker (.float "tie_breaker")).map Member.key).Sublist
        (["queries"] ++ ["tie_breaker"])
      rw [List.map_append]
      exact (keys_nonemptyArray_sublist "queries" b.queries).append
        (keys_optionalMember_sublist "tie_breaker" fun _ => rfl)
  | functionScore b =>
      show ((optionalMember b.query (.object "query") ++
        nonemptyArray "functions" (b.functions.map ScoreFunction.members) ++
        optionalMember b.scoreMode (fun mode => .string "score_mode" (WireName.wire mode)) ++
        optionalMember b.boostMode (fun mode => .string "boost_mode" (WireName.wire mode)) ++
        optionalMember b.minScore (.float "min_score")).map Member.key).Sublist
        (["query"] ++ ["functions"] ++ ["score_mode"] ++ ["boost_mode"] ++ ["min_score"])
      simp only [List.map_append]
      refine List.Sublist.append (List.Sublist.append (List.Sublist.append (List.Sublist.append
        ?_ ?_) ?_) ?_) ?_
      · exact keys_optionalMember_sublist "query" fun _ => rfl
      · exact keys_nonemptyArray_sublist "functions" _
      · exact keys_optionalMember_sublist "score_mode" fun _ => rfl
      · exact keys_optionalMember_sublist "boost_mode" fun _ => rfl
      · exact keys_optionalMember_sublist "min_score" fun _ => rfl

theorem forall_mem_members_iff {c : Compound (List Member)} (typed : c.Typed) :
    (∀ m ∈ c.members, m.KeysApart) ↔ ∀ ms ∈ c.children, KeysApart ms := by
  cases c with
  | bool b =>
      have hminimum : ∀ m ∈ optionalMember b.minimumShouldMatch
          (Value.member "minimum_should_match"), m.KeysApart :=
        forall_mem_optionalMember fun v hv => (Value.keysApart (typed v hv)).2 _
      show (∀ m ∈ nonemptyArray "filter" b.filter ++ (nonemptyArray "should" b.should ++
        (nonemptyArray "must" b.must ++ (nonemptyArray "must_not" b.mustNot ++ []))) ++
        optionalMember b.minimumShouldMatch _, m.KeysApart) ↔ ∀ ms ∈ b.children, _
      rw [List.forall_mem_append]
      refine (and_iff_left hminimum).trans ?_
      simp only [BoolBody.children, List.forall_mem_append, forall_mem_nonemptyArray,
        List.append_nil, and_assoc]
  | disMax b =>
      have htie : ∀ m ∈ optionalMember b.tieBreaker (.float "tie_breaker"), m.KeysApart :=
        forall_mem_optionalMember fun _ _ => trivial
      show (∀ m ∈ nonemptyArray "queries" b.queries ++ optionalMember b.tieBreaker _,
        m.KeysApart) ↔ ∀ ms ∈ b.queries, _
      rw [List.forall_mem_append, forall_mem_nonemptyArray]
      exact and_iff_left htie
  | functionScore b =>
      have hfunctions : (∀ ms ∈ b.functions.map ScoreFunction.members, KeysApart ms) ↔
          ∀ ms ∈ b.functions.filterMap ScoreFunction.filter, KeysApart ms := by
        simp only [List.forall_mem_map, List.mem_filterMap, forall_exists_index, and_imp]
        constructor
        · intro h ms s hs hfilter
          exact (ScoreFunction.keysApart_iff (typed s hs)).mp (h s hs) ms hfilter
        · intro h s hs
          exact (ScoreFunction.keysApart_iff (typed s hs)).mpr fun ms hms =>
            h ms s hs hms
      show (∀ m ∈ optionalMember b.query (.object "query") ++
        nonemptyArray "functions" (b.functions.map ScoreFunction.members) ++
        optionalMember b.scoreMode (fun mode => .string "score_mode" (WireName.wire mode)) ++
        optionalMember b.boostMode (fun mode => .string "boost_mode" (WireName.wire mode)) ++
        optionalMember b.minScore (.float "min_score"), m.KeysApart) ↔
        ∀ ms ∈ b.query.toList ++ b.functions.filterMap ScoreFunction.filter, KeysApart ms
      simp only [List.forall_mem_append, forall_mem_optionalObject, forall_mem_nonemptyArray,
        hfunctions, Option.mem_toList]
      -- The settings are scalars.
      constructor
      · rintro ⟨⟨⟨hparts, -⟩, -⟩, -⟩
        exact hparts
      · intro hparts
        exact ⟨⟨⟨hparts, forall_mem_optionalMember fun _ _ => trivial⟩,
          forall_mem_optionalMember fun _ _ => trivial⟩,
          forall_mem_optionalMember fun _ _ => trivial⟩

theorem keysApart_iff {c : Compound (List Member)} {p : Parameters} (typed : c.Typed)
    (hp : p.TypedFor (.query c.kind)) :
    KeysApart (c.members ++ p.members) ↔ ∀ ms ∈ c.children, KeysApart ms :=
  (keysApart_with_options c.kind.nodup_keys c.keys_members_sublist hp).trans
    (forall_mem_members_iff typed)

end Compound

end SearchQuery
