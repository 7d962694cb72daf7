import Mathlib.Data.List.Forall2
import SearchQuery.Proofs.Compilation
import SearchQuery.Proofs.Reduction

/-!
# A document and a container made of the same writes

The two sinks that build something differ in what they do with a null field: a document holds the
null, a container takes the key away. So a later field may find its key at its old place in the one
and gone in the other, and the two come out with their keys in different orders. What does not
differ is what is held under each key: the document without its null fields matches the container,
at every depth (`matches_ofMembers`). Where no null field is written both are made by insertions
only, and then even the orders are the same (`withoutNulls_ofMembers`).

Numbers that are not finite are null in a document and stay what they are in a container, and are
left out of consideration.
-/

namespace SearchQuery

open OrderedMap

/-! ## 1. Without null fields -/

namespace Json

def isNull : Json → Bool
  | null => true
  | _ => false

mutual

/-- A document without its null fields, at every depth. Null items of arrays stay. -/
def withoutNulls : Json → Json
  | .array items => .array (itemsWithoutNulls items)
  | .object ⟨entries⟩ => .object ⟨entriesWithoutNulls entries⟩
  | j => j

def itemsWithoutNulls : List Json → List Json
  | [] => []
  | j :: rest => withoutNulls j :: itemsWithoutNulls rest

def entriesWithoutNulls : List (String × Json) → List (String × Json)
  | [] => []
  | (key, j) :: rest =>
    if j.isNull then entriesWithoutNulls rest
    else (key, withoutNulls j) :: entriesWithoutNulls rest

end

/-- What is left of the document under a key: nothing if it is null. -/
def kept (j : Json) : Option Json := if j.isNull then none else some j.withoutNulls

theorem withoutNulls_array (items : List Json) :
    (array items).withoutNulls = .array (items.map withoutNulls) := by
  have hitems : itemsWithoutNulls items = items.map withoutNulls := by
    induction items with
    | nil => rw [itemsWithoutNulls, List.map_nil]
    | cons j items ih => rw [itemsWithoutNulls, List.map_cons, ih]
  rw [withoutNulls, hitems]

theorem withoutNulls_object (o : JsonObject) :
    (object o).withoutNulls = .object ⟨present (o.map kept).entries⟩ := by
  obtain ⟨entries⟩ := o
  have hentries : entriesWithoutNulls entries = present (entries.map fun e => (e.1, e.2.kept)) := by
    induction entries with
    | nil => rw [entriesWithoutNulls, List.map_nil, present_nil]
    | cons e entries ih =>
        rw [entriesWithoutNulls, List.map_cons, present_cons, ih, kept]
        by_cases hnull : e.2.isNull = true
        · -- A null field is no field that is there.
          rw [if_pos hnull, if_pos hnull]
          rfl
        · rw [if_neg hnull, if_neg hnull]
          rfl
  rw [withoutNulls, hentries]
  rfl

/-- Where no field is null, the fields stay in their places. -/
theorem withoutNulls_object_of_not_null {o : JsonObject}
    (h : ∀ e ∈ o.entries, e.2.isNull = false) :
    (object o).withoutNulls = .object (o.map withoutNulls) := by
  obtain ⟨entries⟩ := o
  have hentries : present (entries.map fun e => (e.1, e.2.kept))
      = entries.map fun e => (e.1, e.2.withoutNulls) := by
    induction entries with
    | nil => rfl
    | cons e entries ih =>
        rw [List.forall_mem_cons] at h
        have hkept : e.2.kept = some e.2.withoutNulls := by
          unfold kept
          rw [h.1]
          rfl
        rw [List.map_cons, present_cons, hkept, ih h.2]
        rfl
  rw [withoutNulls_object]
  exact congrArg (fun l => object ⟨l⟩) hentries

/-! ## 2. Matching -/

/-- A document matches a value if both have the same data in the same arrays and, without regard to
the order of keys, in the same objects. -/
inductive Matches : Json → Value → Prop
  | null : Matches .null .null
  | boolean (b : Bool) : Matches (.boolean b) (.boolean b)
  | integer (n : Int64) : Matches (.integer n) (.integer n)
  | float (x : Double) : Matches (.float x) (.float x)
  | string (s : String) : Matches (.string s) (.string s)
  | array {items : List Json} {values : List Value} (h : List.Forall₂ Matches items values) :
    Matches (.array items) (.array values)
  | object {o : JsonObject} {p : Parameters} (ho : o.Distinct) (hp : p.Distinct)
    (h : ∀ key, Option.Rel Matches (o.get? key) (p.get? key)) : Matches (.object o) (.object p)

end Json

/-- What is left of a value under a key: nothing if it is null. -/
def Value.kept (v : Value) : Option Value := if v.isNull then none else some v

/-- Without its null fields the document has the fields of the container. -/
structure SameFields (o : JsonObject) (p : Parameters) : Prop where
  document : o.Distinct
  container : p.Distinct
  fields : ∀ key, Option.Rel Json.Matches ((o.get? key).bind Json.kept) (p.get? key)

namespace SameFields

theorem empty : SameFields OrderedMap.empty OrderedMap.empty :=
  ⟨distinct_empty, distinct_empty, fun _ => .none⟩

/-- One more member keeps it so, also where it replaces a field or takes one away. -/
theorem write {o : JsonObject} {p : Parameters} (h : SameFields o p) {m : Member}
    (hm : Option.Rel Json.Matches m.toJson.kept m.toValue.kept) :
    SameFields (ObjectSink.write o m) (ObjectSink.write p m) := by
  refine ⟨h.document.insert m.key m.toJson, Parameters.distinct_assign h.container m.key m.toValue,
    fun key => ?_⟩
  have ho : (ObjectSink.write o m).get? key = if key = m.key then some m.toJson else o.get? key :=
    get?_insert o m.key m.toJson key
  have hp : (ObjectSink.write p m).get? key = if key = m.key then m.toValue.kept else p.get? key :=
    Parameters.get?_assign p m.key m.toValue key
  rw [ho, hp]
  by_cases hkey : key = m.key
  · -- What either sink held under the key before does not matter any more.
    rw [if_pos hkey, if_pos hkey]
    exact hm
  · rw [if_neg hkey, if_neg hkey]
    exact h.fields key

theorem writeAll {o : JsonObject} {p : Parameters} (h : SameFields o p) {ms : List Member}
    (hms : ∀ m ∈ ms, Option.Rel Json.Matches m.toJson.kept m.toValue.kept) :
    SameFields (SearchQuery.writeAll o ms) (SearchQuery.writeAll p ms) := by
  induction ms generalizing o p with
  | nil => exact h
  | cons m ms ih =>
      rw [List.forall_mem_cons] at hms
      exact ih (h.write hms.1) hms.2

theorem matches_withoutNulls {o : JsonObject} {p : Parameters} (h : SameFields o p) :
    (Json.object o).withoutNulls.Matches (.object p) := by
  have hkeys : ((o.map Json.kept).entries.map Prod.fst).Nodup := by
    rw [← OrderedMap.keys, keys_map]
    exact h.document
  rw [Json.withoutNulls_object]
  refine .object ((present_keys_sublist _).nodup hkeys) h.container fun key => ?_
  have hget : (⟨present (o.map Json.kept).entries⟩ : JsonObject).get? key
      = (o.get? key).bind Json.kept := by
    rw [OrderedMap.get?, findEntry_present hkeys, ← OrderedMap.get?, get?_map]
    rcases o.get? key with _ | j <;> rfl
  rw [hget]
  exact h.fields key

end SameFields

/-! ## 3. What is written -/

namespace Scalar

/-- Only a float can fail to be finite. -/
def isFinite : Scalar → Bool
  | .float x => x.isFinite
  | _ => true

theorem matches_kept {s : Scalar} (h : s.isFinite = true) :
    Option.Rel Json.Matches s.toJson.kept s.toValue.kept := by
  cases s with
  | null => exact .none
  | boolean b => exact .some (.boolean b)
  | integer n => exact .some (.integer n)
  | float x =>
      have hx : Scalar.toJson (.float x) = .float x := if_pos h
      rw [hx]
      exact .some (.float x)
  | string s => exact .some (.string s)

theorem matches_item {s : Scalar} (h : s.isFinite = true) :
    s.toJson.withoutNulls.Matches s.toValue := by
  cases s with
  | null => exact .null
  | boolean b => exact .boolean b
  | integer n => exact .integer n
  | float x =>
      have hx : Scalar.toJson (.float x) = .float x := if_pos h
      rw [hx]
      exact .float x
  | string s => exact .string s

end Scalar

namespace Event

/-- A step that writes a number writes a finite one. -/
def isFinite : Event → Bool
  | .field _ s | .value s => s.isFinite
  | _ => true

/-- A step that writes a null field. A null item of an array is none. -/
def isNullField : Event → Bool
  | .field _ .null => true
  | _ => false

end Event

/-- Members that match one by one make up objects that match. -/
theorem matches_of_forall {ms : List Member}
    (h : ∀ m ∈ ms, Option.Rel Json.Matches m.toJson.kept m.toValue.kept) :
    (Json.object (JsonObject.ofMembers ms)).withoutNulls.Matches
      (.object (Parameters.ofMembers ms)) :=
  (SameFields.empty.writeAll h).matches_withoutNulls

/-- Items that match one by one make up arrays that match. -/
theorem matches_array_of_forall {items : List Item}
    (h : ∀ i ∈ items, i.toJson.withoutNulls.Matches i.toValue) :
    (Json.array (items.map Item.toJson)).withoutNulls.Matches
      (.array (items.map Item.toValue)) := by
  rw [Json.withoutNulls_array, List.map_map]
  apply Json.Matches.array
  rw [List.forall₂_map_left_iff, List.forall₂_map_right_iff, List.forall₂_same]
  exact h

/-- A description of finite data matches from its parts up. -/
theorem matching_parts : PartsToWhole (fun e => e.isFinite = true)
    (fun m => Option.Rel Json.Matches m.toJson.kept m.toValue.kept)
    (fun i => i.toJson.withoutNulls.Matches i.toValue) where
  field key s hs := by
    rw [Member.toJson, Member.toValue]
    exact s.matches_kept hs
  object key ms h := by
    rw [Member.toJson_object, Member.toValue_object]
    exact .some (matches_of_forall h)
  array key items h := by
    rw [Member.toJson_array, Member.toValue_array]
    exact .some (matches_array_of_forall h)
  value s hs := by
    rw [Item.toJson, Item.toValue]
    exact s.matches_item hs
  objectItem ms h := by
    rw [Item.toJson_object, Item.toValue_object]
    exact matches_of_forall h
  arrayItem items h := by
    rw [Item.toJson_array, Item.toValue_array]
    exact matches_array_of_forall h

/-- What members of finite data make of a document matches what they make of a container. -/
theorem matches_ofMembers {ms : List Member} (h : ∀ e ∈ Member.eventsOf ms, e.isFinite = true) :
    (Json.object (JsonObject.ofMembers ms)).withoutNulls.Matches
      (.object (Parameters.ofMembers ms)) :=
  matches_of_forall (matching_parts.members ms h)

/-! ## 4. The order of keys -/

mutual

/-- A value read as a document, with every field in its place. -/
def Value.asJson : Value → Json
  | .null => .null
  | .boolean b => .boolean b
  | .integer n => .integer n
  | .float x => .float x
  | .string s => .string s
  | .field f => .string f.name
  | .array items => .array (Value.itemsAsJson items)
  | .object ⟨entries⟩ => .object ⟨Value.entriesAsJson entries⟩

def Value.itemsAsJson : List Value → List Json
  | [] => []
  | v :: rest => Value.asJson v :: Value.itemsAsJson rest

def Value.entriesAsJson : List (String × Value) → List (String × Json)
  | [] => []
  | (key, v) :: rest => (key, Value.asJson v) :: Value.entriesAsJson rest

end

theorem Value.asJson_array (items : List Value) :
    (Value.array items).asJson = .array (items.map Value.asJson) := by
  have hitems : Value.itemsAsJson items = items.map Value.asJson := by
    induction items with
    | nil => rw [Value.itemsAsJson, List.map_nil]
    | cons v items ih => rw [Value.itemsAsJson, List.map_cons, ih]
  rw [Value.asJson, hitems]

theorem Value.asJson_object (p : Parameters) :
    (Value.object p).asJson = .object (p.map Value.asJson) := by
  obtain ⟨entries⟩ := p
  have hentries : Value.entriesAsJson entries = entries.map fun e => (e.1, e.2.asJson) := by
    induction entries with
    | nil => rw [Value.entriesAsJson, List.map_nil]
    | cons e entries ih => rw [Value.entriesAsJson, List.map_cons, ih]
  rw [Value.asJson, hentries]
  rfl

/-- A member that sets its key in both sinks, to the same. -/
structure Member.SetsSame (m : Member) : Prop where
  document : m.toJson.isNull = false
  container : m.toValue.isNull = false
  same : m.toJson.withoutNulls = m.toValue.asJson

theorem Scalar.withoutNulls_toJson {s : Scalar} (h : s.isFinite = true) :
    s.toJson.withoutNulls = s.toValue.asJson := by
  cases s with
  | float x =>
      have hx : Scalar.toJson (.float x) = .float x := if_pos h
      rw [hx]
      rfl
  | _ => rfl

/-- Where every member sets its key, both sinks only insert, and keys come in the same order. -/
theorem withoutNulls_of_forall {ms : List Member} (h : ∀ m ∈ ms, m.SetsSame) :
    (Json.object (JsonObject.ofMembers ms)).withoutNulls
      = (Value.object (Parameters.ofMembers ms)).asJson := by
  have hcontainer : Parameters.ofMembers ms
      = OrderedMap.empty.insertAll (ms.map Member.valueEntry) :=
    writeAll_container (fun m hm => (h m hm).container) OrderedMap.empty
  -- What a document holds has been inserted, so there is no null field to be left out.
  have hnotnull : ∀ e ∈ (JsonObject.ofMembers ms).entries, e.2.isNull = false := by
    rw [JsonObject.ofMembers_eq]
    refine forall_insertAll (P := fun j : Json => j.isNull = false)
      (fun e he => absurd he List.not_mem_nil) fun e he => ?_
    obtain ⟨m, hm, rfl⟩ := List.mem_map.mp he
    exact (h m hm).document
  have hentries : (ms.map Member.jsonEntry).map (fun e => (e.1, e.2.withoutNulls))
      = (ms.map Member.valueEntry).map fun e => (e.1, e.2.asJson) := by
    rw [List.map_map, List.map_map]
    exact List.map_congr_left fun m hm => congrArg (Prod.mk m.key) (h m hm).same
  rw [Json.withoutNulls_object_of_not_null hnotnull, Value.asJson_object, hcontainer,
    JsonObject.ofMembers_eq, map_insertAll, map_insertAll, hentries]
  rfl

theorem withoutNulls_array_of_forall {items : List Item}
    (h : ∀ i ∈ items, i.toJson.withoutNulls = i.toValue.asJson) :
    (Json.array (items.map Item.toJson)).withoutNulls
      = (Value.array (items.map Item.toValue)).asJson := by
  rw [Json.withoutNulls_array, Value.asJson_array, List.map_map, List.map_map]
  exact congrArg Json.array (List.map_congr_left h)

/-- A description of finite data without null fields is the same in both sinks from its parts up. -/
theorem same_parts : PartsToWhole (fun e => e.isFinite = true ∧ e.isNullField = false)
    Member.SetsSame (fun i => i.toJson.withoutNulls = i.toValue.asJson) where
  field key s hs := by
    have hsame := Scalar.withoutNulls_toJson hs.1
    cases s with
    | null => exact Bool.noConfusion hs.2 -- excluded: a null field
    | float x =>
        have hx : (Member.scalar key (.float x)).toJson = .float x := if_pos hs.1
        exact ⟨by rw [hx]; rfl, rfl, hsame⟩
    | _ => exact ⟨rfl, rfl, hsame⟩
  object key ms h := by
    refine ⟨rfl, rfl, ?_⟩
    rw [Member.toJson_object, Member.toValue_object]
    exact withoutNulls_of_forall h
  array key items h := by
    refine ⟨rfl, rfl, ?_⟩
    rw [Member.toJson_array, Member.toValue_array]
    exact withoutNulls_array_of_forall h
  value s hs := Scalar.withoutNulls_toJson hs.1
  objectItem ms h := by
    rw [Item.toJson_object, Item.toValue_object]
    exact withoutNulls_of_forall h
  arrayItem items h := by
    rw [Item.toJson_array, Item.toValue_array]
    exact withoutNulls_array_of_forall h

/-- Where no null field is written, the document and the container have the same keys in the same
order, at every depth. -/
theorem withoutNulls_ofMembers {ms : List Member}
    (hfinite : ∀ e ∈ Member.eventsOf ms, e.isFinite = true)
    (hnull : ∀ e ∈ Member.eventsOf ms, e.isNullField = false) :
    (Json.object (JsonObject.ofMembers ms)).withoutNulls
      = (Value.object (Parameters.ofMembers ms)).asJson := by
  have hboth : ∀ e ∈ Member.eventsOf ms, e.isFinite = true ∧ e.isNullField = false :=
    fun e he => ⟨hfinite e he, hnull e he⟩
  exact withoutNulls_of_forall (same_parts.members ms hboth)

/-! ## 5. Queries and requests -/

/-- A document and a container that the steps of a log have been carried out on agree. -/
structure SinksAgree (log : List Event) (o : JsonObject) (p : Parameters) : Prop where
  /-- Without its null fields the document matches the container, but for the order of keys. -/
  content : (Json.object o).withoutNulls.Matches (.object p)
  /-- Without null fields in the log, the order of keys is the same as well. -/
  order : (∀ e ∈ log, e.isNullField = false) →
    (Json.object o).withoutNulls = (Value.object p).asJson

theorem sinksAgree_ofMembers {ms : List Member}
    (h : ∀ e ∈ writeAll ([] : List Event) ms, e.isFinite = true) :
    SinksAgree (writeAll [] ms) (JsonObject.ofMembers ms) (Parameters.ofMembers ms) := by
  rw [writeAll_nil_events] at h ⊢
  exact ⟨matches_ofMembers h, withoutNulls_ofMembers h⟩

/-- **The sinks agree.** What a log records of a query, as it is or compiled, or of the body of a
request, makes up a document and a container that agree, provided that all its numbers are
finite. -/
theorem sinks_agree :
    (∀ q : Query, (∀ e ∈ writeAll ([] : List Event) q.members, e.isFinite = true) →
      SinksAgree (writeAll [] q.members) q.toJson q.toParameters) ∧
    (∀ (q : Query) (log : List Event), q.compileInto ([] : List Event) = .ok (true, log) →
      (∀ e ∈ log, e.isFinite = true) →
      ∃ o p, q.compileInto (OrderedMap.empty : JsonObject) = .ok (true, o) ∧
        q.compileInto (OrderedMap.empty : Parameters) = .ok (true, p) ∧ SinksAgree log o p) ∧
    (∀ (r : SearchRequest) (log : List Event), r.writeBody ([] : List Event) = .ok log →
      (∀ e ∈ log, e.isFinite = true) →
      ∃ o p, r.writeBody (OrderedMap.empty : JsonObject) = .ok o ∧
        r.writeBody (OrderedMap.empty : Parameters) = .ok p ∧ SinksAgree log o p) := by
  refine ⟨fun q h => sinksAgree_ofMembers h, fun q log hlog h => ?_, fun r log hlog h => ?_⟩
  · obtain ⟨ms, hms⟩ := Query.compileInto_uniform hlog
    have hwritten : writeAll [] ms = log :=
      congrArg Prod.snd (Except.ok.inj ((hms (List Event) []).symm.trans hlog))
    rw [← hwritten] at h ⊢
    exact ⟨_, _, hms JsonObject OrderedMap.empty, hms Parameters OrderedMap.empty,
      sinksAgree_ofMembers h⟩
  · obtain ⟨ms, hms⟩ := SearchRequest.writeBody_uniform hlog
    have hwritten : writeAll [] ms = log :=
      Except.ok.inj ((hms (List Event) []).symm.trans hlog)
    rw [← hwritten] at h ⊢
    exact ⟨_, _, hms JsonObject OrderedMap.empty, hms Parameters OrderedMap.empty,
      sinksAgree_ofMembers h⟩

/-! A query with a null field: a document gets the null, and a container does without the field. -/

def filteredQuery : Query :=
  .bool { filter := [.leaf .matchAll], minimumShouldMatch := some .null }
    ⟨[("boost", .float ⟨0x3ff0000000000000⟩)]⟩

def filteredRequest : SearchRequest where
  query := some filteredQuery

theorem reduce_filteredQuery : filteredQuery.reduce = some filteredQuery := by
  rw [filteredQuery, Query.bool, Query.reduce_compound]
  show Query.settle (Compound.prune (.bool
    { filter := [(Query.leaf .matchAll).reduce], minimumShouldMatch := some .null })) _ = _
  rw [Query.reduce_leaf]
  rfl

theorem depth_filteredQuery : filteredQuery.depth = 2 := by
  rw [Query.depth_eq]
  show 1 + max 0 (Query.leaf .matchAll).depth = 2
  rw [Query.depth_eq]
  rfl

theorem members_filteredQuery : filteredQuery.members
    = [.object "bool" [.array "filter" [.object [.object "match_all" []]],
        .scalar "minimum_should_match" .null,
        .scalar "boost" (.float ⟨0x3ff0000000000000⟩)]] := by
  have hclause : (Query.leaf .matchAll).members = [.object "match_all" []] := by
    rw [Query.members_eq]
    rfl
  rw [Query.members_eq, ← hclause]
  rfl

theorem compileInto_filteredQuery {σ : Type} [ObjectSink σ] (out : σ) :
    filteredQuery.compileInto out = .ok (true, writeAll out filteredQuery.members) := by
  have hdepth : filteredQuery.depth ≤ 128 := by
    rw [depth_filteredQuery]
    decide
  rw [Query.compileInto_of_le reduce_filteredQuery hdepth, Query.members_eq]
  rfl

theorem writeBody_filteredRequest {σ : Type} [ObjectSink σ] (out : σ) :
    filteredRequest.writeBody out
      = .ok (writeAll out [.object "query" filteredQuery.members]) := by
  have hreduced : filteredRequest.reducedQuery = some filteredQuery := reduce_filteredQuery
  have hle : ∀ q ∈ filteredRequest.written, q.depth ≤ 128 := by
    rw [SearchRequest.written_eq, hreduced]
    show ∀ q ∈ [filteredQuery], q.depth ≤ 128
    rw [List.forall_mem_singleton, depth_filteredQuery]
    decide
  rw [SearchRequest.writeBody, SearchRequest.members_of_le hle, SearchRequest.fixedMembers,
    hreduced]
  rfl

/-- The sinks agree on the query as it is, compiled and in a request, though there is a null
field. -/
theorem sinks_agree_on_filtered :
    (∃ e ∈ writeAll ([] : List Event) filteredQuery.members, e.isNullField = true) ∧
    SinksAgree (writeAll [] filteredQuery.members) filteredQuery.toJson
      filteredQuery.toParameters ∧
    (∃ o p, filteredQuery.compileInto (OrderedMap.empty : JsonObject) = .ok (true, o) ∧
      filteredQuery.compileInto (OrderedMap.empty : Parameters) = .ok (true, p) ∧
      SinksAgree (writeAll [] filteredQuery.members) o p) ∧
    ∃ o p, filteredRequest.writeBody (OrderedMap.empty : JsonObject) = .ok o ∧
      filteredRequest.writeBody (OrderedMap.empty : Parameters) = .ok p ∧
      SinksAgree (writeAll [] [.object "query" filteredQuery.members]) o p := by
  have hfinite : ∀ e ∈ writeAll ([] : List Event) filteredQuery.members, e.isFinite = true := by
    rw [members_filteredQuery]
    decide
  have hfiniteBody : ∀ e ∈ writeAll ([] : List Event) [.object "query" filteredQuery.members],
      e.isFinite = true := by
    rw [members_filteredQuery]
    decide
  refine ⟨?_, sinks_agree.1 filteredQuery hfinite,
    sinks_agree.2.1 filteredQuery _ (compileInto_filteredQuery []) hfinite,
    sinks_agree.2.2 filteredRequest _ (writeBody_filteredRequest []) hfiniteBody⟩
  rw [members_filteredQuery]
  exact ⟨.field "minimum_should_match" .null, by decide, rfl⟩

end SearchQuery
