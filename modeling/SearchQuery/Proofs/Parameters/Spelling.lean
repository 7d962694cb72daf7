import SearchQuery.Json.Text
import SearchQuery.Proofs.Parameters

/-!
# Writing a container into a container

A container that is written into an empty one comes out as it was, but for the references to fields,
which are written as the names of the fields (`written_is_spelled`). For this nothing may be lost on
the way: a null field would take its key away, and a key that stood twice would be written twice. So
the induction is on a proper value, where neither occurs at any depth. Once names have taken the
place of references there is nothing left to replace, and the same is written again.
-/

namespace SearchQuery

open OrderedMap

/-! ## 1. Names for references -/

mutual

/-- A value with the name of the field in place of each reference to a field, at every depth. -/
def Value.spelled : Value → Value
  | .field f => .string f.name
  | .array items => .array (Value.itemsSpelled items)
  | .object ⟨entries⟩ => .object ⟨Value.entriesSpelled entries⟩
  | v => v

def Value.itemsSpelled : List Value → List Value
  | [] => []
  | v :: rest => Value.spelled v :: Value.itemsSpelled rest

def Value.entriesSpelled : List (String × Value) → List (String × Value)
  | [] => []
  | (key, v) :: rest => (key, Value.spelled v) :: Value.entriesSpelled rest

end

/-- The container with the same keys in the same order, and its values spelled. -/
def Parameters.spelled (p : Parameters) : Parameters := p.map Value.spelled

namespace Value

theorem spelled_array (items : List Value) :
    (array items).spelled = .array (items.map spelled) := by
  have hitems : itemsSpelled items = items.map spelled := by
    induction items with
    | nil => rw [itemsSpelled, List.map_nil]
    | cons v items ih => rw [itemsSpelled, List.map_cons, ih]
  rw [spelled, hitems]

theorem spelled_object (p : Parameters) : (object p).spelled = .object p.spelled := by
  obtain ⟨entries⟩ := p
  have hentries : entriesSpelled entries = entries.map fun e => (e.1, e.2.spelled) := by
    induction entries with
    | nil => rw [entriesSpelled, List.map_nil]
    | cons e entries ih => rw [entriesSpelled, List.map_cons, ih]
  rw [spelled, hentries]
  rfl

theorem isNull_spelled (v : Value) : v.spelled.isNull = v.isNull := by
  rcases v with _ | _ | _ | _ | _ | _ | ⟨entries⟩ | _ <;> rfl

/-- A value becomes the same under a key and in an array. -/
theorem toValue_member (key : String) (v : Value) : (v.member key).toValue = v.item.toValue := by
  rcases v with _ | _ | _ | _ | _ | _ | ⟨entries⟩ | _ <;> rfl

end Value

/-! ## 2. What comes out -/

/-- What becomes of a container that is written into an empty one. -/
def Parameters.written (p : Parameters) : Parameters := ofMembers p.members

/-- A container comes out spelled if its values do. -/
theorem Parameters.written_of_parts {p : Parameters} (distinct : p.Distinct)
    (notNull : ∀ e ∈ p.entries, e.2.isNull = false)
    (parts : ∀ e ∈ p.entries, e.2.item.toValue = e.2.spelled) : p.written = p.spelled := by
  have hmembers : p.members = p.entries.map fun e => e.2.member e.1 := Value.members_eq p.entries
  -- No field is null, so every one of them is inserted.
  have hinserted : ∀ m ∈ p.members, m.toValue.isNull = false := by
    rw [hmembers, List.forall_mem_map]
    intro e he
    rw [Value.toValue_member, parts e he, Value.isNull_spelled]
    exact notNull e he
  have hentries : p.members.map Member.valueEntry = p.spelled.entries := by
    rw [hmembers, List.map_map]
    refine List.map_congr_left fun e he => ?_
    rw [Function.comp_apply, Member.valueEntry, Value.key_member, Value.toValue_member, parts e he]
  have hkeys : (p.spelled.entries.map Prod.fst).Nodup := by
    rw [← OrderedMap.keys, spelled, keys_map]
    exact distinct
  rw [written, ofMembers, writeAll_container hinserted, hentries, insertAll_empty hkeys]

theorem Value.toValue_item {v : Value} (h : v.Proper) : v.item.toValue = v.spelled := by
  induction h with
  | null | boolean | float | integer | string | field => rfl
  | array items _ ih =>
      rw [item, Item.toValue_array, items_eq, List.map_map, spelled_array]
      exact congrArg array (List.map_congr_left ih)
  | object members distinct notNull _ ih =>
      have hwritten := Parameters.written_of_parts distinct notNull ih
      obtain ⟨entries⟩ := members
      rw [item, Item.toValue_object, spelled_object, ← hwritten]
      rfl

/-! ## 3. What is written the second time -/

/-- A spelled value makes for the same writes. -/
theorem Value.writes_spelled {v : Value} (h : v.Proper) :
    (∀ key, v.spelled.member key = v.member key) ∧ v.spelled.item = v.item := by
  induction h with
  | null | boolean | float | integer | string | field => exact ⟨fun _ => rfl, rfl⟩
  | array items _ ih =>
      have hitems : Value.items (items.map spelled) = Value.items items := by
        rw [items_eq, items_eq, List.map_map]
        exact List.map_congr_left fun v hv => (ih v hv).2
      rw [spelled_array, item, hitems]
      refine ⟨fun key => ?_, rfl⟩
      rw [member, hitems, member]
  | object members distinct notNull _ ih =>
      obtain ⟨entries⟩ := members
      have hmembers : Value.members (entries.map fun e => (e.1, e.2.spelled))
          = Value.members entries := by
        rw [members_eq, members_eq, List.map_map]
        exact List.map_congr_left fun e he => (ih e he).1 e.1
      rw [spelled_object, Parameters.spelled, OrderedMap.map, item, hmembers]
      refine ⟨fun key => ?_, rfl⟩
      rw [member, hmembers, member]

theorem Parameters.members_spelled {p : Parameters} (h : p.Proper) :
    p.spelled.members = p.members := by
  rw [members, members, Value.members_eq, Value.members_eq, spelled, OrderedMap.map, List.map_map]
  exact List.map_congr_left fun e he => (Value.writes_spelled (h.parts e he)).1 e.1

namespace Parameters

/-- **Writing a container into a container reproduces it.** A container that can be made comes out
with the names of fields in place of references to them and is the same otherwise. A second time
it comes out as it is. Whatever sink the copy is written into gets the same writes as from the
original, so that both have the same JSON text. -/
theorem written_is_spelled {p : Parameters} (hp : p.Built) :
    p.written = p.spelled ∧
    p.written.written = p.written ∧
    (∀ (σ : Type) [ObjectSink σ] (out : σ),
      writeAll out p.written.members = writeAll out p.members) ∧
    (Json.object (JsonObject.ofMembers p.written.members)).compact
      = (Json.object (JsonObject.ofMembers p.members)).compact ∧
    (Json.object (JsonObject.ofMembers p.written.members)).pretty
      = (Json.object (JsonObject.ofMembers p.members)).pretty := by
  have hproper := built_iff_proper.mp hp
  have hwritten : p.written = p.spelled :=
    written_of_parts hproper.distinct hproper.notNull fun e he =>
      Value.toValue_item (hproper.parts e he)
  have hmembers : p.written.members = p.members := by rw [hwritten, members_spelled hproper]
  refine ⟨hwritten, ?_, ?_, ?_, ?_⟩
  · rw [written, hmembers, written]
  · intro σ _ out
    rw [hmembers]
  · rw [hmembers]
  · rw [hmembers]

/-! References at two depths, beside an item that is null and a number that is none. -/

def ordering : Parameters := ofEntries [("by", .field ⟨"price"⟩),
  ("then", .array [.null, .float ⟨0x7ff8000000000000⟩,
    .object (ofEntries [("by", .field ⟨"date"⟩)])])]

theorem built_ordering : ordering.Built := by
  have hinner : Value.Built (.object (ofEntries [("by", .field ⟨"date"⟩)])) := by
    apply Value.built_ofEntries
    rintro e he
    obtain rfl := List.mem_singleton.mp he
    exact .field ⟨"date"⟩
  apply Value.built_ofEntries
  rintro e he
  rcases List.mem_pair.mp he with rfl | rfl
  · exact .field ⟨"price"⟩
  · refine .array _ ?_
    simp only [List.forall_mem_cons]
    exact ⟨.scalar .null, .scalar (.float _), hinner, List.forall_mem_nil _⟩

/-- Only the references come out in another form. -/
theorem written_ordering : ordering.Built ∧ ordering.written = ofEntries [("by", .string "price"),
    ("then", .array [.null, .float ⟨0x7ff8000000000000⟩,
      .object (ofEntries [("by", .string "date")])])] := by
  refine ⟨built_ordering, ?_⟩
  rw [(written_is_spelled built_ordering).1]
  rfl

end Parameters

end SearchQuery
