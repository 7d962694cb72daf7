import SearchQuery.Proofs.Form
import SearchQuery.Proofs.OrderedMap
import SearchQuery.Query.Compilation

/-!
# What sinks make of a description

A description is read by recursion where one member is nested in another, and step by step where
members follow each other. The two readings meet here: what fills an object or a container by
recursion is `writeAll` (`fillJson_eq`, `fill_eq`), and writing into a document is a run of
insertions (`writeAll_document`). A query comes down to one member, whose content is `Query.body`.
-/

namespace SearchQuery

/-! ## 1. Members after each other -/

section WriteAll

variable {σ : Type} [ObjectSink σ]

@[simp] theorem writeAll_nil (out : σ) : writeAll out [] = out := rfl

@[simp] theorem writeAll_cons (out : σ) (m : Member) (ms : List Member) :
    writeAll out (m :: ms) = writeAll (ObjectSink.write out m) ms := rfl

end WriteAll

theorem Member.eventsOf_eq (ms : List Member) : eventsOf ms = ms.flatMap events := by
  induction ms with
  | nil => rfl
  | cons m ms ih => rw [eventsOf, ih, List.flatMap_cons]

theorem Item.eventsOf_eq (items : List Item) : eventsOf items = items.flatMap events := by
  induction items with
  | nil => rfl
  | cons i items ih => rw [eventsOf, ih, List.flatMap_cons]

theorem Member.eventsOf_append (ms ms' : List Member) :
    eventsOf (ms ++ ms') = eventsOf ms ++ eventsOf ms' := by
  simp only [eventsOf_eq, List.flatMap_append]

theorem Member.eventsOf_singleton (m : Member) : eventsOf [m] = m.events := by
  rw [eventsOf_eq, List.flatMap_singleton]

/-- The recorder keeps the steps of all members, in order. -/
theorem writeAll_events (log : List Event) (ms : List Member) :
    writeAll log ms = log ++ Member.eventsOf ms := by
  induction ms generalizing log with
  | nil => exact (List.append_nil log).symm
  | cons m ms ih =>
      rw [writeAll_cons, ih, Member.eventsOf, ← List.append_assoc]
      rfl

/-- A recorder that starts with nothing has the steps of the members and no others. -/
theorem writeAll_nil_events (ms : List Member) :
    writeAll ([] : List Event) ms = Member.eventsOf ms := by
  rw [writeAll_events, List.nil_append]

/-! ## 2. Induction on a description -/

/-- What is needed to go from the parts of a description to the whole: a scalar may be used only
with a step that satisfies `E`, and for anything nested there is what has been shown of its
parts. -/
structure PartsToWhole (E : Event → Prop) (P : Member → Prop) (Q : Item → Prop) : Prop where
  field : ∀ key s, E (.field key s) → P (.scalar key s)
  object : ∀ key ms, (∀ m ∈ ms, P m) → P (.object key ms)
  array : ∀ key items, (∀ i ∈ items, Q i) → P (.array key items)
  value : ∀ s, E (.value s) → Q (.scalar s)
  objectItem : ∀ ms, (∀ m ∈ ms, P m) → Q (.object ms)
  arrayItem : ∀ items, (∀ i ∈ items, Q i) → Q (.array items)

namespace PartsToWhole

variable {E : Event → Prop} {P : Member → Prop} {Q : Item → Prop}

/-! A condition on all steps of a description passes to its parts, whose steps are among them. -/

mutual

theorem member (h : PartsToWhole E P Q) (m : Member) (hm : ∀ e ∈ m.events, E e) : P m := by
  cases m with
  | scalar key s =>
      rw [Member.events, List.forall_mem_singleton] at hm
      exact h.field key s hm
  | object key ms =>
      rw [Member.events, List.forall_mem_cons, List.forall_mem_append] at hm
      exact h.object key ms (members h ms hm.2.1)
  | array key is =>
      rw [Member.events, List.forall_mem_cons, List.forall_mem_append] at hm
      exact h.array key is (items h is hm.2.1)

theorem item (h : PartsToWhole E P Q) (i : Item) (hi : ∀ e ∈ i.events, E e) : Q i := by
  cases i with
  | scalar s =>
      rw [Item.events, List.forall_mem_singleton] at hi
      exact h.value s hi
  | object ms =>
      rw [Item.events, List.forall_mem_cons, List.forall_mem_append] at hi
      exact h.objectItem ms (members h ms hi.2.1)
  | array is =>
      rw [Item.events, List.forall_mem_cons, List.forall_mem_append] at hi
      exact h.arrayItem is (items h is hi.2.1)

theorem members (h : PartsToWhole E P Q) (ms : List Member)
    (hms : ∀ e ∈ Member.eventsOf ms, E e) : ∀ m ∈ ms, P m := by
  cases ms with
  | nil => exact fun m hm => absurd hm List.not_mem_nil
  | cons m ms =>
      rw [Member.eventsOf, List.forall_mem_append] at hms
      exact List.forall_mem_cons.mpr ⟨member h m hms.1, members h ms hms.2⟩

theorem items (h : PartsToWhole E P Q) (is : List Item)
    (his : ∀ e ∈ Item.eventsOf is, E e) : ∀ i ∈ is, Q i := by
  cases is with
  | nil => exact fun i hi => absurd hi List.not_mem_nil
  | cons i is =>
      rw [Item.eventsOf, List.forall_mem_append] at his
      exact List.forall_mem_cons.mpr ⟨item h i his.1, items h is his.2⟩

end

end PartsToWhole

/-! ## 3. The document -/

theorem Member.fillJson_eq (o : JsonObject) (ms : List Member) :
    Member.fillJson o ms = writeAll o ms := by
  induction ms generalizing o with
  | nil => rw [Member.fillJson, writeAll_nil]
  | cons m ms ih => rw [Member.fillJson, writeAll_cons, ih]; rfl

theorem Item.toJsons_eq (items : List Item) : Item.toJsons items = items.map Item.toJson := by
  induction items with
  | nil => rw [Item.toJsons, List.map_nil]
  | cons i items ih => rw [Item.toJsons, List.map_cons, ih]

theorem Member.toJson_object (key : String) (ms : List Member) :
    (Member.object key ms).toJson = .object (JsonObject.ofMembers ms) := by
  rw [Member.toJson, Member.fillJson_eq]
  rfl

theorem Member.toJson_array (key : String) (items : List Item) :
    (Member.array key items).toJson = .array (items.map Item.toJson) := by
  rw [Member.toJson, Item.toJsons_eq]

theorem Item.toJson_object (ms : List Member) :
    (Item.object ms).toJson = .object (JsonObject.ofMembers ms) := by
  rw [Item.toJson, Member.fillJson_eq]
  rfl

theorem Item.toJson_array (items : List Item) :
    (Item.array items).toJson = .array (items.map Item.toJson) := by
  rw [Item.toJson, Item.toJsons_eq]

/-- The entry that a member adds to a document. -/
def Member.jsonEntry (m : Member) : String × Json := (m.key, m.toJson)

/-- Members written into a document are inserted into it. -/
theorem writeAll_document (o : JsonObject) (ms : List Member) :
    writeAll o ms = o.insertAll (ms.map Member.jsonEntry) := by
  rw [OrderedMap.insertAll, List.foldl_map]
  rfl

theorem JsonObject.ofMembers_eq (ms : List Member) :
    JsonObject.ofMembers ms = OrderedMap.empty.insertAll (ms.map Member.jsonEntry) :=
  writeAll_document OrderedMap.empty ms

/-! ## 4. The container -/

theorem Member.fill_eq (p : Parameters) (ms : List Member) :
    Member.fill p ms = writeAll p ms := by
  induction ms generalizing p with
  | nil => rw [Member.fill, writeAll_nil]
  | cons m ms ih => rw [Member.fill, writeAll_cons, ih]; rfl

theorem Item.toValues_eq (items : List Item) : Item.toValues items = items.map Item.toValue := by
  induction items with
  | nil => rw [Item.toValues, List.map_nil]
  | cons i items ih => rw [Item.toValues, List.map_cons, ih]

theorem Member.toValue_object (key : String) (ms : List Member) :
    (Member.object key ms).toValue = .object (Parameters.ofMembers ms) := by
  rw [Member.toValue, Member.fill_eq]
  rfl

theorem Member.toValue_array (key : String) (items : List Item) :
    (Member.array key items).toValue = .array (items.map Item.toValue) := by
  rw [Member.toValue, Item.toValues_eq]

theorem Item.toValue_object (ms : List Member) :
    (Item.object ms).toValue = .object (Parameters.ofMembers ms) := by
  rw [Item.toValue, Member.fill_eq]
  rfl

theorem Item.toValue_array (items : List Item) :
    (Item.array items).toValue = .array (items.map Item.toValue) := by
  rw [Item.toValue, Item.toValues_eq]

/-- The entry that a member adds to a container. -/
def Member.valueEntry (m : Member) : String × Value := (m.key, m.toValue)

/-- Members that are not null are inserted into a container they are written into. -/
theorem writeAll_container {ms : List Member} (h : ∀ m ∈ ms, m.toValue.isNull = false)
    (p : Parameters) : writeAll p ms = p.insertAll (ms.map Member.valueEntry) := by
  induction ms generalizing p with
  | nil => rfl
  | cons m ms ih =>
      rw [List.forall_mem_cons] at h
      have hwrite : ObjectSink.write p m = p.insert m.key m.toValue :=
        Parameters.assign_of_not_null p m.key h.1
      rw [writeAll_cons, hwrite, ih h.2, List.map_cons, OrderedMap.insertAll_cons]
      rfl

/-! ## 5. Values -/

theorem Value.key_member (key : String) (v : Value) : (v.member key).key = key := by
  rcases v with _ | _ | _ | _ | _ | _ | ⟨entries⟩ | _ <;> rfl

theorem Value.members_eq (entries : List (String × Value)) :
    Value.members entries = entries.map fun e => e.2.member e.1 := by
  induction entries with
  | nil => rw [Value.members, List.map_nil]
  | cons e entries ih => rw [Value.members, List.map_cons, ih]

/-- The document of a value. -/
def Value.toJson (v : Value) : Json := v.item.toJson

/-- A value has the same document under a key and in an array. -/
theorem Value.toJson_member (key : String) (v : Value) : (v.member key).toJson = v.toJson := by
  rcases v with _ | _ | _ | _ | _ | _ | ⟨entries⟩ | _ <;> rfl

theorem Value.jsonEntry_member (key : String) (v : Value) :
    (v.member key).jsonEntry = (key, v.toJson) := by
  rw [Member.jsonEntry, Value.key_member, Value.toJson_member]

/-- A container adds the documents of its values under their keys. -/
theorem Parameters.map_jsonEntry_members (p : Parameters) :
    p.members.map Member.jsonEntry = (p.map Value.toJson).entries := by
  obtain ⟨entries⟩ := p
  show (Value.members entries).map Member.jsonEntry = entries.map fun e => (e.1, e.2.toJson)
  induction entries with
  | nil => rfl
  | cons e entries ih =>
      rw [Value.members, List.map_cons, List.map_cons, ih, Value.jsonEntry_member]

namespace Value

theorem items_eq (vs : List Value) : items vs = vs.map item := by
  induction vs with
  | nil => rw [items, List.map_nil]
  | cons v vs ih => rw [items, List.map_cons, ih]

theorem toJson_array (vs : List Value) : (array vs).toJson = .array (vs.map toJson) := by
  rw [toJson, item, Item.toJson_array, items_eq, List.map_map]
  rfl

theorem toJson_object (p : Parameters) :
    (object p).toJson = .object (OrderedMap.empty.insertAll (p.map toJson).entries) := by
  rw [← Parameters.map_jsonEntry_members, ← JsonObject.ofMembers_eq, ← Item.toJson_object]
  obtain ⟨entries⟩ := p
  rfl

end Value

/-! ## 6. Queries -/

namespace Query

/-- What a query writes inside the object of its name. -/
def body (q : Query) : List Member := (q.form.map members).body

/-- A query writes what its topmost level does once the sub-queries are written. -/
theorem members_of (f : Form Query) : (of f).members = (f.map members).members :=
  cata_of Form.members f

/-- A query writes one member: an object under its name. -/
theorem members_eq (q : Query) : q.members = [.object q.name q.body] := by
  obtain ⟨form⟩ := q
  have hname : (form.map members).name = form.name := Form.name_map members form
  rw [members_of, Form.members, hname]
  rfl

end Query

end SearchQuery
