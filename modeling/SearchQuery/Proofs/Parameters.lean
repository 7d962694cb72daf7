import SearchQuery.Proofs.Equality.Values

/-!
# The containers that there are

A container is a list of entries, and not every list of entries is a container that can come up.
Containers are filled by a few operations, all of which come down to assigning keys one after the
other, and assigning keeps keys distinct and never stores null. Containers are also values, so the
same holds of the containers inside a container, at any depth (`Proper`). Conversely, a container
that is proper is made by collecting its own entries, so that the proper containers are exactly
those that the operations reach (`Parameters.built_iff_proper`).
-/

namespace SearchQuery

open OrderedMap

/-! ## 1. Proper containers -/

/-- In every container inside the value the keys are distinct and none of them holds null. An item
of an array may be null. -/
inductive Value.Proper : Value → Prop
  | null : Proper .null
  | boolean (b : Bool) : Proper (.boolean b)
  | float (x : Double) : Proper (.float x)
  | integer (n : Int64) : Proper (.integer n)
  | string (s : String) : Proper (.string s)
  | field (f : Field) : Proper (.field f)
  | array (items : List Value) (parts : ∀ v ∈ items, Proper v) : Proper (.array items)
  | object (members : OrderedMap Value) (distinct : members.Distinct)
    (notNull : ∀ e ∈ members.entries, e.2.isNull = false)
    (parts : ∀ e ∈ members.entries, Proper e.2) : Proper (.object members)

/-- The keys are distinct and none of them holds null, in the container and in those inside it. -/
structure Parameters.Proper (p : Parameters) : Prop where
  distinct : p.Distinct
  notNull : ∀ e ∈ p.entries, e.2.isNull = false
  parts : ∀ e ∈ p.entries, e.2.Proper

theorem Value.proper_object_iff {p : Parameters} : (Value.object p).Proper ↔ p.Proper := by
  constructor
  · intro h
    cases h with
    | object _ distinct notNull parts => exact ⟨distinct, notNull, parts⟩
  · exact fun h => .object p h.distinct h.notNull h.parts

/-- Equality asks only for distinct keys. -/
theorem Value.Proper.wellFormed {v : Value} (h : v.Proper) : v.WellFormed := by
  induction h with
  | null => exact .null
  | boolean b => exact .boolean b
  | float x => exact .float x
  | integer n => exact .integer n
  | string s => exact .string s
  | field f => exact .field f
  | array items _ ih => exact .array items ih
  | object members distinct _ _ ih => exact .object members distinct ih

namespace Parameters

theorem Proper.wellFormed {p : Parameters} (h : p.Proper) : p.WellFormed :=
  ⟨h.distinct, fun e he => (h.parts e he).wellFormed⟩

namespace Proper

theorem empty : Proper OrderedMap.empty :=
  ⟨distinct_empty, List.forall_mem_nil _, List.forall_mem_nil _⟩

/-- Null is not stored: assigning it takes a key away. -/
theorem assign {p : Parameters} (hp : p.Proper) (key : String) {v : Value} (hv : v.Proper) :
    (Parameters.assign p key v).Proper := by
  have hdistinct := distinct_assign hp.distinct key v
  by_cases hnull : v.isNull = true
  · obtain rfl : v = .null := by
      cases v with
      | null => rfl
      | _ => cases hnull
    -- The entries that are left were there before.
    refine ⟨hdistinct, ?_, ?_⟩
    · intro e he
      exact hp.notNull e (List.mem_of_mem_filter he)
    · intro e he
      exact hp.parts e (List.mem_of_mem_filter he)
  · have hnotNull : v.isNull = false := Bool.not_eq_true _ ▸ hnull
    rw [assign_of_not_null p key hnotNull] at hdistinct ⊢
    refine ⟨hdistinct, ?_, ?_⟩
    · exact forall_insertAll (P := fun v : Value => v.isNull = false) (l := [(key, v)]) hp.notNull
        (List.forall_mem_singleton.mpr hnotNull)
    · exact forall_insertAll (l := [(key, v)]) hp.parts (List.forall_mem_singleton.mpr hv)

theorem merge {p : Parameters} (hp : p.Proper) {entries : List (String × Value)}
    (h : ∀ e ∈ entries, e.2.Proper) : (Parameters.merge p entries).Proper := by
  induction entries generalizing p with
  | nil => exact hp
  | cons e entries ih =>
      rw [List.forall_mem_cons] at h
      exact ih (hp.assign e.1 h.1) h.2

end Proper

/-- Entries none of which is null are merged by inserting them. -/
theorem merge_of_not_null {entries : List (String × Value)}
    (h : ∀ e ∈ entries, e.2.isNull = false) (p : Parameters) :
    merge p entries = p.insertAll entries := by
  induction entries generalizing p with
  | nil => rfl
  | cons e entries ih =>
      rw [List.forall_mem_cons] at h
      show merge (assign p e.1 e.2) entries = (p.insert e.1 e.2).insertAll entries
      rw [assign_of_not_null p e.1 h.1, ih h.2]

/-- A proper container is what its own entries build up. -/
theorem Proper.ofEntries_entries {p : Parameters} (hp : p.Proper) : ofEntries p.entries = p := by
  rw [ofEntries, merge_of_not_null hp.notNull]
  exact insertAll_empty hp.distinct

end Parameters

/-! ## 2. What a sink makes -/

theorem Parameters.Proper.writeAll {p : Parameters} (hp : p.Proper) {ms : List Member}
    (h : ∀ m ∈ ms, m.toValue.Proper) : Parameters.Proper (SearchQuery.writeAll p ms) := by
  induction ms generalizing p with
  | nil => exact hp
  | cons m ms ih =>
      rw [List.forall_mem_cons] at h
      exact ih (hp.assign m.key h.1) h.2

theorem Scalar.proper_toValue (s : Scalar) : s.toValue.Proper := by
  cases s with
  | null => exact .null
  | boolean b => exact .boolean b
  | integer n => exact .integer n
  | float x => exact .float x
  | string s => exact .string s

theorem proper_parts : PartsToWhole (fun _ => True) (fun m => m.toValue.Proper)
    (fun i => i.toValue.Proper) where
  field key s _ := by
    rw [Member.toValue]
    exact s.proper_toValue
  object key ms h := by
    rw [Member.toValue_object, Value.proper_object_iff]
    exact Parameters.Proper.empty.writeAll h
  array key items h := by
    rw [Member.toValue_array]
    exact .array _ (List.forall_mem_map.mpr h)
  value s _ := by
    rw [Item.toValue]
    exact s.proper_toValue
  objectItem ms h := by
    rw [Item.toValue_object, Value.proper_object_iff]
    exact Parameters.Proper.empty.writeAll h
  arrayItem items h := by
    rw [Item.toValue_array]
    exact .array _ (List.forall_mem_map.mpr h)

/-- Whatever is written into a container is stored as a proper value. -/
theorem Member.proper_toValue (m : Member) : m.toValue.Proper :=
  proper_parts.member m fun _ _ => trivial

/-! ## 3. Operations -/

namespace Parameters

/-- What can be done to a container that is being filled. To extend it is to merge, and a container
that is spelled out, with its base or without one, is merged from them. -/
inductive Operation where
  /-- One key is assigned. -/
  | set (key : String) (value : Value)
  /-- Entries are assigned on top of what is there, first to last. -/
  | merge (entries : List (String × Value))
  /-- The container is replaced by a base, if there is one, with entries on top of it. -/
  | merged (base : Option Parameters) (entries : List (String × Value))
  /-- The container is replaced by the one that is collected from entries. -/
  | collect (entries : List (String × Value))
  /-- The container is an open object into which a field, an object or an array is written. -/
  | write (member : Member)

namespace Operation

def apply (p : Parameters) : Operation → Parameters
  | set key value => assign p key value
  | merge entries => Parameters.merge p entries
  | merged base entries => Parameters.merge (base.getD OrderedMap.empty) entries
  | collect entries => ofEntries entries
  | write member => ObjectSink.write p member

/-- The values that an operation is given. What is written into a sink is not a value yet. -/
def values : Operation → List Value
  | set _ value => [value]
  | merge entries => entries.map Prod.snd
  | merged base entries => (base.map Value.object).toList ++ entries.map Prod.snd
  | collect entries => entries.map Prod.snd
  | write _ => []

/-- A container is replaced by a proper one with proper values on top. -/
theorem proper_base {base : Option Parameters} {entries : List (String × Value)}
    (h : ∀ v ∈ (merged base entries).values, v.Proper) :
    (base.getD OrderedMap.empty : Parameters).Proper ∧ ∀ e ∈ entries, e.2.Proper := by
  rw [values, List.forall_mem_append, List.forall_mem_map] at h
  refine ⟨?_, h.2⟩
  obtain _ | base := base
  · exact .empty
  · exact Value.proper_object_iff.mp (h.1 _ List.mem_cons_self)

theorem proper_apply {p : Parameters} (hp : p.Proper) {op : Operation}
    (hop : ∀ v ∈ op.values, v.Proper) : (op.apply p).Proper := by
  cases op with
  | set key value => exact hp.assign key (hop value List.mem_cons_self)
  | merge entries => exact hp.merge (List.forall_mem_map.mp hop)
  | merged base entries =>
      obtain ⟨hbase, hentries⟩ := proper_base hop
      exact hbase.merge hentries
  | collect entries => exact Proper.empty.merge (List.forall_mem_map.mp hop)
  | write member => exact hp.assign member.key member.proper_toValue

end Operation

end Parameters

/-- The values that can be made: data that contain no others, arrays of values that can be made, and
containers that the operations make of such values, starting from the empty one. -/
inductive Value.Built : Value → Prop
  | scalar (s : Scalar) : Built s.toValue
  | field (f : Field) : Built (.field f)
  | array (items : List Value) (parts : ∀ v ∈ items, Built v) : Built (.array items)
  | empty : Built (.object OrderedMap.empty)
  | apply {p : Parameters} (hp : Built (.object p)) (op : Parameters.Operation)
    (hop : ∀ v ∈ op.values, Built v) : Built (.object (op.apply p))

theorem Value.Built.proper {v : Value} (h : v.Built) : v.Proper := by
  induction h with
  | scalar s => exact s.proper_toValue
  | field f => exact .field f
  | array items _ ih => exact .array items ih
  | empty => exact proper_object_iff.mpr .empty
  | apply _ op _ ihp ihop =>
      exact proper_object_iff.mpr
        (Parameters.Operation.proper_apply (proper_object_iff.mp ihp) ihop)

theorem Value.built_ofEntries {entries : List (String × Value)} (h : ∀ e ∈ entries, e.2.Built) :
    (Value.object (Parameters.ofEntries entries)).Built :=
  .apply .empty (.collect entries) (List.forall_mem_map.mpr h)

theorem Value.Proper.built {v : Value} (h : v.Proper) : v.Built := by
  induction h with
  | null => exact .scalar .null
  | boolean b => exact .scalar (.boolean b)
  | float x => exact .scalar (.float x)
  | integer n => exact .scalar (.integer n)
  | string s => exact .scalar (.string s)
  | field f => exact .field f
  | array items _ ih => exact .array items ih
  | object p distinct notNull parts ih =>
      -- One operation is enough: the container is collected from its own entries.
      have hcollect : Parameters.ofEntries p.entries = p :=
        Parameters.Proper.ofEntries_entries ⟨distinct, notNull, parts⟩
      rw [← hcollect]
      exact built_ofEntries ih

namespace Parameters

/-- The container can be made by the operations. -/
def Built (p : Parameters) : Prop := (Value.object p).Built

/-- **The operations reach exactly the proper containers.** -/
theorem built_iff_proper {p : Parameters} : p.Built ↔ p.Proper :=
  ⟨fun h => Value.proper_object_iff.mp h.proper, fun h => (Value.proper_object_iff.mpr h).built⟩

end Parameters

end SearchQuery
