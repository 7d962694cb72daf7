import SearchQuery.Value

/-!
# Ordered maps after many insertions

What a map holds after one insertion is settled beside its definition. Here are the laws of a whole
run of insertions, `insertAll`: a key holds what was inserted last, keys that were there keep their
places, and new keys follow in the order in which they came. All of it is stated on what a map says
to the outside, which is `get?` and `keys`.
-/

namespace SearchQuery

namespace OrderedMap

variable {α β : Type}

/-! ## 1. Keys and what they hold -/

theorem findEntry_eq_none_iff {key : String} {l : List (String × α)} :
    findEntry key l = none ↔ key ∉ l.map Prod.fst := by
  induction l with
  | nil => exact ⟨fun _ => List.not_mem_nil, fun _ => rfl⟩
  | cons e l ih =>
      rw [findEntry, List.map_cons, List.mem_cons, not_or]
      by_cases he : e.1 = key
      · rw [if_pos he]
        exact ⟨fun h => absurd h (Option.some_ne_none e.2), fun h => absurd he.symm h.1⟩
      · rw [if_neg he, ih]
        exact ⟨fun h => ⟨Ne.symm he, h⟩, fun h => h.2⟩

theorem isSome_get?_iff {m : OrderedMap α} {key : String} :
    (m.get? key).isSome = true ↔ key ∈ m.keys := by
  rw [Option.isSome_iff_ne_none, ne_eq, get?, findEntry_eq_none_iff, Classical.not_not]
  rfl

theorem distinct_empty : (empty : OrderedMap α).Distinct := List.nodup_nil

/-- A changed map holds the changed values. -/
theorem get?_map (f : α → β) (m : OrderedMap α) (key : String) :
    (m.map f).get? key = (m.get? key).map f := by
  have entry (l : List (String × α)) :
      findEntry key (l.map fun e => (e.1, f e.2)) = (findEntry key l).map f := by
    induction l with
    | nil => rfl
    | cons e l ih =>
        rw [List.map_cons, findEntry, findEntry]
        by_cases he : e.1 = key
        · rw [if_pos he, if_pos he, Option.map_some]
        · rw [if_neg he, if_neg he, ih]
  exact entry m.entries

@[simp] theorem keys_map (f : α → β) (m : OrderedMap α) : (m.map f).keys = m.keys := by
  simp only [keys, map, List.map_map]
  rfl

/-! ## 2. One insertion -/

/-- Inserting keeps the keys in their places; only a new key is added, at the end. -/
theorem keys_insert (m : OrderedMap α) (key : String) (value : α) :
    (m.insert key value).keys = if key ∈ m.keys then m.keys else m.keys ++ [key] := by
  by_cases hmem : key ∈ m.keys
  · rw [if_pos hmem, keys_insert_of_mem value hmem]
  · rw [if_neg hmem, keys_insert_of_not_mem value hmem]

theorem mem_keys_insert {m : OrderedMap α} {key k : String} {value : α} :
    k ∈ (m.insert key value).keys ↔ k = key ∨ k ∈ m.keys := by
  rw [keys_insert]
  split
  · exact ⟨Or.inr, fun h => h.elim (fun h => h ▸ ‹key ∈ m.keys›) id⟩
  · rw [List.mem_append, List.mem_singleton, or_comm]

/-- The changed map is the same map but for one key, which holds `value` and stands where it stood
before, or at the end if it is new. -/
structure SetsOnly (m changed : OrderedMap α) (key : String) (value : α) : Prop where
  there : changed.get? key = some value
  others : ∀ k, k ≠ key → changed.get? k = m.get? k
  keys : changed.keys = if key ∈ m.keys then m.keys else m.keys ++ [key]

theorem setsOnly_insert (m : OrderedMap α) (key : String) (value : α) :
    SetsOnly m (m.insert key value) key value := by
  refine ⟨?_, fun k hk => ?_, keys_insert m key value⟩
  · rw [get?_insert, if_pos rfl]
  · rw [get?_insert, if_neg hk]

/-- Maps with the same keys in the same order that hold the same under each key are the same. -/
theorem eq_of_get?_eq {m n : OrderedMap α} (hm : m.Distinct) (hkeys : m.keys = n.keys)
    (hget : ∀ key, m.get? key = n.get? key) : m = n := by
  have entries (l l' : List (String × α)) (hl : (l.map Prod.fst).Nodup)
      (hkeys : l.map Prod.fst = l'.map Prod.fst)
      (hget : ∀ key, findEntry key l = findEntry key l') : l = l' := by
    induction l generalizing l' with
    | nil => exact (List.map_eq_nil_iff.mp hkeys.symm).symm
    | cons e l ih =>
        obtain _ | ⟨e', l'⟩ := l'
        · cases hkeys
        rw [List.map_cons, List.map_cons, List.cons.injEq] at hkeys
        rw [List.map_cons, List.nodup_cons] at hl
        have hvalue := hget e.1
        rw [findEntry, findEntry, if_pos rfl, if_pos hkeys.1.symm, Option.some.injEq] at hvalue
        have htail : ∀ key, findEntry key l = findEntry key l' := by
          intro key
          by_cases hkey : e.1 = key
          · -- Neither rest has the key of the first entry again.
            have hnone : findEntry key l = none := findEntry_eq_none_iff.mpr (hkey ▸ hl.1)
            have hnone' : findEntry key l' = none := by
              rw [findEntry_eq_none_iff, ← hkeys.2, ← hkey]
              exact hl.1
            rw [hnone, hnone']
          · have hrest := hget key
            rwa [findEntry, findEntry, if_neg hkey, if_neg (hkeys.1 ▸ hkey)] at hrest
        rw [Prod.ext hkeys.1 hvalue, ih l' hl.2 hkeys.2 htail]
  exact congrArg OrderedMap.mk (entries m.entries n.entries hm hkeys hget)

/-- Changing the values may come before an insertion or after it. -/
theorem map_insert (f : α → β) (m : OrderedMap α) (key : String) (value : α) :
    (m.insert key value).map f = (m.map f).insert key (f value) := by
  have entries (l : List (String × α)) :
      (insertEntry key value l).map (fun e => (e.1, f e.2))
        = insertEntry key (f value) (l.map fun e => (e.1, f e.2)) := by
    induction l with
    | nil => rfl
    | cons e l ih =>
        rw [insertEntry, List.map_cons, insertEntry]
        by_cases he : e.1 = key
        · rw [if_pos he, if_pos he, List.map_cons]
        · rw [if_neg he, if_neg he, List.map_cons, ih]
  exact congrArg OrderedMap.mk (entries m.entries)

/-! ## 3. Many insertions -/

/-- Inserts every entry, first to last. -/
def insertAll (m : OrderedMap α) (entries : List (String × α)) : OrderedMap α :=
  entries.foldl (fun m e => m.insert e.1 e.2) m

@[simp] theorem insertAll_nil (m : OrderedMap α) : m.insertAll [] = m := rfl

@[simp] theorem insertAll_cons (m : OrderedMap α) (e : String × α) (l : List (String × α)) :
    m.insertAll (e :: l) = (m.insert e.1 e.2).insertAll l := rfl

theorem Distinct.insertAll {m : OrderedMap α} (h : m.Distinct) (l : List (String × α)) :
    (m.insertAll l).Distinct := by
  induction l generalizing m with
  | nil => exact h
  | cons e l ih => exact ih (h.insert e.1 e.2)

/-- Of entries with different keys, a key holds its own if it has one, and otherwise what it held
before. -/
theorem get?_insertAll {l : List (String × α)} (hl : (l.map Prod.fst).Nodup) (m : OrderedMap α)
    (key : String) : (m.insertAll l).get? key = (findEntry key l).or (m.get? key) := by
  induction l generalizing m with
  | nil => rfl
  | cons e l ih =>
      rw [List.map_cons, List.nodup_cons] at hl
      rw [insertAll_cons, ih hl.2, get?_insert, findEntry]
      by_cases he : e.1 = key
      · -- The key has been set, and no later entry has it.
        have hnone : findEntry key l = none := findEntry_eq_none_iff.mpr (he ▸ hl.1)
        rw [hnone, if_pos he, if_pos he.symm, Option.none_or, Option.some_or]
      · rw [if_neg he, if_neg (Ne.symm he)]

/-- Entries with different keys leave the keys that are there in their places and add the new ones
at the end, in their own order. -/
theorem keys_insertAll {l : List (String × α)} (hl : (l.map Prod.fst).Nodup) (m : OrderedMap α) :
    (m.insertAll l).keys = m.keys ++ (l.map Prod.fst).filter (· ∉ m.keys) := by
  induction l generalizing m with
  | nil => rw [insertAll_nil, List.map_nil, List.filter_nil, List.append_nil]
  | cons e l ih =>
      rw [List.map_cons, List.nodup_cons] at hl
      -- The keys that come after `e` are different from its own, so it does not matter to them
      -- that it has been inserted.
      have hrest : (l.map Prod.fst).filter (· ∉ (m.insert e.1 e.2).keys)
          = (l.map Prod.fst).filter (· ∉ m.keys) := by
        refine List.filter_congr fun k hk => ?_
        have hne : k ≠ e.1 := fun h => hl.1 (h ▸ hk)
        simp only [mem_keys_insert, hne, false_or]
      rw [insertAll_cons, ih hl.2, hrest, keys_insert, List.map_cons]
      by_cases hmem : e.1 ∈ m.keys
      · rw [if_pos hmem, List.filter_cons_of_neg (by simpa using hmem)]
      · rw [if_neg hmem, List.filter_cons_of_pos (by simpa using hmem), List.append_assoc,
          List.singleton_append]

/-- Entries with different keys build up the map of just these entries. -/
theorem insertAll_empty {l : List (String × α)} (hl : (l.map Prod.fst).Nodup) :
    (empty : OrderedMap α).insertAll l = ⟨l⟩ := by
  have append (m : OrderedMap α) (hm : ∀ k ∈ l.map Prod.fst, k ∉ m.keys) :
      m.insertAll l = ⟨m.entries ++ l⟩ := by
    induction l generalizing m with
    | nil => rw [insertAll_nil, List.append_nil]
    | cons e l ih =>
        rw [List.map_cons, List.nodup_cons] at hl
        rw [List.map_cons, List.forall_mem_cons] at hm
        have hinsert : m.insert e.1 e.2 = ⟨m.entries ++ [e]⟩ :=
          congrArg OrderedMap.mk (insertEntry_of_not_mem e.2 hm.1)
        have hfresh : ∀ k ∈ l.map Prod.fst, k ∉ (m.insert e.1 e.2).keys := by
          intro k hk
          have hne : k ≠ e.1 := fun h => hl.1 (h ▸ hk)
          rw [mem_keys_insert, not_or]
          exact ⟨hne, hm.2 k hk⟩
        rw [insertAll_cons, ih hl.2 _ hfresh, hinsert, List.append_assoc, List.singleton_append]
  exact append empty fun _ _ => List.not_mem_nil

/-- Changing the values may come before a run of insertions or after it. -/
theorem map_insertAll (f : α → β) (m : OrderedMap α) (l : List (String × α)) :
    (m.insertAll l).map f = (m.map f).insertAll (l.map fun e => (e.1, f e.2)) := by
  induction l generalizing m with
  | nil => rfl
  | cons e l ih => rw [insertAll_cons, ih, map_insert, List.map_cons, insertAll_cons]

/-- Every value that is held after a run of insertions was held before or has been inserted. -/
theorem forall_insertAll {P : α → Prop} {m : OrderedMap α} (hm : ∀ e ∈ m.entries, P e.2)
    {l : List (String × α)} (hl : ∀ e ∈ l, P e.2) : ∀ e ∈ (m.insertAll l).entries, P e.2 := by
  have entry {key : String} {value : α} (hvalue : P value) (es : List (String × α))
      (hes : ∀ e ∈ es, P e.2) : ∀ e ∈ insertEntry key value es, P e.2 := by
    induction es with
    | nil => exact List.forall_mem_singleton.mpr hvalue
    | cons e es ih =>
        rw [List.forall_mem_cons] at hes
        rw [insertEntry]
        split
        · exact List.forall_mem_cons.mpr ⟨hvalue, hes.2⟩
        · exact List.forall_mem_cons.mpr ⟨hes.1, ih hes.2⟩
  induction l generalizing m with
  | nil => exact hm
  | cons e l ih =>
      rw [List.forall_mem_cons] at hl
      exact ih (entry hl.1 m.entries hm) hl.2

/-! ## 4. Fields that may be absent -/

/-- The fields that are there, in order. -/
def present (fields : List (String × Option α)) : List (String × α) :=
  fields.filterMap fun field => field.2.map fun value => (field.1, value)

theorem present_nil : present ([] : List (String × Option α)) = [] := rfl

theorem present_cons (key : String) (value : Option α) (fields : List (String × Option α)) :
    present ((key, value) :: fields) = (value.map fun v => (key, v)).toList ++ present fields := by
  rcases value with _ | v <;> rfl

/-- Fields keep their order when some of them are absent. -/
theorem present_keys_sublist (fields : List (String × Option α)) :
    ((present fields).map Prod.fst).Sublist (fields.map Prod.fst) := by
  induction fields with
  | nil => exact List.Sublist.slnil
  | cons field fields ih =>
      rw [present_cons, List.map_append, List.map_cons]
      rcases field.2 with _ | v
      · exact ih.cons field.1
      · exact ih.cons_cons field.1

/-- Where no field stands twice, an absent one is not found, and any other one with what it
holds. -/
theorem findEntry_present {fields : List (String × Option α)}
    (h : (fields.map Prod.fst).Nodup) (key : String) :
    findEntry key (present fields) = (findEntry key fields).join := by
  induction fields with
  | nil => rfl
  | cons field fields ih =>
      rw [List.map_cons, List.nodup_cons] at h
      rw [present_cons, findEntry]
      by_cases hkey : field.1 = key
      · -- Whether it is there or not, no later field has the key.
        have hnone : findEntry key (present fields) = none := by
          rw [findEntry_eq_none_iff, ← hkey]
          exact fun hmem => h.1 ((present_keys_sublist fields).subset hmem)
        rw [if_pos hkey, Option.join_some]
        rcases field.2 with _ | v
        · exact hnone
        · exact if_pos hkey
      · rw [if_neg hkey, ← ih h.2]
        rcases field.2 with _ | v
        · rfl
        · exact if_neg hkey

/-! ## 5. New keys

What is added to a map may be told from what is there by its key alone, be it an entry or just a
key. -/

theorem mem_append_new {keys keys' : List String} {key : String} :
    key ∈ keys ++ keys'.filter (· ∉ keys) ↔ key ∈ keys ∨ key ∈ keys' := by
  rw [List.mem_append, List.mem_filter, decide_eq_true_iff]
  by_cases hkey : key ∈ keys
  · exact iff_of_true (Or.inl hkey) (Or.inl hkey)
  · exact or_congr_right (and_iff_left hkey)

theorem filter_new_of_old {f : β → String} {keys : List String} {l : List β}
    (h : ∀ b ∈ l, f b ∈ keys) : l.filter (f · ∉ keys) = [] := by
  rw [List.filter_eq_nil_iff]
  intro b hb hnew
  exact of_decide_eq_true hnew (h b hb)

theorem filter_new_of_new {f : β → String} {keys : List String} {l : List β}
    (h : ∀ b ∈ l, f b ∉ keys) : l.filter (f · ∉ keys) = l := by
  rw [List.filter_eq_self]
  intro b hb
  exact decide_eq_true (h b hb)

/-- New to the keys of both maps is what is new to those of the one and then to those of the
other. -/
theorem filter_new_of_both (f : β → String) {keys keys' both : List String}
    (h : ∀ key, key ∈ both ↔ key ∈ keys ∨ key ∈ keys') (l : List β) :
    l.filter (f · ∉ both) = (l.filter (f · ∉ keys')).filter (f · ∉ keys) := by
  rw [List.filter_filter]
  refine List.filter_congr fun b _ => ?_
  simp only [h, not_or, Bool.decide_and]

end OrderedMap

namespace Parameters

open OrderedMap

/-! ## 6. Assignment -/

/-- Assigning sets a key, or takes it away if the value is null, and touches no other key. -/
theorem get?_assign (p : Parameters) (key : String) (value : Value) (k : String) :
    (assign p key value).get? k
      = if k = key then (if value.isNull then none else some value) else p.get? k := by
  rcases value with _ | _ | _ | _ | _ | _ | _ | _ <;>
    simp only [assign, Value.isNull, get?_erase, get?_insert, if_true, Bool.false_eq_true, if_false]

/-- Assigning something that is not null is inserting it. -/
theorem assign_of_not_null (p : Parameters) (key : String) {value : Value}
    (h : value.isNull = false) : assign p key value = p.insert key value := by
  rcases value with _ | _ | _ | _ | _ | _ | _ | _
  · cases h
  all_goals rfl

/-- Assigning null takes the key out. Anything else leaves the keys in their places, and a new key
comes last. -/
theorem keys_assign (p : Parameters) (key : String) (value : Value) :
    (assign p key value).keys
      = if value.isNull then p.keys.filter (· ≠ key)
        else if key ∈ p.keys then p.keys else p.keys ++ [key] := by
  cases value with
  | null => exact keys_erase p key
  | _ => exact keys_insert p key _

theorem distinct_assign {p : Parameters} (h : p.Distinct) (key : String) (value : Value) :
    (assign p key value).Distinct := by
  by_cases hnull : value.isNull
  · have hvalue : value = .null := by
      cases value with
      | null => rfl
      | _ => cases hnull
    rw [hvalue]
    exact h.erase key
  · rw [assign_of_not_null p key (Bool.not_eq_true _ ▸ hnull)]
    exact h.insert key value

end Parameters

end SearchQuery
