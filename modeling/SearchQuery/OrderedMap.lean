/-!
# Maps that remember insertion order

Options, parameters and documents are maps from strings whose order can be seen in what is
written. A key keeps the place at which it was first inserted: a later insertion changes the value
in place, and only removing a key and inserting it again moves it to the end.
-/

namespace SearchQuery

/-- A map from strings as the list of its entries, in insertion order. The operations below keep
the keys distinct (`OrderedMap.Distinct`). -/
structure OrderedMap (α : Type) where
  entries : List (String × α)
  deriving Inhabited, DecidableEq

namespace OrderedMap

variable {α β : Type}

/-! ## 1. Looking -/

def empty : OrderedMap α := ⟨[]⟩

instance : EmptyCollection (OrderedMap α) := ⟨empty⟩

def keys (m : OrderedMap α) : List String := m.entries.map Prod.fst

def size (m : OrderedMap α) : Nat := m.entries.length

def isEmpty (m : OrderedMap α) : Bool := m.entries.isEmpty

/-- The value of the first entry with the key. -/
def findEntry (key : String) : List (String × α) → Option α
  | [] => none
  | (k, v) :: rest => if k = key then some v else findEntry key rest

def get? (m : OrderedMap α) (key : String) : Option α := findEntry key m.entries

def contains (m : OrderedMap α) (key : String) : Bool := (m.get? key).isSome

/-- No key stands twice. -/
def Distinct (m : OrderedMap α) : Prop := m.keys.Nodup

/-! ## 2. Changing -/

/-- The entries with `key` bound to `value`: in its place if it is there, at the end if not. -/
def insertEntry (key : String) (value : α) : List (String × α) → List (String × α)
  | [] => [(key, value)]
  | (k, v) :: rest =>
    if k = key then (key, value) :: rest else (k, v) :: insertEntry key value rest

def insert (m : OrderedMap α) (key : String) (value : α) : OrderedMap α :=
  ⟨insertEntry key value m.entries⟩

@[simp] theorem entries_insert (m : OrderedMap α) (key : String) (value : α) :
    (m.insert key value).entries = insertEntry key value m.entries := rfl

theorem insertEntry_of_mem {key : String} (value : α) {l : List (String × α)}
    (h : key ∈ l.map Prod.fst) : (insertEntry key value l).map Prod.fst = l.map Prod.fst := by
  induction l with
  | nil => simp at h
  | cons e l ih =>
    by_cases hk : e.1 = key
    · simp [insertEntry, hk]
    · have hl : key ∈ l.map Prod.fst := by
        rcases List.mem_cons.1 h with h | h
        · exact absurd h.symm hk
        · exact h
      simp only [insertEntry, if_neg hk, List.map_cons, ih hl]

theorem insertEntry_of_not_mem {key : String} (value : α) {l : List (String × α)}
    (h : key ∉ l.map Prod.fst) : insertEntry key value l = l ++ [(key, value)] := by
  induction l with
  | nil => rfl
  | cons e l ih =>
    rw [List.map_cons, List.mem_cons, not_or] at h
    simp only [insertEntry, if_neg (Ne.symm h.1), ih h.2, List.cons_append]

/-- Inserting under a key that is there keeps the keys and their order. -/
theorem keys_insert_of_mem {m : OrderedMap α} {key : String} (value : α) (h : key ∈ m.keys) :
    (m.insert key value).keys = m.keys :=
  insertEntry_of_mem value h

/-- Inserting under a new key puts it at the end. -/
theorem keys_insert_of_not_mem {m : OrderedMap α} {key : String} (value : α)
    (h : key ∉ m.keys) : (m.insert key value).keys = m.keys ++ [key] := by
  simp only [keys, entries_insert, insertEntry_of_not_mem value h, List.map_append, List.map_cons,
    List.map_nil]

/-- A key holds the value inserted last, and every other key what it held. -/
theorem get?_insert (m : OrderedMap α) (key : String) (value : α) (k : String) :
    (m.insert key value).get? k = if k = key then some value else m.get? k := by
  have entry (l : List (String × α)) :
      findEntry k (insertEntry key value l) = if k = key then some value else findEntry k l := by
    induction l with
    | nil => simp only [insertEntry, findEntry, eq_comm]
    | cons e l ih =>
      by_cases he : e.1 = key
      · by_cases hk : k = key
        · simp [insertEntry, findEntry, he, hk]
        · simp [insertEntry, findEntry, he, hk, Ne.symm hk]
      · rw [insertEntry, if_neg he, findEntry, findEntry, ih]
        by_cases hk : k = key
        · simp [hk, he]
        · simp [hk]
  exact entry m.entries

/-- Removes a key; the entries after it move up. -/
def erase (m : OrderedMap α) (key : String) : OrderedMap α :=
  ⟨m.entries.filter fun e => e.1 ≠ key⟩

theorem keys_erase (m : OrderedMap α) (key : String) :
    (m.erase key).keys = m.keys.filter (· ≠ key) := by
  simp only [keys, erase, List.filter_map, Function.comp_def]

/-- A removed key holds nothing, and every other key what it held. -/
theorem get?_erase (m : OrderedMap α) (key k : String) :
    (m.erase key).get? k = if k = key then none else m.get? k := by
  have entry (l : List (String × α)) :
      findEntry k (l.filter fun e => e.1 ≠ key) = if k = key then none else findEntry k l := by
    induction l with
    | nil => simp [findEntry]
    | cons e l ih =>
      by_cases he : e.1 = key
      · rw [List.filter_cons_of_neg (by simp [he]), ih]
        by_cases hk : k = key
        · simp [hk]
        · simp [findEntry, he, hk, Ne.symm hk]
      · rw [List.filter_cons_of_pos (by simp [he]), findEntry, ih]
        by_cases hk : k = key
        · simp [hk, he]
        · simp [findEntry, hk]
  exact entry m.entries

theorem Distinct.insert {m : OrderedMap α} (h : m.Distinct) (key : String) (value : α) :
    (m.insert key value).Distinct := by
  by_cases hk : key ∈ m.keys
  · rw [Distinct, keys_insert_of_mem value hk]
    exact h
  · rw [Distinct, keys_insert_of_not_mem value hk]
    exact List.nodup_append.2 ⟨h, by simp, fun a ha b hb => by simp_all; rintro rfl; exact hk ha⟩

theorem Distinct.erase {m : OrderedMap α} (h : m.Distinct) (key : String) :
    (m.erase key).Distinct := by
  rw [Distinct, keys_erase]
  exact List.Pairwise.filter _ h

/-- The values changed, the keys and their order kept. -/
def map (f : α → β) (m : OrderedMap α) : OrderedMap β :=
  ⟨m.entries.map fun e => (e.1, f e.2)⟩

end OrderedMap

end SearchQuery
