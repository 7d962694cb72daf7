import Mathlib.Data.List.Nodup
import SearchQuery.Proofs.Writing

/-!
# Descriptions that overwrite nothing

Where a key is written twice into one object, a document keeps the last value only. `KeysApart` says
of a description that this happens in no object it opens. That is what it takes for a document to
hold all that has been written: `literals` is the document read off a description as it stands, one
entry for each member, and it is the document that the description builds up exactly if no keys
clash (`ofMembers_eq_literals_iff`).
-/

namespace SearchQuery

open OrderedMap

/-! ## 1. Keys that are apart -/

mutual

/-- In every object opened for the member the keys are pairwise distinct. -/
def Member.KeysApart : Member → Prop
  | .scalar _ _ => True
  | .object _ ms => (ms.map Member.key).Nodup ∧ Member.AllApart ms
  | .array _ items => Item.AllApart items

/-- In every object opened for the item the keys are pairwise distinct. -/
def Item.KeysApart : Item → Prop
  | .scalar _ => True
  | .object ms => (ms.map Member.key).Nodup ∧ Member.AllApart ms
  | .array items => Item.AllApart items

def Member.AllApart : List Member → Prop
  | [] => True
  | m :: rest => Member.KeysApart m ∧ Member.AllApart rest

def Item.AllApart : List Item → Prop
  | [] => True
  | i :: rest => Item.KeysApart i ∧ Item.AllApart rest

end

/-- The members have pairwise distinct keys, and so have the members of every object in them. -/
structure KeysApart (ms : List Member) : Prop where
  keys : (ms.map Member.key).Nodup
  parts : ∀ m ∈ ms, m.KeysApart

theorem Member.allApart_iff {ms : List Member} : Member.AllApart ms ↔ ∀ m ∈ ms, m.KeysApart := by
  induction ms with
  | nil => exact iff_of_true trivial fun m hm => absurd hm List.not_mem_nil
  | cons m ms ih => rw [Member.AllApart, List.forall_mem_cons, ih]

theorem Item.allApart_iff {items : List Item} :
    Item.AllApart items ↔ ∀ i ∈ items, i.KeysApart := by
  induction items with
  | nil => exact iff_of_true trivial fun i hi => absurd hi List.not_mem_nil
  | cons i items ih => rw [Item.AllApart, List.forall_mem_cons, ih]

theorem Member.keysApart_object {key : String} {ms : List Member} :
    (Member.object key ms).KeysApart ↔ SearchQuery.KeysApart ms := by
  rw [Member.KeysApart, Member.allApart_iff]
  exact ⟨fun h => ⟨h.1, h.2⟩, fun h => ⟨h.keys, h.parts⟩⟩

theorem Member.keysApart_array {key : String} {items : List Item} :
    (Member.array key items).KeysApart ↔ ∀ i ∈ items, i.KeysApart := by
  rw [Member.KeysApart, Item.allApart_iff]

theorem Item.keysApart_object {ms : List Member} :
    (Item.object ms).KeysApart ↔ SearchQuery.KeysApart ms := by
  rw [Item.KeysApart, Member.allApart_iff]
  exact ⟨fun h => ⟨h.1, h.2⟩, fun h => ⟨h.keys, h.parts⟩⟩

theorem Item.keysApart_array {items : List Item} :
    (Item.array items).KeysApart ↔ ∀ i ∈ items, i.KeysApart := by
  rw [Item.KeysApart, Item.allApart_iff]

namespace KeysApart

theorem nil : KeysApart [] := ⟨List.nodup_nil, fun _ hm => absurd hm List.not_mem_nil⟩

theorem single_iff {m : Member} : KeysApart [m] ↔ m.KeysApart := by
  refine ⟨fun h => h.parts m List.mem_cons_self, fun h => ⟨List.nodup_singleton _, ?_⟩⟩
  exact List.forall_mem_singleton.mpr h

/-- Of two groups of members each has to have its keys apart, and no key may be in both. -/
theorem append_iff {ms ns : List Member} :
    KeysApart (ms ++ ns) ↔
      KeysApart ms ∧ KeysApart ns ∧ (ms.map Member.key).Disjoint (ns.map Member.key) := by
  constructor
  · rintro ⟨hkeys, hparts⟩
    rw [List.map_append, List.nodup_append'] at hkeys
    rw [List.forall_mem_append] at hparts
    exact ⟨⟨hkeys.1, hparts.1⟩, ⟨hkeys.2.1, hparts.2⟩, hkeys.2.2⟩
  · rintro ⟨hms, hns, hdisjoint⟩
    refine ⟨?_, List.forall_mem_append.mpr ⟨hms.parts, hns.parts⟩⟩
    rw [List.map_append, List.nodup_append']
    exact ⟨hms.keys, hns.keys, hdisjoint⟩

end KeysApart

/-! ## 2. The document as it is written -/

mutual

/-- The document of a member with everything in it as it is written. -/
def Member.literal : Member → Json
  | .scalar _ value => value.toJson
  | .object _ ms => .object ⟨Member.literals ms⟩
  | .array _ items => .array (Item.literals items)

/-- The document of an item with everything in it as it is written. -/
def Item.literal : Item → Json
  | .scalar value => value.toJson
  | .object ms => .object ⟨Member.literals ms⟩
  | .array items => .array (Item.literals items)

/-- One entry for each member, in order. -/
def Member.literals : List Member → List (String × Json)
  | [] => []
  | m :: rest => (m.key, Member.literal m) :: Member.literals rest

def Item.literals : List Item → List Json
  | [] => []
  | i :: rest => Item.literal i :: Item.literals rest

end

theorem Member.literals_eq (ms : List Member) :
    Member.literals ms = ms.map fun m => (m.key, m.literal) := by
  induction ms with
  | nil => rw [Member.literals, List.map_nil]
  | cons m ms ih => rw [Member.literals, List.map_cons, ih]

theorem Item.literals_eq (items : List Item) : Item.literals items = items.map Item.literal := by
  induction items with
  | nil => rw [Item.literals, List.map_nil]
  | cons i items ih => rw [Item.literals, List.map_cons, ih]

/-- Entries are kept exactly if their keys are distinct. -/
theorem insertAll_empty_eq_iff {α : Type} {l l' : List (String × α)}
    (h : l.map Prod.fst = l'.map Prod.fst) :
    (OrderedMap.empty : OrderedMap α).insertAll l = ⟨l'⟩ ↔ (l.map Prod.fst).Nodup ∧ l = l' := by
  constructor
  · intro heq
    have hdistinct : ((OrderedMap.empty : OrderedMap α).insertAll l).Distinct :=
      distinct_empty.insertAll l
    -- What is built by insertion has distinct keys, and these are the keys of the entries given.
    have hl : (l.map Prod.fst).Nodup := by
      rw [heq] at hdistinct
      rw [h]
      exact hdistinct
    rw [insertAll_empty hl] at heq
    exact ⟨hl, congrArg OrderedMap.entries heq⟩
  · rintro ⟨hl, rfl⟩
    exact insertAll_empty hl

/-- The document of members is the literal one if this holds of what is in them and no key stands
twice, and only then. -/
theorem ofMembers_eq_literals_of_parts {ms : List Member}
    (h : ∀ m ∈ ms, m.toJson = m.literal ↔ m.KeysApart) :
    JsonObject.ofMembers ms = ⟨Member.literals ms⟩ ↔ KeysApart ms := by
  have hkeys : (ms.map Member.jsonEntry).map Prod.fst = (Member.literals ms).map Prod.fst := by
    rw [Member.literals_eq, List.map_map, List.map_map]
    rfl
  have hfirst : (ms.map Member.jsonEntry).map Prod.fst = ms.map Member.key := by
    rw [List.map_map]
    rfl
  rw [JsonObject.ofMembers_eq, insertAll_empty_eq_iff hkeys, hfirst, Member.literals_eq,
    List.map_inj_left]
  constructor
  · rintro ⟨hnodup, hentries⟩
    exact ⟨hnodup, fun m hm => (h m hm).mp (Prod.mk.inj (hentries m hm)).2⟩
  · rintro ⟨hnodup, hparts⟩
    refine ⟨hnodup, fun m hm => ?_⟩
    rw [Member.jsonEntry, (h m hm).mpr (hparts m hm)]

theorem toJsons_eq_literals_of_parts {items : List Item}
    (h : ∀ i ∈ items, i.toJson = i.literal ↔ i.KeysApart) :
    items.map Item.toJson = items.map Item.literal ↔ ∀ i ∈ items, i.KeysApart := by
  rw [List.map_inj_left]
  exact forall₂_congr h

theorem literal_parts : PartsToWhole (fun _ => True) (fun m => m.toJson = m.literal ↔ m.KeysApart)
    (fun i => i.toJson = i.literal ↔ i.KeysApart) where
  field key s _ := by
    rw [Member.toJson, Member.literal, Member.KeysApart]
    exact iff_of_true rfl trivial
  object key ms h := by
    rw [Member.toJson_object, Member.literal, Json.object.injEq, Member.keysApart_object]
    exact ofMembers_eq_literals_of_parts h
  array key items h := by
    rw [Member.toJson_array, Member.literal, Json.array.injEq, Item.literals_eq,
      Member.keysApart_array]
    exact toJsons_eq_literals_of_parts h
  value s _ := by
    rw [Item.toJson, Item.literal, Item.KeysApart]
    exact iff_of_true rfl trivial
  objectItem ms h := by
    rw [Item.toJson_object, Item.literal, Json.object.injEq, Item.keysApart_object]
    exact ofMembers_eq_literals_of_parts h
  arrayItem items h := by
    rw [Item.toJson_array, Item.literal, Json.array.injEq, Item.literals_eq, Item.keysApart_array]
    exact toJsons_eq_literals_of_parts h

/-- **Nothing is overwritten** exactly where no keys clash: the document then has one entry for each
member, in order, and so has every object in it. -/
theorem ofMembers_eq_literals_iff {ms : List Member} :
    JsonObject.ofMembers ms = ⟨Member.literals ms⟩ ↔ KeysApart ms :=
  ofMembers_eq_literals_of_parts (literal_parts.members ms fun _ _ => trivial)

end SearchQuery
