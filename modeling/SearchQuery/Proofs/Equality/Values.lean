import Mathlib.Data.List.Forall2
import Mathlib.Data.List.Perm.Subperm
import SearchQuery.Proofs.Writing

/-!
# Equal values write equal documents

Equality does not look at the order of keys, but writing goes by it. The two meet in `Agree`: two
maps agree when they hold related values under the same keys, whatever their order. Proper
containers that are equal agree (`Agree.of_partners`), and a run of insertions only depends on what
agreeing maps have in common (`Agree.insertAll`), also where it replaces what was there. From that
equal values have equal documents (`Value.toJson_beq`), and descriptions are compared by what they
do to documents that agree (`WriteAlike`).
-/

namespace SearchQuery

variable {α β γ δ : Type}

/-! ## 1. Maps that agree -/

section OptionRel

variable {R : α → β → Prop} {S : γ → δ → Prop} {o : Option α} {o' : Option β}

theorem optionRel_map {f : α → γ} {g : β → δ} (h : Option.Rel (fun a b => S (f a) (g b)) o o') :
    Option.Rel S (o.map f) (o'.map g) := by
  cases h with
  | none => exact .none
  | some hS => exact .some hS

theorem optionRel_imp {T : α → β → Prop} (hRT : ∀ a b, R a b → T a b) (h : Option.Rel R o o') :
    Option.Rel T o o' := by
  cases h with
  | none => exact .none
  | some hR => exact .some (hRT _ _ hR)

theorem optionRel_or {e : Option α} {e' : Option β} (h : Option.Rel R o o')
    (he : Option.Rel R e e') : Option.Rel R (o.or e) (o'.or e') := by
  cases h with
  | none => exact he
  | some hR => exact .some hR

theorem eq_none_iff_of_optionRel (h : Option.Rel R o o') : o = none ↔ o' = none := by
  cases h with
  | none => exact iff_of_true rfl rfl
  | some hR => exact iff_of_false (Option.some_ne_none _) (Option.some_ne_none _)

theorem exists_of_optionRel {a : α} (h : Option.Rel R (some a) o') : ∃ b, o' = some b ∧ R a b := by
  cases h with
  | some hR => exact ⟨_, rfl, hR⟩

theorem isSome_eq_of_optionRel (h : Option.Rel R o o') : o.isSome = o'.isSome := by
  cases h with
  | none => rfl
  | some hR => rfl

theorem optionRel_join {o : Option (Option α)} {o' : Option (Option β)}
    (h : Option.Rel (Option.Rel R) o o') : Option.Rel R o.join o'.join := by
  cases h with
  | none => exact .none
  | some hR => exact hR

end OptionRel

namespace OrderedMap

theorem findEntry_eq_some_iff {key : String} {value : α} {l : List (String × α)}
    (hl : (l.map Prod.fst).Nodup) : findEntry key l = some value ↔ (key, value) ∈ l := by
  induction l with
  | nil =>
      refine ⟨fun h => ?_, fun h => absurd h List.not_mem_nil⟩
      cases h
  | cons e l ih =>
      rw [List.map_cons, List.nodup_cons] at hl
      rw [findEntry, List.mem_cons]
      by_cases he : e.1 = key
      · rw [if_pos he, Option.some.injEq]
        refine ⟨fun h => Or.inl ?_, fun h => ?_⟩
        · rw [← he, ← h]
        · rcases h with rfl | h
          · rfl
          · exact absurd (List.mem_map.mpr ⟨_, h, he.symm⟩) hl.1
      · rw [if_neg he, ih hl.2]
        refine ⟨Or.inr, fun h => h.resolve_left ?_⟩
        rintro rfl
        exact he rfl

theorem get?_eq_some_iff {m : OrderedMap α} (hm : m.Distinct) {key : String} {value : α} :
    m.get? key = some value ↔ (key, value) ∈ m.entries :=
  findEntry_eq_some_iff hm

theorem get?_eq_none_iff {m : OrderedMap α} {key : String} : m.get? key = none ↔ key ∉ m.keys :=
  findEntry_eq_none_iff

/-- Both maps are proper, and they hold related values under the same keys. -/
structure Agree (R : α → β → Prop) (m : OrderedMap α) (n : OrderedMap β) : Prop where
  left : m.Distinct
  right : n.Distinct
  holds : ∀ key, Option.Rel R (m.get? key) (n.get? key)

namespace Agree

variable {R : α → β → Prop} {m : OrderedMap α} {n : OrderedMap β}

theorem empty : Agree R OrderedMap.empty OrderedMap.empty :=
  ⟨distinct_empty, distinct_empty, fun _ => .none⟩

theorem mem_keys (h : Agree R m n) (key : String) : key ∈ m.keys ↔ key ∈ n.keys := by
  rw [← not_iff_not, ← get?_eq_none_iff, ← get?_eq_none_iff]
  exact eq_none_iff_of_optionRel (h.holds key)

/-- Maps of one size agree already when every entry of one has a partner in the other. That the
keys of the other are distinct need not be known. -/
theorem of_partners (hm : m.Distinct) (hsize : m.size = n.size)
    (h : ∀ e ∈ m.entries, ∃ y, n.get? e.1 = some y ∧ R e.2 y) : Agree R m n := by
  have hsubset : m.keys ⊆ n.keys := by
    intro key hkey
    obtain ⟨e, he, rfl⟩ := List.mem_map.mp hkey
    obtain ⟨y, hy, -⟩ := h e he
    by_contra hn
    rw [get?_eq_none_iff.mpr hn] at hy
    cases hy
  have hlength : n.keys.length ≤ m.keys.length := by
    rw [keys, keys, List.length_map, List.length_map]
    exact Nat.le_of_eq hsize.symm
  have hperm : m.keys.Perm n.keys := (List.subperm_of_subset hm hsubset).perm_of_length_le hlength
  refine ⟨hm, hperm.nodup_iff.mp hm, fun key => ?_⟩
  cases hkey : m.get? key with
  | none =>
      have hn : n.get? key = none :=
        get?_eq_none_iff.mpr fun hmem => get?_eq_none_iff.mp hkey (hperm.mem_iff.mpr hmem)
      rw [hn]
      exact .none
  | some x =>
      obtain ⟨y, hy, hxy⟩ := h _ ((get?_eq_some_iff hm).mp hkey)
      rw [hy]
      exact .some hxy

theorem size_eq (h : Agree R m n) : m.size = n.size := by
  have hperm : m.keys.Perm n.keys := (List.perm_ext_iff_of_nodup h.left h.right).mpr h.mem_keys
  have hlength := hperm.length_eq
  rwa [keys, keys, List.length_map, List.length_map] at hlength

theorem partner (h : Agree R m n) {e : String × α} (he : e ∈ m.entries) :
    ∃ y, n.get? e.1 = some y ∧ R e.2 y := by
  have hkey := h.holds e.1
  rw [(get?_eq_some_iff h.left).mpr he] at hkey
  exact exists_of_optionRel hkey

theorem isEmpty_eq (h : Agree R m n) : m.isEmpty = n.isEmpty := by
  have hsize : m.entries.length = n.entries.length := h.size_eq
  rw [isEmpty, isEmpty, Bool.eq_iff_iff, List.isEmpty_iff_length_eq_zero,
    List.isEmpty_iff_length_eq_zero, hsize]

theorem map {S : γ → δ → Prop} {f : α → γ} {g : β → δ}
    (h : Agree (fun x y => S (f x) (g y)) m n) : Agree S (m.map f) (n.map g) := by
  refine ⟨?_, ?_, fun key => ?_⟩
  · rw [Distinct, keys_map]
    exact h.left
  · rw [Distinct, keys_map]
    exact h.right
  · rw [get?_map, get?_map]
    exact optionRel_map (h.holds key)

theorem imp {T : α → β → Prop} (hRT : ∀ a b, R a b → T a b) (h : Agree R m n) : Agree T m n :=
  ⟨h.left, h.right, fun key => optionRel_imp hRT (h.holds key)⟩

theorem insert (h : Agree R m n) (key : String) {x : α} {y : β} (hxy : R x y) :
    Agree R (m.insert key x) (n.insert key y) := by
  refine ⟨h.left.insert key x, h.right.insert key y, fun k => ?_⟩
  rw [get?_insert, get?_insert]
  by_cases hk : k = key
  · rw [if_pos hk, if_pos hk]
    exact .some hxy
  · rw [if_neg hk, if_neg hk]
    exact h.holds k

/-- Inserting what agrees keeps agreement, although it may be inserted in another order. -/
theorem insertAll (h : Agree R m n) {p : OrderedMap α} {q : OrderedMap β} (hpq : Agree R p q) :
    Agree R (m.insertAll p.entries) (n.insertAll q.entries) := by
  refine ⟨h.left.insertAll p.entries, h.right.insertAll q.entries, fun key => ?_⟩
  rw [get?_insertAll hpq.left, get?_insertAll hpq.right]
  exact optionRel_or (hpq.holds key) (h.holds key)

end Agree

end OrderedMap

open OrderedMap

/-! ## 2. Equal documents -/

/-- Lists are equal when they are so item by item. -/
theorem list_beq_iff [BEq α] {xs ys : List α} :
    (xs == ys) = true ↔ List.Forall₂ (fun x y => (x == y) = true) xs ys := by
  induction xs generalizing ys with
  | nil =>
      rw [List.forall₂_nil_left_iff]
      cases ys with
      | nil => exact iff_of_true rfl rfl
      | cons y ys => exact iff_of_false Bool.false_ne_true (List.cons_ne_nil y ys)
  | cons x xs ih =>
      cases ys with
      | nil =>
          rw [List.forall₂_nil_right_iff]
          exact iff_of_false Bool.false_ne_true (List.cons_ne_nil x xs)
      | cons y ys => rw [List.cons_beq_cons, Bool.and_eq_true, List.forall₂_cons, ih]

namespace Json

theorem beqItems_eq (xs ys : List Json) : beqItems xs ys = (xs == ys) := by
  induction xs generalizing ys with
  | nil => cases ys <;> rfl
  | cons x xs ih =>
      cases ys with
      | nil => rfl
      | cons y ys => rw [beqItems, ih, List.cons_beq_cons]; rfl

theorem beqEntries_iff {xs : List (String × Json)} {ys : JsonObject} :
    beqEntries xs ys = true ↔ ∀ e ∈ xs, ∃ y, ys.get? e.1 = some y ∧ (e.2 == y) = true := by
  induction xs with
  | nil => simp only [beqEntries, List.not_mem_nil, false_imp_iff, implies_true]
  | cons e xs ih =>
      rw [beqEntries, Bool.and_eq_true, ih, List.forall_mem_cons]
      cases hy : ys.get? e.1 with
      | none => simp only [Bool.false_eq_true, reduceCtorEq, false_and, exists_false]
      | some y => simp only [Option.some.injEq, exists_eq_left']; rfl

theorem array_beq {xs ys : List Json}
    (h : List.Forall₂ (fun x y => (x == y) = true) xs ys) : (array xs == array ys) = true := by
  show beqItems xs ys = true
  rw [beqItems_eq, list_beq_iff]
  exact h

/-- Objects that agree are equal documents. -/
theorem object_beq {o o' : JsonObject} (h : Agree (fun x y => (x == y) = true) o o') :
    (object o == object o') = true := by
  show (o.entries.length == o'.size && beqEntries o.entries o') = true
  rw [Bool.and_eq_true, beq_iff_eq, beqEntries_iff]
  exact ⟨h.size_eq, fun _ => h.partner⟩

end Json

/-! ## 3. Equal values -/

namespace Value

/-- No container inside the value has a key twice. Every value is of this kind that is built from
maps: no operation on a map lets a key stand twice. -/
inductive WellFormed : Value → Prop
  | null : WellFormed .null
  | boolean (b : Bool) : WellFormed (.boolean b)
  | float (x : Double) : WellFormed (.float x)
  | integer (n : Int64) : WellFormed (.integer n)
  | string (s : String) : WellFormed (.string s)
  | field (f : Field) : WellFormed (.field f)
  | array (items : List Value) (parts : ∀ v ∈ items, WellFormed v) : WellFormed (.array items)
  | object (members : OrderedMap Value) (distinct : members.Distinct)
    (parts : ∀ e ∈ members.entries, WellFormed e.2) : WellFormed (.object members)

theorem beqItems_eq (xs ys : List Value) : beqItems xs ys = (xs == ys) := by
  induction xs generalizing ys with
  | nil => cases ys <;> rfl
  | cons x xs ih =>
      cases ys with
      | nil => rfl
      | cons y ys => rw [beqItems, ih, List.cons_beq_cons]; rfl

theorem beqEntries_iff {xs : List (String × Value)} {ys : Parameters} :
    beqEntries xs ys = true ↔ ∀ e ∈ xs, ∃ y, ys.get? e.1 = some y ∧ (e.2 == y) = true := by
  induction xs with
  | nil => simp only [beqEntries, List.not_mem_nil, false_imp_iff, implies_true]
  | cons e xs ih =>
      rw [beqEntries, Bool.and_eq_true, ih, List.forall_mem_cons]
      cases hy : ys.get? e.1 with
      | none => simp only [Bool.false_eq_true, reduceCtorEq, false_and, exists_false]
      | some y => simp only [Option.some.injEq, exists_eq_left']; rfl

end Value

namespace Parameters

/-- No key stands twice, in the container or inside its values. -/
structure WellFormed (p : Parameters) : Prop where
  distinct : p.Distinct
  parts : ∀ e ∈ p.entries, e.2.WellFormed

theorem beq_iff {p q : Parameters} :
    (p == q) = true ↔
      p.size = q.size ∧ ∀ e ∈ p.entries, ∃ y, q.get? e.1 = some y ∧ (e.2 == y) = true := by
  show (p.size == q.size && Value.beqEntries p.entries q) = true ↔ _
  rw [Bool.and_eq_true, beq_iff_eq, Value.beqEntries_iff]

theorem WellFormed.empty : WellFormed OrderedMap.empty :=
  ⟨distinct_empty, fun _ h => absurd h List.not_mem_nil⟩

theorem WellFormed.insert {p : Parameters} (hp : p.WellFormed) (key : String) {v : Value}
    (hv : v.WellFormed) : WellFormed (p.insert key v) where
  distinct := hp.distinct.insert key v
  parts := forall_insertAll (l := [(key, v)]) hp.parts (List.forall_mem_singleton.mpr hv)

/-- Assignment is how containers are filled. -/
theorem WellFormed.assign {p : Parameters} (hp : p.WellFormed) (key : String) {v : Value}
    (hv : v.WellFormed) : (Parameters.assign p key v).WellFormed := by
  cases v with
  | null => exact ⟨hp.distinct.erase key, fun e he => hp.parts e (List.mem_of_mem_filter he)⟩
  | _ => exact hp.insert key hv

end Parameters

/-! ## 4. The documents of equal values -/

namespace Double

/-- Equal data are both finite or both not. -/
theorem isFinite_eq_of_beq {x y : Double} (h : (x == y) = true) : x.isFinite = y.isFinite := by
  rw [beq_def, Bool.and_eq_true, Bool.or_eq_true] at h
  rcases h.2 with hbits | hzeros
  · rw [isFinite, isFinite, magnitudeBits, magnitudeBits, eq_of_beq hbits]
  · -- Both are zeros, which differ in their signs at most.
    rw [Bool.and_eq_true] at hzeros
    rw [isFinite, isFinite, eq_of_beq hzeros.1, eq_of_beq hzeros.2]

theorem beq_self_of_isFinite {x : Double} (h : x.isFinite = true) : (x == x) = true := by
  have hfinite : x.magnitudeBits < 0x7ff0000000000000 := of_decide_eq_true h
  have hnan : x.isNaN = false := decide_eq_false (UInt64.lt_asymm hfinite)
  rw [beq_self, hnan]
  rfl

end Double

/-- Numbers that do not equal themselves are written as null. -/
theorem Scalar.toJson_beq_self (s : Scalar) : (s.toJson == s.toJson) = true := by
  cases s with
  | null => rfl
  | boolean b => exact beq_self_eq_true b
  | integer n => exact beq_self_eq_true n
  | float x =>
      rw [toJson]
      split
      · exact Double.beq_self_of_isFinite ‹_›
      · rfl
  | string s => exact beq_self_eq_true s

theorem Scalar.toJson_float_beq {x y : Double} (h : (x == y) = true) :
    ((Scalar.float x).toJson == (Scalar.float y).toJson) = true := by
  rw [toJson, toJson, Double.isFinite_eq_of_beq h]
  split
  · exact h
  · rfl

namespace Value

/-- **Equal values have equal documents**, although their containers may be written in different
orders. -/
theorem toJson_beq {v w : Value} (hv : v.WellFormed) (h : (v == w) = true) :
    (v.toJson == w.toJson) = true := by
  induction hv generalizing w with
  | null =>
      cases w with
      | null => rfl
      | _ => cases h
  | boolean b =>
      cases w with
      | boolean c => exact h
      | _ => cases h
  | float x =>
      cases w with
      | float y => exact Scalar.toJson_float_beq h
      | _ => cases h
  | integer n =>
      cases w with
      | integer k => exact h
      | _ => cases h
  | string s =>
      cases w with
      | string t => exact h
      | _ => cases h
  | field f =>
      cases w with
      | field g =>
          have hfield : f = g := eq_of_beq (show (f == g) = true from h)
          rw [hfield]
          exact beq_self_eq_true g.name
      | _ => cases h
  | array vs parts ih =>
      cases w with
      | array ws =>
          have hbeq : beqItems vs ws = true := h
          rw [beqItems_eq, list_beq_iff] at hbeq
          have hmem := (List.forall₂_and_left vs ws).mpr ⟨fun v hv => hv, hbeq⟩
          rw [toJson_array, toJson_array]
          refine Json.array_beq (List.forall₂_map_left_iff.mpr (List.forall₂_map_right_iff.mpr ?_))
          exact hmem.imp fun v w hvw => ih v hvw.1 hvw.2
      | _ => cases h
  | object p distinct parts ih =>
      cases w with
      | object q =>
          obtain ⟨hsize, hpartners⟩ := Parameters.beq_iff.mp (show (p == q) = true from h)
          have hdocuments : Agree (fun v w : Value => (v.toJson == w.toJson) = true) p q := by
            refine Agree.of_partners distinct hsize fun e he => ?_
            obtain ⟨y, hy, hbeq⟩ := hpartners e he
            exact ⟨y, hy, ih e he hbeq⟩
          rw [toJson_object, toJson_object]
          exact Json.object_beq (Agree.empty.insertAll hdocuments.map)
      | _ => cases h

/-- A value that may be written in place of another. -/
structure Same (v w : Value) : Prop where
  wellFormed : v.WellFormed
  beq : (v == w) = true

theorem Same.toJson {v w : Value} (h : Same v w) : (v.toJson == w.toJson) = true :=
  toJson_beq h.wellFormed h.beq

theorem Same.isNull_eq {v w : Value} (h : Same v w) : v.isNull = w.isNull := by
  have hbeq := h.beq
  cases v with
  | null =>
      cases w with
      | null => rfl
      | _ => cases hbeq
  | object p =>
      cases w with
      | null => cases hbeq
      | _ => rfl
  | _ =>
      cases w with
      | null => cases hbeq
      | _ => rfl

/-- The value of an absent number is the null value. -/
theorem same_toValue {x y : Option Double} (h : Option.Rel (fun a b => (a == b) = true) x y) :
    Same (ToValue.toValue x) (ToValue.toValue y) := by
  cases h with
  | none => exact ⟨.null, rfl⟩
  | some hab => exact ⟨.float _, hab⟩

end Value

namespace Parameters

/-- A container that may be written in place of another. -/
structure Same (p q : Parameters) : Prop where
  wellFormed : p.WellFormed
  beq : (p == q) = true

theorem same_iff {p q : Parameters} : p.Same q ↔ Agree Value.Same p q := by
  constructor
  · intro h
    obtain ⟨hsize, hpartners⟩ := beq_iff.mp h.beq
    refine Agree.of_partners h.wellFormed.distinct hsize fun e he => ?_
    obtain ⟨y, hy, hbeq⟩ := hpartners e he
    exact ⟨y, hy, h.wellFormed.parts e he, hbeq⟩
  · intro h
    refine ⟨⟨h.left, fun e he => ?_⟩, beq_iff.mpr ⟨h.size_eq, fun e he => ?_⟩⟩
    · obtain ⟨y, -, hy⟩ := h.partner he
      exact hy.wellFormed
    · obtain ⟨y, hy, hsame⟩ := h.partner he
      exact ⟨y, hy, hsame.beq⟩

theorem Same.assign {p q : Parameters} (h : p.Same q) (key : String) {v w : Value}
    (hvw : v.Same w) : (Parameters.assign p key v).Same (Parameters.assign q key w) := by
  rw [same_iff] at h ⊢
  refine ⟨distinct_assign h.left key v, distinct_assign h.right key w, fun k => ?_⟩
  rw [get?_assign, get?_assign, hvw.isNull_eq]
  by_cases hk : k = key
  · rw [if_pos hk, if_pos hk]
    by_cases hnull : w.isNull = true
    · rw [if_pos hnull, if_pos hnull]
      exact .none
    · rw [if_neg hnull, if_neg hnull]
      exact .some hvw
  · rw [if_neg hk, if_neg hk]
    exact h.holds k

end Parameters

/-! ## 5. Descriptions -/

/-- Written into documents that agree, both leave documents that agree. -/
def WriteAlike (ms ms' : List Member) : Prop :=
  ∀ o o' : JsonObject, Agree (fun x y => (x == y) = true) o o' →
    Agree (fun x y => (x == y) = true) (writeAll o ms) (writeAll o' ms')

namespace WriteAlike

theorem nil : WriteAlike [] [] := fun _ _ h => h

theorem append {ms ns ms' ns' : List Member} (h : WriteAlike ms ms') (h' : WriteAlike ns ns') :
    WriteAlike (ms ++ ns) (ms' ++ ns') := by
  intro o o' ho
  rw [writeAll, writeAll, List.foldl_append, List.foldl_append]
  exact h' _ _ (h o o' ho)

theorem flatMap {l : List α} {f g : α → List Member} (h : ∀ a, WriteAlike (f a) (g a)) :
    WriteAlike (l.flatMap f) (l.flatMap g) := by
  induction l with
  | nil => exact nil
  | cons a l ih =>
      rw [List.flatMap_cons, List.flatMap_cons]
      exact (h a).append ih

theorem cons {m m' : Member} {ms ms' : List Member} (hkey : m.key = m'.key)
    (hm : (m.toJson == m'.toJson) = true) (h : WriteAlike ms ms') :
    WriteAlike (m :: ms) (m' :: ms') := by
  intro o o' ho
  rw [writeAll_cons, writeAll_cons]
  have hinsert := ho.insert m.key hm
  have hwrite : ObjectSink.write o' m' = o'.insert m.key m'.toJson := by
    rw [hkey]
    rfl
  rw [← hwrite] at hinsert
  exact h _ _ hinsert

theorem single {m m' : Member} (hkey : m.key = m'.key) (hm : (m.toJson == m'.toJson) = true) :
    WriteAlike [m] [m'] :=
  cons hkey hm nil

/-- What is written into a new object comes to equal objects. -/
theorem ofMembers_beq {ms ms' : List Member} (h : WriteAlike ms ms') :
    (Json.object (JsonObject.ofMembers ms) == .object (JsonObject.ofMembers ms')) = true :=
  Json.object_beq (h _ _ Agree.empty)

theorem object {ms ms' : List Member} (key : String) (h : WriteAlike ms ms') :
    WriteAlike [.object key ms] [.object key ms'] := by
  refine single rfl ?_
  rw [Member.toJson_object, Member.toJson_object]
  exact h.ofMembers_beq

theorem array {is is' : List Item} (key : String)
    (h : List.Forall₂ (fun i i' => (Item.toJson i == i'.toJson) = true) is is') :
    WriteAlike [.array key is] [.array key is'] := by
  refine single rfl ?_
  rw [Member.toJson_array, Member.toJson_array]
  exact Json.array_beq (List.forall₂_map_left_iff.mpr (List.forall₂_map_right_iff.mpr h))

/-! Everything that is written equals itself, so what two descriptions have in common is written
alike. -/

theorem of_self {ms : List Member} (h : ∀ m ∈ ms, (m.toJson == m.toJson) = true) :
    WriteAlike ms ms := by
  induction ms with
  | nil => exact nil
  | cons m ms ih =>
      rw [List.forall_mem_cons] at h
      exact cons rfl h.1 (ih h.2)

theorem self_parts : PartsToWhole (fun _ => True) (fun m => (m.toJson == m.toJson) = true)
    (fun i => (i.toJson == i.toJson) = true) where
  field key s _ := s.toJson_beq_self
  object key ms h := by
    rw [Member.toJson_object]
    exact (of_self h).ofMembers_beq
  array key is h := by
    rw [Member.toJson_array]
    exact Json.array_beq (List.forall₂_same.mpr (List.forall_mem_map.mpr h))
  value s _ := s.toJson_beq_self
  objectItem ms h := by
    rw [Item.toJson_object]
    exact (of_self h).ofMembers_beq
  arrayItem is h := by
    rw [Item.toJson_array]
    exact Json.array_beq (List.forall₂_same.mpr (List.forall_mem_map.mpr h))

theorem refl (ms : List Member) : WriteAlike ms ms :=
  of_self (self_parts.members ms fun _ _ => trivial)

theorem nonemptyArray {mss mss' : List (List Member)} (key : String)
    (h : List.Forall₂ WriteAlike mss mss') :
    WriteAlike (nonemptyArray key mss) (nonemptyArray key mss') := by
  cases h with
  | nil => exact nil
  | cons hms hmss =>
      refine array key ?_
      rw [List.forall₂_map_left_iff, List.forall₂_map_right_iff]
      refine (List.Forall₂.cons hms hmss).imp fun ms ms' hms => ?_
      rw [Item.toJson_object, Item.toJson_object]
      exact hms.ofMembers_beq

theorem optionalObject {o o' : Option (List Member)} (key : String)
    (h : Option.Rel WriteAlike o o') :
    WriteAlike (optionalMember o (.object key)) (optionalMember o' (.object key)) := by
  cases h with
  | none => exact nil
  | some hms => exact object key hms

theorem optionalFloat {x y : Option Double} (key : String)
    (h : Option.Rel (fun a b => (a == b) = true) x y) :
    WriteAlike (optionalMember x (.float key)) (optionalMember y (.float key)) := by
  cases h with
  | none => exact nil
  | some hab => exact single rfl (Scalar.toJson_float_beq hab)

/-- An array of values. -/
theorem items {vs ws : List Value} (key : String) (hvs : ∀ v ∈ vs, v.WellFormed)
    (h : (vs == ws) = true) :
    WriteAlike [.array key (Value.items vs)] [.array key (Value.items ws)] := by
  have hmem := (List.forall₂_and_left vs ws).mpr ⟨hvs, list_beq_iff.mp h⟩
  refine array key ?_
  rw [Value.items_eq, Value.items_eq, List.forall₂_map_left_iff, List.forall₂_map_right_iff]
  exact hmem.imp fun v w hvw => Value.toJson_beq hvw.1 hvw.2

theorem value {v w : Value} (key : String) (h : v.Same w) :
    WriteAlike [v.member key] [w.member key] := by
  refine single ?_ ?_
  · rw [Value.key_member, Value.key_member]
  · rw [Value.toJson_member, Value.toJson_member]
    exact h.toJson

theorem optionalValue {v w : Option Value} (key : String) (h : Option.Rel Value.Same v w) :
    WriteAlike (optionalMember v (Value.member key)) (optionalMember w (Value.member key)) := by
  cases h with
  | none => exact nil
  | some hvw => exact value key hvw

/-- Equal containers are written alike, in whatever order. This is where keys that are already there
are overwritten. -/
theorem options {p q : Parameters} (h : p.Same q) : WriteAlike p.members q.members := by
  intro o o' ho
  rw [writeAll_document, writeAll_document, Parameters.map_jsonEntry_members,
    Parameters.map_jsonEntry_members]
  have hdocuments : Agree (fun v w : Value => (v.toJson == w.toJson) = true) p q :=
    (Parameters.same_iff.mp h).imp fun _ _ => Value.Same.toJson
  exact ho.insertAll hdocuments.map

end WriteAlike

end SearchQuery
