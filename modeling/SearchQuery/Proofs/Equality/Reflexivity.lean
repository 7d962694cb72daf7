import SearchQuery.Proofs.Equality

/-!
# What equals itself

Numbers are compared as IEEE data, so that a query need not equal itself. `Query.floats` lists every
float that a query stores: the numbers that its levels stand out by, and those inside values, at any
depth of arrays and objects. A query equals itself exactly if none of them is a NaN
(`Query.beq_self_iff`): all other data equal themselves, and containers have no key twice, so that
each entry is compared with itself.
-/

namespace SearchQuery

open OrderedMap

variable {α : Type}

/-! ## 1. Values -/

theorem list_beq_self_iff [BEq α] {l : List α} : (l == l) = true ↔ ∀ a ∈ l, (a == a) = true := by
  rw [list_beq_iff, List.forall₂_same]

theorem option_beq_self_iff [BEq α] {o : Option α} :
    (o == o) = true ↔ ∀ a ∈ o.toList, (a == a) = true := by
  cases o with
  | none => exact iff_of_true rfl (List.forall_mem_nil _)
  | some a =>
      show (a == a) = true ↔ _
      rw [Option.toList_some, List.forall_mem_singleton]

mutual

/-- The floats inside a value. -/
def Value.floats : Value → List Double
  | .float x => [x]
  | .array items => Value.floatsOfItems items
  | .object ⟨entries⟩ => Value.floatsOfEntries entries
  | _ => []

def Value.floatsOfItems : List Value → List Double
  | [] => []
  | v :: vs => v.floats ++ Value.floatsOfItems vs

def Value.floatsOfEntries : List (String × Value) → List Double
  | [] => []
  | (_, v) :: rest => v.floats ++ Value.floatsOfEntries rest

end

namespace Value

theorem floats_array (items : List Value) : (array items).floats = items.flatMap floats := by
  show floatsOfItems items = _
  induction items with
  | nil => rfl
  | cons v vs ih => rw [floatsOfItems, ih, List.flatMap_cons]

theorem floats_object (members : OrderedMap Value) :
    (object members).floats = (Parameters.values members).flatMap floats := by
  obtain ⟨entries⟩ := members
  show floatsOfEntries entries = (entries.map Prod.snd).flatMap floats
  induction entries with
  | nil => rfl
  | cons e rest ih => rw [floatsOfEntries, ih, List.map_cons, List.flatMap_cons]

end Value

namespace Parameters

/-- In a proper container the partner of an entry is the entry itself. -/
theorem beq_self_iff {p : Parameters} (hp : p.Distinct) :
    (p == p) = true ↔ ∀ v ∈ Parameters.values p, (v == v) = true := by
  rw [beq_iff, values, List.forall_mem_map]
  constructor
  · rintro ⟨-, h⟩ e he
    obtain ⟨y, hy, hbeq⟩ := h e he
    rw [(get?_eq_some_iff hp).mpr he, Option.some.injEq] at hy
    rwa [← hy] at hbeq
  · exact fun h => ⟨rfl, fun e he => ⟨e.2, (get?_eq_some_iff hp).mpr he, h e he⟩⟩

theorem WellFormed.values {p : Parameters} (hp : p.WellFormed) :
    ∀ v ∈ Parameters.values p, v.WellFormed :=
  List.forall_mem_map.mpr hp.parts

end Parameters

/-- A value equals itself exactly if no float inside it is a NaN. -/
theorem Value.beq_self_iff {v : Value} (hv : v.WellFormed) :
    (v == v) = true ↔ ∀ x ∈ v.floats, x.isNaN = false := by
  have noFloats : ∀ x ∈ ([] : List Double), x.isNaN = false := List.forall_mem_nil _
  induction hv with
  | null => exact iff_of_true rfl noFloats
  | boolean b => exact iff_of_true (beq_self_eq_true b) noFloats
  | float x =>
      show (x == x) = true ↔ ∀ y ∈ [x], y.isNaN = false
      rw [Double.beq_self, Bool.not_eq_true', List.forall_mem_singleton]
  | integer n => exact iff_of_true (beq_self_eq_true n) noFloats
  | string s => exact iff_of_true (beq_self_eq_true s) noFloats
  | field f => exact iff_of_true (beq_self_eq_true f) noFloats
  | array items parts ih =>
      show beqItems items items = true ↔ _
      rw [beqItems_eq, list_beq_self_iff, floats_array, List.forall_mem_flatMap]
      exact forall₂_congr ih
  | object members distinct parts ih =>
      show ((members : Parameters) == members) = true ↔ _
      rw [Parameters.beq_self_iff distinct, floats_object, List.forall_mem_flatMap,
        Parameters.values, List.forall_mem_map, List.forall_mem_map]
      exact forall₂_congr ih

/-! ## 2. Levels -/

/-- Of a test everything equals itself but the values that it compares with. -/
theorem LeafTest.beq_self_iff (t : LeafTest) :
    (t == t) = true ↔ ∀ v ∈ t.values, (v == v) = true := by
  have noValues : ∀ v ∈ ([] : List Value), (v == v) = true := List.forall_mem_nil _
  have fieldValue (f : Field) (v : Value) :
      (f == f && v == v) = true ↔ ∀ x ∈ [v], (x == x) = true := by
    rw [beq_self_eq_true, Bool.true_and, List.forall_mem_singleton]
  cases t with
  | matchAll => exact iff_of_true rfl noValues
  | term f v => exact fieldValue f v
  | terms f vs =>
      show (f == f && vs == vs) = true ↔ _
      rw [beq_self_eq_true, Bool.true_and, values, list_beq_self_iff]
  | range f => exact iff_of_true (beq_self_eq_true f) noValues
  | matchText f text => exact fieldValue f text
  | matchPhrase f phrase => exact fieldValue f phrase
  | existsField f => exact iff_of_true (beq_self_eq_true f) noValues
  | multiMatch text fs =>
      show (text == text && fs == fs) = true ↔ _
      rw [beq_self_eq_true fs, Bool.and_true, values, List.forall_mem_singleton]
  | ids ids => exact iff_of_true (beq_self_eq_true ids) noValues

theorem FunctionKind.beq_self_iff {k : FunctionKind} (hk : k.WellFormed) :
    (k == k) = true ↔ ∀ v ∈ k.values, (v == v) = true := by
  cases k with
  | weight => exact iff_of_true rfl (List.forall_mem_nil _)
  | fieldValueFactor factor =>
      show (factor.field == factor.field && factor.options == factor.options) = true ↔ _
      rw [beq_self_eq_true, Bool.true_and]
      exact Parameters.beq_self_iff hk.distinct
  | scriptScore script =>
      show (script.body == script.body &&
        (script.lang == script.lang && script.params == script.params)) = true ↔ _
      rw [beq_self_eq_true, beq_self_eq_true, Bool.true_and, Bool.true_and]
      exact Parameters.beq_self_iff hk.distinct

theorem FunctionKind.WellFormed.values {k : FunctionKind} (hk : k.WellFormed) :
    ∀ v ∈ k.values, v.WellFormed := by
  cases k with
  | weight => exact List.forall_mem_nil _
  | fieldValueFactor factor => exact Parameters.WellFormed.values hk
  | scriptScore script => exact Parameters.WellFormed.values hk

/-- The weights and the values of functions are all that may differ from themselves. -/
theorem ScoreFunction.agreeAll_self_iff {l : List (ScoreFunction α)}
    (hl : ∀ s ∈ l, s.kind.WellFormed) :
    agreeAll l l = true ↔ (∀ x ∈ l.filterMap weight, (x == x) = true) ∧
      ∀ v ∈ l.flatMap (fun s => s.kind.values), (v == v) = true := by
  induction l with
  | nil => exact iff_of_true rfl ⟨List.forall_mem_nil _, List.forall_mem_nil _⟩
  | cons s l ih =>
      rw [List.forall_mem_cons] at hl
      rw [agreeAll, Bool.and_eq_true, ih hl.2, agrees, beq_self_eq_true, Bool.true_and,
        Bool.and_eq_true, option_beq_self_iff, FunctionKind.beq_self_iff hl.1,
        List.filterMap_eq_flatMap_toList, List.filterMap_eq_flatMap_toList, List.flatMap_cons,
        List.flatMap_cons, List.forall_mem_append, List.forall_mem_append]
      exact and_and_and_comm

/-- The numbers that a body stores beside its sub-queries and its values. -/
def Compound.numbers : Compound α → List Double
  | bool _ => []
  | disMax b => b.tieBreaker.toList
  | functionScore b => b.functions.filterMap ScoreFunction.weight ++ b.minScore.toList

theorem Compound.agrees_self_iff {c : Compound α} (hc : c.WellFormed) :
    c.agrees c = true ↔
      (∀ x ∈ c.numbers, (x == x) = true) ∧ ∀ v ∈ c.values, (v == v) = true := by
  cases c with
  | bool b =>
      simp only [agrees, beq_self_eq_true, Bool.true_and]
      rw [option_beq_self_iff]
      exact (and_iff_right (List.forall_mem_nil _)).symm
  | disMax b =>
      simp only [agrees, beq_self_eq_true, Bool.true_and]
      rw [option_beq_self_iff]
      exact (and_iff_left (List.forall_mem_nil _)).symm
  | functionScore b =>
      simp only [agrees, beq_self_eq_true, Bool.true_and, Bool.and_true]
      rw [Bool.and_eq_true, option_beq_self_iff, ScoreFunction.agreeAll_self_iff hc, numbers,
        List.forall_mem_append, and_right_comm]
      rfl

theorem Compound.WellFormed.values {c : Compound α} (hc : c.WellFormed) :
    ∀ v ∈ c.values, v.WellFormed := by
  cases c with
  | bool b => exact fun v hv => hc v (Option.mem_toList.mp hv)
  | disMax b => exact List.forall_mem_nil _
  | functionScore b =>
      exact List.forall_mem_flatMap.mpr fun s hs => FunctionKind.WellFormed.values (hc s hs)

/-- The settings of a node that do not belong to its body. -/
def BoundNode.settings : BoundNode α → List Double
  | bool _ node => node.boost.toList
  | disMax _ node => node.boost.toList
  | functionScore _ node => node.boost.toList ++ node.maxBoost.toList

theorem BoundNode.agrees_self_iff (n : BoundNode α) :
    n.agrees n = true ↔
      (∀ x ∈ n.settings, (x == x) = true) ∧ n.body.agrees n.body = true := by
  have handle {kind : NodeKind} (h : Handle kind) : (h == h) = true := (h.beq_iff h).mpr rfl
  cases n with
  | bool h node =>
      rw [agrees, handle, Bool.true_and, Bool.and_eq_true, option_beq_self_iff, settings, body]
  | disMax h node =>
      rw [agrees, handle, Bool.true_and, Bool.and_eq_true, option_beq_self_iff, settings, body]
  | functionScore h node =>
      rw [agrees, handle, Bool.true_and, Bool.and_eq_true, Bool.and_eq_true, option_beq_self_iff,
        option_beq_self_iff, settings, body, List.forall_mem_append]

namespace Form

/-- The numbers that a level stores beside its sub-queries and its values. -/
def numbers : Form α → List Double
  | leaf .. => []
  | nested .. => []
  | compound body _ => body.numbers
  | node n => n.settings ++ n.body.numbers

/-- The floats that a level stores beside its sub-queries. -/
def floats (f : Form α) : List Double := f.numbers ++ f.values.flatMap Value.floats

theorem WellFormed.values {f : Form α} (h : f.WellFormed) : ∀ v ∈ f.values, v.WellFormed := by
  cases f with
  | leaf test options => exact List.forall_mem_append.mpr ⟨h.1, h.2.values⟩
  | nested path query options => exact Parameters.WellFormed.values h
  | compound body options => exact List.forall_mem_append.mpr ⟨h.1.values, h.2.values⟩
  | node n => exact Compound.WellFormed.values h

theorem agrees_self_iff_parts {f : Form α} (h : f.WellFormed) :
    f.agrees f = true ↔
      (∀ x ∈ f.numbers, (x == x) = true) ∧ ∀ v ∈ f.values, (v == v) = true := by
  have noNumbers : ∀ x ∈ ([] : List Double), (x == x) = true := List.forall_mem_nil _
  cases f with
  | leaf test options =>
      rw [agrees, Bool.and_eq_true, LeafTest.beq_self_iff, Parameters.beq_self_iff h.2.distinct,
        values, List.forall_mem_append]
      exact (and_iff_right noNumbers).symm
  | nested path query options =>
      rw [agrees, beq_self_eq_true, Bool.true_and,
        Parameters.beq_self_iff (Parameters.WellFormed.distinct h)]
      exact (and_iff_right noNumbers).symm
  | compound body options =>
      rw [agrees, Bool.and_eq_true, Compound.agrees_self_iff h.1,
        Parameters.beq_self_iff h.2.distinct, and_assoc, values, List.forall_mem_append, numbers]
  | node n =>
      rw [agrees, BoundNode.agrees_self_iff, Compound.agrees_self_iff h, ← and_assoc, numbers,
        List.forall_mem_append, values]

/-- A level agrees with itself exactly if it stores no NaN. -/
theorem agrees_self_iff {f : Form α} (h : f.WellFormed) :
    f.agrees f = true ↔ ∀ x ∈ f.floats, x.isNaN = false := by
  rw [agrees_self_iff_parts h, floats, List.forall_mem_append, List.forall_mem_flatMap]
  refine and_congr (forall₂_congr fun x _ => ?_) (forall₂_congr fun v hv => ?_)
  · rw [Double.beq_self, Bool.not_eq_true']
  · exact Value.beq_self_iff (h.values v hv)

end Form

/-! ## 3. Queries -/

namespace Query

/-- The floats that a query stores, at all levels. -/
def floats (q : Query) : List Double := q.walk.flatMap fun x => x.form.floats

/-- A query equals itself exactly if each level agrees with itself. -/
theorem beq_self_iff_levels {q : Query} :
    (q == q) = true ↔
      ∀ (p : Position) (x : Query), q.at? p = some x → x.form.agrees x.form = true := by
  induction q using Query.induction with
  | step q ih =>
      rw [beq_iff, List.forall₂_same, forall_at?_iff (P := fun x => x.form.agrees x.form = true)]
      exact and_congr_right fun _ => forall₂_congr ih

/-- **A query equals itself exactly if it stores no NaN.** -/
theorem beq_self_iff {q : Query} (h : q.WellFormed) :
    (q == q) = true ↔ ∀ x ∈ q.floats, x.isNaN = false := by
  rw [beq_self_iff_levels, floats, List.forall_mem_flatMap]
  constructor
  · intro hlevels x hx
    obtain ⟨p, hp⟩ := mem_walk.mp hx
    exact (Form.agrees_self_iff (h p x hp)).mp (hlevels p x hp)
  · intro hfloats p x hp
    exact (Form.agrees_self_iff (h p x hp)).mpr (hfloats x (mem_walk.mpr ⟨p, hp⟩))

end Query

end SearchQuery
