import SearchQuery.Proofs.Compilation
import SearchQuery.Proofs.Reduction.Normal
import SearchQuery.Proofs.Stored

/-!
# How deep a document nests

The depth of a query counts queries, and the nesting of a document counts the objects and arrays
around its innermost scalar. A query of depth `d` that stores no value of a nesting above `n` is
written as a document of a nesting of at most `4 * d + 3 + n` (`nesting_toJson_le`).

A sub-query costs at most four levels, as the filter of a function: the object of the
function_score query, the array of its functions, the object of the function and the object under
`filter`. Below the last query there are at most seven levels and the value, as a parameter of the
script of a function. In between, each form is asked once what it adds to what its sub-queries and
its values come to (`Form.nestsWithin_body`).

Neither number can be lowered. A chain of functions, each with the next query for its filter and the
last one with a script, attains the bound for every depth and every value
(`nesting_bound_attained`).
-/

namespace SearchQuery

variable {α : Type}

/-! ## 1. Nesting -/

mutual

/-- How many objects and arrays there are on the deepest way into a document. -/
def Json.nesting : Json → Nat
  | .null | .boolean _ | .integer _ | .float _ | .string _ => 0
  | .array items => 1 + Json.deepestItem items
  | .object ⟨entries⟩ => 1 + Json.deepestEntry entries

def Json.deepestItem : List Json → Nat
  | [] => 0
  | x :: rest => max (Json.nesting x) (Json.deepestItem rest)

def Json.deepestEntry : List (String × Json) → Nat
  | [] => 0
  | (_, x) :: rest => max (Json.nesting x) (Json.deepestEntry rest)

end

mutual

/-- How many containers and arrays there are on the deepest way into a value. -/
def Value.nesting : Value → Nat
  | .null | .boolean _ | .float _ | .integer _ | .string _ | .field _ => 0
  | .array items => 1 + Value.deepestItem items
  | .object ⟨entries⟩ => 1 + Value.deepestEntry entries

def Value.deepestItem : List Value → Nat
  | [] => 0
  | v :: rest => max (Value.nesting v) (Value.deepestItem rest)

def Value.deepestEntry : List (String × Value) → Nat
  | [] => 0
  | (_, v) :: rest => max (Value.nesting v) (Value.deepestEntry rest)

end

namespace Json

theorem deepestItem_le_iff {items : List Json} {n : Nat} :
    deepestItem items ≤ n ↔ ∀ x ∈ items, x.nesting ≤ n := by
  induction items with
  | nil => exact iff_of_true (Nat.zero_le n) fun x hx => absurd hx List.not_mem_nil
  | cons x items ih => rw [deepestItem, Nat.max_le, List.forall_mem_cons, ih]

theorem deepestEntry_le_iff {entries : List (String × Json)} {n : Nat} :
    deepestEntry entries ≤ n ↔ ∀ e ∈ entries, e.2.nesting ≤ n := by
  induction entries with
  | nil => exact iff_of_true (Nat.zero_le n) fun e he => absurd he List.not_mem_nil
  | cons e entries ih => rw [deepestEntry, Nat.max_le, List.forall_mem_cons, ih]

theorem nesting_array_le_iff {items : List Json} {n : Nat} :
    (array items).nesting ≤ n + 1 ↔ ∀ x ∈ items, x.nesting ≤ n := by
  rw [← deepestItem_le_iff, nesting]
  omega

theorem nesting_object_le_iff {o : JsonObject} {n : Nat} :
    (object o).nesting ≤ n + 1 ↔ ∀ e ∈ o.entries, e.2.nesting ≤ n := by
  rw [← deepestEntry_le_iff, nesting]
  omega

end Json

namespace Value

theorem deepestItem_le_iff {items : List Value} {n : Nat} :
    deepestItem items ≤ n ↔ ∀ v ∈ items, v.nesting ≤ n := by
  induction items with
  | nil => exact iff_of_true (Nat.zero_le n) fun v hv => absurd hv List.not_mem_nil
  | cons v items ih => rw [deepestItem, Nat.max_le, List.forall_mem_cons, ih]

theorem deepestEntry_le_iff {entries : List (String × Value)} {n : Nat} :
    deepestEntry entries ≤ n ↔ ∀ e ∈ entries, e.2.nesting ≤ n := by
  induction entries with
  | nil => exact iff_of_true (Nat.zero_le n) fun e he => absurd he List.not_mem_nil
  | cons e entries ih => rw [deepestEntry, Nat.max_le, List.forall_mem_cons, ih]

end Value

/-- The values of a query nest no deeper than this. -/
def Query.valueNesting (q : Query) : Nat := (q.values.map Value.nesting).foldl max 0

theorem Query.valueNesting_le_iff {q : Query} {n : Nat} :
    q.valueNesting ≤ n ↔ ∀ v ∈ q.values, v.nesting ≤ n := by
  rw [valueNesting, foldl_max_le_iff, List.forall_mem_map]
  exact and_iff_right (Nat.zero_le n)

/-! ## 2. Scalars, values and containers -/

theorem Scalar.nesting_toJson (s : Scalar) : s.toJson.nesting = 0 := by
  cases s with
  | float x =>
      rw [toJson]
      split <;> rw [Json.nesting]
  | _ => rw [toJson, Json.nesting]

theorem Item.nesting_scalar (s : Scalar) : (scalar s).toJson.nesting = 0 := by
  rw [toJson, Scalar.nesting_toJson]

/-- Writing a value can only lose levels, where entries of a container are written over others. The
induction is on the bound, which goes down with each container that is entered. -/
theorem Value.nesting_toJson_le {v : Value} {n : Nat} (h : v.nesting ≤ n) :
    v.toJson.nesting ≤ n := by
  induction n generalizing v with
  | zero =>
      cases v with
      | array items => rw [nesting] at h; omega
      | object p => rw [nesting] at h; omega
      | _ => exact Nat.le_of_eq (Item.nesting_scalar _)
  | succ n ih =>
      cases v with
      | array items =>
          have hitems : deepestItem items ≤ n := by
            rw [nesting] at h
            omega
          rw [toJson_array, Json.nesting_array_le_iff, List.forall_mem_map]
          intro v hv
          exact ih (deepestItem_le_iff.mp hitems v hv)
      | object p =>
          have hentries : deepestEntry p.entries ≤ n := by
            rw [nesting] at h
            omega
          rw [toJson_object, Json.nesting_object_le_iff]
          refine OrderedMap.forall_insertAll (P := fun x : Json => x.nesting ≤ n)
            (fun e he => absurd he List.not_mem_nil) ?_
          refine List.forall_mem_map.mpr fun e he => ?_
          exact ih (deepestEntry_le_iff.mp hentries e he)
      | _ => exact Nat.le_trans (Nat.le_of_eq (Item.nesting_scalar _)) (Nat.zero_le _)

/-! ## 3. Members -/

/-- What is written under each of the keys nests no deeper than this. -/
def NestsWithin (n : Nat) (ms : List Member) : Prop := ∀ m ∈ ms, m.toJson.nesting ≤ n

theorem Member.nesting_scalar_le (key : String) (s : Scalar) (n : Nat) :
    (scalar key s).toJson.nesting ≤ n := by
  rw [toJson, Scalar.nesting_toJson]
  exact Nat.zero_le n

theorem Value.nesting_member_le {v : Value} {n : Nat} (key : String) (h : v.nesting ≤ n) :
    (v.member key).toJson.nesting ≤ n := by
  rw [toJson_member]
  exact nesting_toJson_le h

theorem Member.nesting_array_le {items : List Item} {n k : Nat} (key : String)
    (h : ∀ i ∈ items, i.toJson.nesting ≤ k) (hk : k + 1 ≤ n) :
    (array key items).toJson.nesting ≤ n := by
  rw [toJson_array]
  exact Nat.le_trans (Json.nesting_array_le_iff.mpr (List.forall_mem_map.mpr h)) hk

namespace NestsWithin

variable {ms ns : List Member} {n k : Nat}

theorem nil : NestsWithin n [] := fun _ hm => absurd hm List.not_mem_nil

theorem cons {m : Member} (hm : m.toJson.nesting ≤ n) (h : NestsWithin n ms) :
    NestsWithin n (m :: ms) :=
  List.forall_mem_cons.mpr ⟨hm, h⟩

theorem append (h : NestsWithin n ms) (h' : NestsWithin n ns) : NestsWithin n (ms ++ ns) :=
  List.forall_mem_append.mpr ⟨h, h'⟩

theorem mono (h : NestsWithin k ms) (hk : k ≤ n) : NestsWithin n ms :=
  fun m hm => Nat.le_trans (h m hm) hk

/-- The object around members adds a level. Members that are written over do not count. -/
theorem nesting_ofMembers (h : NestsWithin n ms) :
    (Json.object (JsonObject.ofMembers ms)).nesting ≤ n + 1 := by
  rw [JsonObject.ofMembers_eq, Json.nesting_object_le_iff]
  refine OrderedMap.forall_insertAll (P := fun x : Json => x.nesting ≤ n)
    (fun e he => absurd he List.not_mem_nil) ?_
  exact List.forall_mem_map.mpr h

theorem object (key : String) (h : NestsWithin k ms) (hk : k + 1 ≤ n) :
    (Member.object key ms).toJson.nesting ≤ n := by
  rw [Member.toJson_object]
  exact Nat.le_trans h.nesting_ofMembers hk

theorem optional {o : Option α} {f : α → Member} (h : ∀ a ∈ o, (f a).toJson.nesting ≤ n) :
    NestsWithin n (optionalMember o f) := by
  rcases o with _ | a
  · exact nil
  · exact cons (h a rfl) nil

/-- Objects in an array are two levels further down. -/
theorem objects {mss : List (List Member)} (key : String) (h : ∀ ms ∈ mss, NestsWithin k ms)
    (hk : k + 2 ≤ n) : NestsWithin n (nonemptyArray key mss) := by
  rw [nonemptyArray]
  split
  · exact nil
  · refine cons (Member.nesting_array_le key (k := k + 1) ?_ hk) nil
    refine List.forall_mem_map.mpr fun ms hms => ?_
    rw [Item.toJson_object]
    exact (h ms hms).nesting_ofMembers

theorem options {p : Parameters} (h : ∀ v ∈ Parameters.values p, v.nesting ≤ n) :
    NestsWithin n p.members := by
  intro m hm
  have hentry : m.jsonEntry ∈ (p.map Value.toJson).entries := by
    rw [← Parameters.map_jsonEntry_members]
    exact List.mem_map_of_mem hm
  obtain ⟨e, he, heq⟩ := List.mem_map.mp hentry
  have hjson : m.toJson = e.2.toJson := (congrArg Prod.snd heq).symm
  rw [hjson]
  exact Value.nesting_toJson_le (h e.2 (List.mem_map_of_mem he))

end NestsWithin

/-! ## 4. Levels -/

section Levels

variable {n k m : Nat}

theorem LeafTest.nestsWithin_fieldValue {v : Value} {options : Parameters} (field : Field)
    (key : String) (hv : v.nesting ≤ n)
    (hoptions : ∀ w ∈ Parameters.values options, w.nesting ≤ n) :
    NestsWithin (n + 1) (fieldValue field key v options) := by
  rw [fieldValue]
  split
  · exact .cons (Nat.le_succ_of_le (Value.nesting_member_le field.name hv)) .nil
  · refine .cons (NestsWithin.object (k := n) field.name ?_ (Nat.le_refl _)) .nil
    exact .cons (Value.nesting_member_le key hv) (.options hoptions)

/-- A leaf writes its values at most one level below its name. -/
theorem LeafTest.nestsWithin_members {test : LeafTest} {options : Parameters}
    (hvalues : ∀ v ∈ test.values, v.nesting ≤ n)
    (hoptions : ∀ v ∈ Parameters.values options, v.nesting ≤ n) :
    NestsWithin (n + 1) (test.members options) := by
  have hrest : NestsWithin (n + 1) (Parameters.members options) :=
    (NestsWithin.options hoptions).mono (Nat.le_succ n)
  cases test with
  | matchAll => exact hrest
  | term field value =>
      exact nestsWithin_fieldValue field "value" (hvalues value List.mem_cons_self) hoptions
  | terms field values =>
      refine .cons (Member.nesting_array_le field.name (k := n) ?_ (Nat.le_refl _)) hrest
      rw [Value.items_eq]
      exact List.forall_mem_map.mpr fun v hv => Value.nesting_toJson_le (hvalues v hv)
  | range field =>
      exact .cons ((NestsWithin.options hoptions).object field.name (Nat.le_refl _)) .nil
  | matchText field text =>
      exact nestsWithin_fieldValue field "query" (hvalues text List.mem_cons_self) hoptions
  | matchPhrase field phrase =>
      exact nestsWithin_fieldValue field "query" (hvalues phrase List.mem_cons_self) hoptions
  | existsField field => exact .cons (Member.nesting_scalar_le _ _ _) hrest
  | multiMatch text fields =>
      refine .cons ?_ (.cons (Member.nesting_array_le "fields" (k := 0) ?_ (by omega)) hrest)
      · exact Value.nesting_member_le "query" (Nat.le_succ_of_le (hvalues text List.mem_cons_self))
      · exact List.forall_mem_map.mpr fun f _ => Nat.le_of_eq (Item.nesting_scalar _)
  | ids values =>
      refine .cons (Member.nesting_array_le "values" (k := 0) ?_ (by omega)) hrest
      exact List.forall_mem_map.mpr fun id _ => Nat.le_of_eq (Item.nesting_scalar _)

/-- The parameters of a script are one level below its other settings. -/
theorem Script.nestsWithin_members {s : Script}
    (hparams : ∀ v ∈ Parameters.values s.params, v.nesting ≤ n) :
    NestsWithin (n + 1) s.members := by
  refine .append ?_ ?_
  · refine .append ?_ ?_
    · cases s.body with
      | inline source => exact .cons (Member.nesting_scalar_le _ _ _) .nil
      | stored id => exact .cons (Member.nesting_scalar_le _ _ _) .nil
    · cases s.lang with
      | none => exact .nil
      | some lang => exact .cons (Member.nesting_scalar_le _ _ _) .nil
  · split
    · exact .nil
    · exact .cons ((NestsWithin.options hparams).object "params" (Nat.le_refl _)) .nil

/-- A function writes its filter one level down and its values at most three. -/
theorem ScoreFunction.nestsWithin_members {s : ScoreFunction (List Member)}
    (hvalues : ∀ v ∈ s.kind.values, v.nesting ≤ n) (hfilter : ∀ ms ∈ s.filter, NestsWithin k ms)
    (hn : n + 3 ≤ m) (hk : k + 1 ≤ m) : NestsWithin m s.members := by
  refine .append (.append ?_ ?_) ?_
  · exact .optional fun ms hms => (hfilter ms hms).object "filter" hk
  · obtain ⟨filter, weight, kind⟩ := s
    cases kind with
    | weight => exact .nil
    | fieldValueFactor factor =>
        have hfactor : NestsWithin n factor.members :=
          .cons (Member.nesting_scalar_le _ _ _) (.options hvalues)
        exact .cons (hfactor.object "field_value_factor" (by omega)) .nil
    | scriptScore script =>
        have hscript : NestsWithin (n + 2) [.object "script" script.members] :=
          .cons ((Script.nestsWithin_members hvalues).object "script" (Nat.le_refl _)) .nil
        exact .cons (hscript.object "script_score" hn) .nil
  · exact .optional fun x _ => Member.nesting_scalar_le _ _ _

/-- A body writes its sub-queries at most three levels down and its values at most five. -/
theorem Compound.nestsWithin_members {c : Compound (List Member)}
    (hvalues : ∀ v ∈ c.values, v.nesting ≤ n) (hparts : ∀ ms ∈ c.children, NestsWithin k ms)
    (hn : n + 5 ≤ m) (hk : k + 3 ≤ m) : NestsWithin m c.members := by
  cases c with
  | bool b =>
      refine .append ?_ ?_
      · intro x hx
        obtain ⟨occur, -, hoccur⟩ := List.mem_flatMap.mp hx
        refine NestsWithin.objects (k := k) _ ?_ (by omega) x hoccur
        intro ms hms
        apply hparts
        cases occur <;> simp only [BoolBody.clauses] at hms <;>
          simp only [children, BoolBody.children, List.mem_append, hms, true_or, or_true]
      · refine .optional fun v hv => Value.nesting_member_le _ ?_
        have := hvalues v (Option.mem_toList.mpr hv)
        omega
  | disMax b =>
      refine .append ?_ ?_
      · exact .objects "queries" hparts (by omega)
      · exact .optional fun x _ => Member.nesting_scalar_le _ _ _
  | functionScore b =>
      refine .append (.append (.append (.append ?_ ?_) ?_) ?_) ?_
      · refine .optional fun ms hms => NestsWithin.object (k := k) "query" ?_ (by omega)
        exact hparts ms (List.mem_append_left _ (Option.mem_toList.mpr hms))
      · refine .objects (k := m - 2) "functions" (List.forall_mem_map.mpr fun s hs => ?_) (by omega)
        refine ScoreFunction.nestsWithin_members (n := n) (k := k) ?_ ?_ (by omega) (by omega)
        · exact fun v hv => hvalues v (List.mem_flatMap.mpr ⟨s, hs, hv⟩)
        · intro ms hms
          exact hparts ms (List.mem_append_right _ (List.mem_filterMap.mpr ⟨s, hs, hms⟩))
      · exact .optional fun x _ => Member.nesting_scalar_le _ _ _
      · exact .optional fun x _ => Member.nesting_scalar_le _ _ _
      · exact .optional fun x _ => Member.nesting_scalar_le _ _ _

/-- What a form writes inside the object of its name, given what its sub-queries and its values come
to. -/
theorem Form.nestsWithin_body {f : Form (List Member)} (hvalues : ∀ v ∈ f.values, v.nesting ≤ n)
    (hparts : ∀ ms ∈ f.children, NestsWithin k ms) (hn : n + 5 ≤ m) (hk : k + 3 ≤ m) :
    NestsWithin m f.body := by
  cases f with
  | leaf test options =>
      rw [values, List.forall_mem_append] at hvalues
      exact (LeafTest.nestsWithin_members hvalues.1 hvalues.2).mono (by omega)
  | nested path query options =>
      refine .cons (Member.nesting_scalar_le _ _ _) (.cons ?_ ?_)
      · exact (hparts query List.mem_cons_self).object "query" (by omega)
      · exact (NestsWithin.options hvalues).mono (by omega)
  | compound body options =>
      rw [values, List.forall_mem_append] at hvalues
      refine .append (Compound.nestsWithin_members hvalues.1 hparts hn hk) ?_
      exact (NestsWithin.options hvalues.2).mono (by omega)
  | node node =>
      refine .append (Compound.nestsWithin_members hvalues hparts hn hk) ?_
      -- The options of a node are numbers, which do not nest.
      refine .options fun v hv => ?_
      obtain ⟨x, rfl⟩ := node.options_floats v hv
      rw [Value.nesting]
      exact Nat.zero_le m

end Levels

/-! ## 5. Queries -/

namespace Query

/-- What a query writes under its name, by induction on the query: four levels for each query on the
way down. -/
theorem nestsWithin_members {q : Query} {n : Nat} (h : ∀ v ∈ q.values, v.nesting ≤ n) :
    NestsWithin (4 * q.depth + 2 + n) q.members := by
  induction q using Query.induction with
  | step q ih =>
      obtain ⟨hform, hchildren⟩ := forall_mem_values_iff.mp h
      have hpos := q.depth_pos
      have hparts : ∀ ms ∈ (q.form.map members).children,
          NestsWithin (4 * (q.depth - 1) + 2 + n) ms := by
        rw [Form.children_map]
        refine List.forall_mem_map.mpr fun c hc => ?_
        have hlt := depth_lt_of_mem_children hc
        exact (ih c hc (hchildren c hc)).mono (by omega)
      have hbody : NestsWithin (4 * q.depth + 1 + n) q.body := by
        rw [← Form.values_map members] at hform
        exact Form.nestsWithin_body hform hparts (by omega) (by omega)
      rw [members_eq]
      exact .cons (hbody.object q.name (by omega)) .nil

theorem nesting_toJson_le {q : Query} {n : Nat} (h : q.valueNesting ≤ n) :
    (Json.object q.toJson).nesting ≤ 4 * q.depth + 3 + n := by
  have hmembers := (nestsWithin_members (valueNesting_le_iff.mp h)).nesting_ofMembers
  rw [toJson]
  omega

/-- Reduction does not make values nest deeper. -/
theorem valueNesting_le_of_reduce {q r : Query} (h : q.reduce = some r) :
    r.valueNesting ≤ q.valueNesting := by
  refine valueNesting_le_iff.mpr ?_
  refine forall_mem_values_of_reduce (fun x => ?_) (valueNesting_le_iff.mp (Nat.le_refl _)) h
  rw [Value.nesting]
  exact Nat.zero_le _

end Query

/-! ## 6. Queries that nest as deep as they may -/

/-- Arrays in arrays, as many as wanted. -/
def arrayTower : Nat → Value
  | 0 => .null
  | n + 1 => .array [arrayTower n]

theorem nesting_arrayTower (n : Nat) : (arrayTower n).nesting = n := by
  induction n with
  | zero => rfl
  | succ n ih =>
      rw [arrayTower, Value.nesting, Value.deepestItem, Value.deepestItem, ih]
      omega

theorem nesting_toJson_arrayTower (n : Nat) : (arrayTower n).toJson.nesting = n := by
  induction n with
  | zero => rfl
  | succ n ih =>
      rw [arrayTower, Value.toJson_array, List.map_singleton, Json.nesting, Json.deepestItem,
        Json.deepestItem, ih]
      omega

theorem nesting_ofMembers_singleton (m : Member) :
    (Json.object (JsonObject.ofMembers [m])).nesting = 1 + m.toJson.nesting := by
  show 1 + max m.toJson.nesting 0 = _
  rw [Nat.max_zero]

/-- A function_score query puts three levels around what its only function writes. -/
theorem nesting_single_function (ms : List Member) :
    (Json.object (JsonObject.ofMembers
      [.object "function_score" [.array "functions" [.object ms]]])).nesting
      = 3 + (Json.object (JsonObject.ofMembers ms)).nesting := by
  have harray : (Member.array "functions" [.object ms]).toJson.nesting
      = 1 + (Json.object (JsonObject.ofMembers ms)).nesting := by
    rw [Member.toJson_array, List.map_singleton, Item.toJson_object]
    show 1 + max (Json.object (JsonObject.ofMembers ms)).nesting 0 = _
    rw [Nat.max_zero]
  rw [nesting_ofMembers_singleton, Member.toJson_object, nesting_ofMembers_singleton, harray]
  omega

namespace Query

/-- Function_score queries, each in the filter of the only function of the next. The innermost one
has a script, and the value is a parameter of it. -/
def filterChain (v : Value) : Nat → Query
  | 0 => functionScore
      { functions := [.ofScript { body := .inline "_score", params := ⟨[("p", v)]⟩ }] }
  | d + 1 => functionScore { functions := [{ filter := some (filterChain v d), kind := .weight }] }

section FilterChain

variable (v : Value) (d : Nat)

theorem depth_filterChain : (filterChain v d).depth = d + 1 := by
  induction d with
  | zero => exact depth_eq _
  | succ d ih =>
      have hchildren : (filterChain v (d + 1)).children = [filterChain v d] := rfl
      rw [depth_eq, hchildren, List.map_singleton, ih, List.foldl_cons, List.foldl_nil]
      omega

theorem values_filterChain : (filterChain v d).values = [v] := by
  induction d with
  | zero =>
      rw [values, walk_cons]
      rfl
  | succ d ih =>
      have hwalk : (filterChain v (d + 1)).walk
          = filterChain v (d + 1) :: (filterChain v d).walk := by
        rw [walk_cons]
        exact congrArg (filterChain v (d + 1) :: ·) (List.append_nil _)
      rw [values, hwalk, List.flatMap_cons]
      exact ih

theorem nesting_filterChain :
    (Json.object (filterChain v d).toJson).nesting = 4 * (d + 1) + 3 + v.toJson.nesting := by
  induction d with
  | zero =>
      have hmembers : (filterChain v 0).members = [.object "function_score" [.array "functions"
          [.object [.object "script_score" [.object "script"
            [.string "source" "_score", .object "params" [v.member "p"]]]]]]] := by
        rw [members_eq]
        rfl
      have hscript : (Json.object (JsonObject.ofMembers
          [.string "source" "_score", .object "params" [v.member "p"]])).nesting
          = 2 + v.toJson.nesting := by
        show 1 + max 0 (max (Member.object "params" [v.member "p"]).toJson.nesting 0) = _
        rw [Member.toJson_object, nesting_ofMembers_singleton, Value.toJson_member]
        omega
      rw [toJson, hmembers, nesting_single_function, nesting_ofMembers_singleton,
        Member.toJson_object, nesting_ofMembers_singleton, Member.toJson_object, hscript]
      omega
  | succ d ih =>
      have hmembers : (filterChain v (d + 1)).members = [.object "function_score"
          [.array "functions" [.object [.object "filter" (filterChain v d).members]]]] := by
        rw [members_eq]
        rfl
      rw [toJson] at ih
      rw [toJson, hmembers, nesting_single_function, nesting_ofMembers_singleton,
        Member.toJson_object, ih]
      omega

/-- There is nothing to be reduced in the chain: every query in it has a function. -/
theorem normal_filterChain : Normal (filterChain v d) := by
  induction d with
  | zero => exact .compound _ _ (Or.inl Nat.one_ne_zero) fun c hc => absurd hc List.not_mem_nil
  | succ d ih => exact .compound _ _ (Or.inl Nat.one_ne_zero) (List.forall_mem_singleton.mpr ih)

theorem compile_filterChain (h : d < 128) :
    (filterChain v d).compile = .ok (some (filterChain v d).toJson) := by
  have hdepth : (filterChain v d).depth ≤ 128 := by
    rw [depth_filterChain]
    exact h
  rw [compile, (normal_filterChain v d).reduce_eq]
  show ((filterChain v d).checkDepth >>= fun _ => .ok (some (filterChain v d).toJson)) = _
  rw [checkDepth_of_le hdepth]
  rfl

end FilterChain

theorem valueNesting_filterChain (n d : Nat) : (filterChain (arrayTower n) d).valueNesting = n := by
  rw [valueNesting, values_filterChain, List.map_singleton, nesting_arrayTower]
  exact Nat.zero_max n

end Query

/-! ## 7. The bound -/

namespace Query

/-- **Nesting is bounded by depth.** The document of a query nests at most four levels for each query
on the longest way down, three more, and the levels of a value. What is compiled is of a depth of
128 at most, so that its nesting is bounded whatever the query was. -/
theorem nesting_bounded_by_depth (q : Query) :
    (Json.object q.toJson).nesting ≤ 4 * q.depth + 3 + q.valueNesting ∧
    ∀ o, q.compile = .ok (some o) → (Json.object o).nesting ≤ 515 + q.valueNesting := by
  refine ⟨nesting_toJson_le (Nat.le_refl _), fun o ho => ?_⟩
  obtain ⟨r, hr, hdepth, rfl⟩ := exists_reduce_of_compile ho
  have hnesting := nesting_toJson_le (valueNesting_le_of_reduce hr)
  omega

theorem nesting_bounded_filterChain :
    ∃ o, (filterChain (arrayTower 2) 127).compile = .ok (some o) ∧
      (Json.object o).nesting ≤ 515 + (filterChain (arrayTower 2) 127).valueNesting ∧
      (filterChain (arrayTower 2) 127).valueNesting = 2 := by
  have hcompile := compile_filterChain (arrayTower 2) 127 (by omega)
  have hbounded := nesting_bounded_by_depth (filterChain (arrayTower 2) 127)
  exact ⟨_, hcompile, hbounded.2 _ hcompile, valueNesting_filterChain 2 127⟩

/-- Neither bound can be lowered: they are attained for every depth and every nesting of values. -/
theorem nesting_bound_attained (n : Nat) :
    (∀ d, ∃ q : Query, q.depth = d + 1 ∧ q.valueNesting = n ∧
      (Json.object q.toJson).nesting = 4 * q.depth + 3 + q.valueNesting) ∧
    ∃ (q : Query) (o : JsonObject), q.valueNesting = n ∧ q.compile = .ok (some o) ∧
      (Json.object o).nesting = 515 + q.valueNesting := by
  have hnesting (d : Nat) : (Json.object (filterChain (arrayTower n) d).toJson).nesting
      = 4 * (d + 1) + 3 + n := by
    rw [nesting_filterChain, nesting_toJson_arrayTower]
  refine ⟨fun d => ⟨filterChain (arrayTower n) d, depth_filterChain _ d,
    valueNesting_filterChain n d, ?_⟩, filterChain (arrayTower n) 127, _,
    valueNesting_filterChain n 127, compile_filterChain (arrayTower n) 127 (by omega), ?_⟩
  · rw [hnesting, depth_filterChain, valueNesting_filterChain]
  · rw [hnesting, valueNesting_filterChain]

end Query

end SearchQuery
