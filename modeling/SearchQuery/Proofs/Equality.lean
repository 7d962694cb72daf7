import SearchQuery.Proofs.Compilation
import SearchQuery.Proofs.Equality.Levels
import SearchQuery.Proofs.Lookup

/-!
# Equality is respected by everything downstream

Equal queries cannot be told apart by anything that is done with them: they are equally deep, have
as many queries under the same names, hold the same handles, reduce to equal queries and compile to
equal documents (`beq_respected`). Equal queries may differ in the order of their options, in the
signs of zeros and in the labels of their handles, so the two are followed side by side. The
induction is `Same.induction`: two levels that are alike over pairs of sub-queries of which the
statement already holds.
-/

namespace SearchQuery

namespace Query

/-! ## 1. Equality level by level -/

/-- Two queries are equal when their levels agree and their sub-queries are equal one by one. -/
theorem beq_iff {a b : Query} :
    (a == b) = true ↔ a.form.agrees b.form = true ∧
      List.Forall₂ (fun c d => (c == d) = true) a.children b.children := by
  have hzip : (a.children.attach.zip b.children).all (fun pair => beq pair.1.1 pair.2)
      = (a.children.zip b.children).all fun pair => pair.1 == pair.2 := by
    conv => rhs; rw [← List.attach_map_subtype_val a.children, List.zip_map_left, List.all_map]
    rfl
  show beq a b = true ↔ _
  rw [beq, hzip, Bool.and_eq_true, List.all_eq_true, List.forall₂_iff_zip]
  constructor
  · rintro ⟨hagrees, hall⟩
    exact ⟨hagrees, Form.length_children_eq_of_agrees hagrees, fun hmem => hall _ hmem⟩
  · rintro ⟨hagrees, -, hall⟩
    exact ⟨hagrees, fun pair hmem => hall hmem⟩

theorem wellFormed_iff {q : Query} :
    q.WellFormed ↔ q.form.WellFormed ∧ ∀ c ∈ q.children, c.WellFormed :=
  forall_at?_iff

/-- A query that may be used in place of another. -/
structure Same (a b : Query) : Prop where
  wellFormed : a.WellFormed
  beq : (a == b) = true

namespace Same

variable {a b : Query}

theorem children (h : a.Same b) : List.Forall₂ Same a.children b.children := by
  have hpairs := (List.forall₂_and_left a.children b.children).mpr
    ⟨(wellFormed_iff.mp h.wellFormed).2, (beq_iff.mp h.beq).2⟩
  exact hpairs.imp fun c d hcd => ⟨hcd.1, hcd.2⟩

theorem form (h : a.Same b) {R : Query → Query → Prop}
    (hchildren : List.Forall₂ R a.children b.children) : Form.Alike R a.form b.form :=
  Form.alike_of_agrees (beq_iff.mp h.beq).1 (wellFormed_iff.mp h.wellFormed).1 hchildren

/-- A statement about equal queries follows from its passing from pairs of sub-queries in the same
places to the queries. -/
theorem induction {motive : Query → Query → Prop}
    (step : ∀ a b, a.Same b → Form.Alike motive a.form b.form → motive a b) (h : a.Same b) :
    motive a b := by
  induction a using Query.induction generalizing b with
  | step a ih =>
      have hmem := (List.forall₂_and_left a.children b.children).mpr ⟨fun c hc => hc, h.children⟩
      exact step a b h (h.form (hmem.imp fun c d hcd => ih c hcd.1 hcd.2))

/-- A compound query over equal sub-queries is equal. -/
theorem compound {c d : Compound Query} {p p' : Parameters} (h : Compound.Alike Same c d)
    (hp : p.Same p') : Same (.compound c p) (.compound d p') := by
  refine ⟨wellFormed_iff.mpr ⟨⟨h.wellFormed, hp.wellFormed⟩, fun x hx => ?_⟩,
    beq_iff.mpr ⟨?_, h.children.imp fun x y hxy => hxy.beq⟩⟩
  · obtain ⟨y, -, hxy⟩ := exists_of_forall₂ h.children hx
    exact hxy.wellFormed
  · show (c.agrees d && p == p') = true
    rw [Bool.and_eq_true]
    exact ⟨h.agrees, hp.beq⟩

/-! ## 2. What is done with a query -/

theorem depth_eq (h : a.Same b) : a.depth = b.depth := by
  refine h.induction (motive := fun a b => a.depth = b.depth) ?_
  intro a b _ hlevel
  have hbelow : a.children.map depth = b.children.map depth := map_eq_of_forall₂ hlevel.children
  rw [Query.depth_eq a, Query.depth_eq b, hbelow]

theorem names_eq (h : a.Same b) : a.walk.map name = b.walk.map name := by
  refine h.induction (motive := fun a b => a.walk.map name = b.walk.map name) ?_
  intro a b _ hlevel
  have hbelow : (a.children.map fun c => c.walk.map name)
      = b.children.map fun c => c.walk.map name :=
    map_eq_of_forall₂ hlevel.children
  have hname : a.name = b.name := hlevel.name_eq
  rw [walk_cons a, walk_cons b, List.map_cons, List.map_cons, hname, List.map_flatMap,
    List.map_flatMap, List.flatMap_def, List.flatMap_def, List.map_reverse, List.map_reverse,
    hbelow]

/-- Equal queries are bound to the same handles. -/
theorem isBoundTo_eq (h : a.Same b) {kind : NodeKind} (x : Handle kind) :
    a.isBoundTo x = b.isBoundTo x := by
  have hagrees := (beq_iff.mp h.beq).1
  obtain ⟨f⟩ := a
  obtain ⟨g⟩ := b
  cases f with
  | node n =>
      cases g with
      | node m => exact BoundNode.isBoundTo_eq_of_agrees hagrees x
      | _ => cases hagrees
  | _ =>
      cases g with
      | node m => cases hagrees
      | _ => rfl

theorem boundCount_eq (h : a.Same b) {kind : NodeKind} (x : Handle kind) :
    a.boundCount x = b.boundCount x := by
  refine h.induction (motive := fun a b => a.boundCount x = b.boundCount x) ?_
  intro a b hab hlevel
  have hbelow : (a.children.map fun c => c.boundCount x)
      = b.children.map fun c => c.boundCount x :=
    map_eq_of_forall₂ hlevel.children
  have htotal := congrArg (total id) hbelow
  rw [total_map, total_map] at htotal
  rw [boundCount_cons a, boundCount_cons b, hab.isBoundTo_eq x]
  exact congrArg _ htotal

/-- What equal queries write cannot be told apart in a document. -/
theorem members_alike (h : a.Same b) : WriteAlike a.members b.members := by
  refine h.induction (motive := fun a b => WriteAlike a.members b.members) ?_
  intro a b _ hlevel
  have hname : a.name = b.name := hlevel.name_eq
  rw [members_eq a, members_eq b, hname]
  exact WriteAlike.object b.name hlevel.map.body

/-- Settling looks at how many sub-queries there are and keeps them as they are. -/
theorem settle {c d : Compound Query} {p p' : Parameters} (h : Compound.Alike Same c d)
    (hp : p.Same p') : Option.Rel Same (settle c p) (settle d p') := by
  rw [settle_eq, settle_eq]
  by_cases hs : c.Stands
  · rw [if_pos hs, if_pos (h.stands_iff.mp hs)]
    exact .some (compound h hp)
  · rw [if_neg hs, if_neg (mt h.stands_iff.mpr hs)]
    exact optionRel_head? h.children

/-- Equal queries come to nothing together, or their reductions are equal. -/
theorem reduce (h : a.Same b) : Option.Rel Same a.reduce b.reduce := by
  refine h.induction (motive := fun a b => Option.Rel Same a.reduce b.reduce) ?_
  intro a b hab hlevel
  obtain ⟨f⟩ := a
  obtain ⟨g⟩ := b
  cases hlevel with
  | @leaf t t' p p' test options =>
      show Option.Rel Same (Query.leaf t p).reduce (Query.leaf t' p').reduce
      rw [reduce_leaf, reduce_leaf]
      exact .some hab
  | @nested path q q' p p' query options =>
      show Option.Rel Same (Query.nested path q p).reduce (Query.nested path q' p').reduce
      rw [reduce_nested, reduce_nested]
      exact .some hab
  | @compound c d p p' body options =>
      show Option.Rel Same (Query.compound c p).reduce (Query.compound d p').reduce
      rw [reduce_compound, reduce_compound]
      exact settle body.map.prune options
  | @node n m body options =>
      rw [reduce_node, reduce_node, reduce_compound, reduce_compound]
      exact settle body.map.prune options

end Same

/-! ## 3. Compilation -/

/-- Compiling comes to the same: to nothing, to the same error, or to documents that are equal
without regard to the order of their keys and to the signs of zeros. -/
inductive SameOutcome :
    Except QueryError (Option JsonObject) → Except QueryError (Option JsonObject) → Prop
  | nothing : SameOutcome (.ok none) (.ok none)
  | refused (e : QueryError) : SameOutcome (.error e) (.error e)
  | document {o o' : JsonObject} (equal : (Json.object o == .object o') = true) :
    SameOutcome (.ok (some o)) (.ok (some o'))

theorem Same.compile {a b : Query} (h : a.Same b) : SameOutcome a.compile b.compile := by
  have hreduce := h.reduce
  rw [Query.compile, Query.compile]
  cases ha : a.reduce with
  | none =>
      rw [(eq_none_iff_of_optionRel hreduce).mp ha]
      exact .nothing
  | some r =>
      rw [ha] at hreduce
      obtain ⟨s, hs, hrs⟩ := exists_of_optionRel hreduce
      rw [hs]
      show SameOutcome (r.checkDepth >>= fun _ => .ok (some r.toJson))
        (s.checkDepth >>= fun _ => .ok (some s.toJson))
      by_cases hdepth : r.depth ≤ 128
      · rw [checkDepth_of_le hdepth, checkDepth_of_le (hrs.depth_eq ▸ hdepth)]
        exact .document hrs.members_alike.ofMembers_beq
      · have hlt : 128 < r.depth := Nat.lt_of_not_le hdepth
        rw [checkDepth_of_lt hlt, checkDepth_of_lt (hrs.depth_eq ▸ hlt), hrs.depth_eq]
        exact .refused _

/-- The two queries cannot be told apart by what is done with them. -/
structure Indistinguishable (a b : Query) : Prop where
  depth : a.depth = b.depth
  countNodes : a.countNodes = b.countNodes
  names : a.walk.map name = b.walk.map name
  reduce : Option.Rel (fun r s => (r == s) = true) a.reduce b.reduce
  boundCount : ∀ (kind : NodeKind) (handle : Handle kind),
    a.boundCount handle = b.boundCount handle
  compile : SameOutcome a.compile b.compile

/-- **Equality is respected.** Queries that are equal are indistinguishable, whatever the keys of
their options are. -/
theorem beq_respected {a b : Query} (ha : a.WellFormed) (h : (a == b) = true) :
    a.Indistinguishable b := by
  have hsame : a.Same b := ⟨ha, h⟩
  refine ⟨hsame.depth_eq, ?_, hsame.names_eq, ?_, fun _ => hsame.boundCount_eq, hsame.compile⟩
  · have hlength := congrArg List.length hsame.names_eq
    rwa [List.length_map, List.length_map] at hlength
  · exact optionRel_imp (fun _ _ hrs => hrs.beq) hsame.reduce

/-! Two queries that differ in the order of their options and in the sign of a zero. One option
repeats the key under which the clause is written. -/

def weightedQuery (options : Parameters) : Query :=
  .bool { filter := [.leaf .matchAll options] } options

def weightLast : Parameters := ⟨[("filter", .boolean true), ("boost", .float (.zero false))]⟩

def weightFirst : Parameters := ⟨[("boost", .float (.zero true)), ("filter", .boolean true)]⟩

theorem wellFormed_weightedQuery {options : Parameters} (h : options.WellFormed) :
    (weightedQuery options).WellFormed := by
  have hleaf : (leaf .matchAll options).WellFormed :=
    wellFormed_iff.mpr ⟨⟨fun v hv => absurd hv List.not_mem_nil, h⟩,
      fun c hc => absurd hc List.not_mem_nil⟩
  refine wellFormed_iff.mpr ⟨⟨fun v hv => ?_, h⟩, List.forall_mem_singleton.mpr hleaf⟩
  cases hv

theorem weightedQuery_beq {p p' : Parameters} (h : (p == p') = true) :
    (weightedQuery p == weightedQuery p') = true := by
  have hleaf : (leaf .matchAll p == leaf .matchAll p') = true := beq_iff.mpr ⟨h, .nil⟩
  refine beq_iff.mpr ⟨?_, .cons hleaf .nil⟩
  show (true && p == p') = true
  rw [h]
  rfl

theorem beq_respected_by_weighted :
    (weightedQuery weightLast).WellFormed ∧
    (weightedQuery weightLast == weightedQuery weightFirst) = true ∧
    (weightedQuery weightLast).Indistinguishable (weightedQuery weightFirst) := by
  have hlast : weightLast.WellFormed :=
    (Parameters.WellFormed.empty.insert "filter" (.boolean true)).insert "boost"
      (.float (.zero false))
  have hwell := wellFormed_weightedQuery hlast
  have hoptions : (weightLast == weightFirst) = true := by decide
  have hbeq := weightedQuery_beq hoptions
  exact ⟨hwell, hbeq, beq_respected hwell hbeq⟩

end Query

end SearchQuery
