import SearchQuery.Proofs.Compilation
import SearchQuery.Proofs.Keys.Typed

/-!
# Which typed queries lose nothing

A query that is built with typed options alone writes each key once into each object, with a single
exception: a `terms` query writes its values under the name of its field and its boost beside them,
so that the two fall together if the field is called `boost`. `keysApart_members_iff` says that this
is the only way in which a typed query can lose something, and `typed_writes_kept` what it means for
the document, also of the reduced query.
-/

namespace SearchQuery

open OrderedMap

variable {α β : Type}

/-! ## 1. One level -/

namespace BoundNode

/-- What a node sets amounts to typed options of the query it stands for. -/
theorem options_typedFor (n : BoundNode α) : n.options.TypedFor (.query n.body.kind) := by
  have boosts {kind : QueryKind} (boost : Option Double) :
      (Parameters.ofEntries [("boost", toValue boost)]).TypedFor (.query kind) := by
    rcases boost with _ | x
    · exact Parameters.typedFor_ofOptions [] fun o ho => absurd ho List.not_mem_nil
    · exact Parameters.typedFor_ofOptions [.boost x] (List.forall_mem_singleton.mpr (.float x))
  cases n with
  | bool handle node => exact boosts node.boost
  | disMax handle node => exact boosts node.boost
  | functionScore handle node =>
      obtain ⟨body, maxBoost, boost⟩ := node
      rcases maxBoost with _ | y
      · -- Assigning nothing to a container that is empty leaves it empty.
        exact boosts boost
      · rcases boost with _ | x
        · exact Parameters.typedFor_ofOptions [.maxBoost y]
            (List.forall_mem_singleton.mpr (.float y))
        · exact Parameters.typedFor_ofOptions [.maxBoost y, .boost x]
            (List.forall_mem_cons.mpr ⟨.float y, List.forall_mem_singleton.mpr (.float x)⟩)

end BoundNode

namespace Compound

theorem typed_map (f : α → β) (c : Compound α) : (c.map f).Typed ↔ c.Typed := by
  cases c with
  | bool b => rfl
  | disMax b => rfl
  | functionScore b => exact List.forall_mem_map

theorem typed_prune (c : Compound (Option α)) : c.prune.Typed ↔ c.Typed := by
  cases c with
  | bool b => rfl
  | disMax b => rfl
  | functionScore b => exact List.forall_mem_map

theorem kind_map (f : α → β) (c : Compound α) : (c.map f).kind = c.kind := by
  cases c with
  | bool b => rfl
  | disMax b => rfl
  | functionScore b => rfl

theorem kind_prune (c : Compound (Option α)) : c.prune.kind = c.kind := by
  cases c with
  | bool b => rfl
  | disMax b => rfl
  | functionScore b => rfl

end Compound

namespace Form

theorem typed_map (f : α → β) (x : Form α) : (x.map f).Typed ↔ x.Typed := by
  cases x with
  | leaf test options => rfl
  | nested path query options => rfl
  | compound body options => rw [map, Typed, Typed, Compound.typed_map, Compound.kind_map]
  | node n => rw [map, Typed, Typed, BoundNode.body_map, Compound.typed_map]

theorem boostsBoost_map (f : α → β) (x : Form α) : (x.map f).BoostsBoost ↔ x.BoostsBoost := by
  cases x with
  | leaf test options => cases test <;> rfl
  | nested path query options => rfl
  | compound body options => rfl
  | node n => rfl

/-- On one level nothing clashes but the boost of a `terms` query with a field of that name. -/
theorem keysApart_body_iff {f : Form (List Member)} (typed : f.Typed) :
    KeysApart f.body ↔ ¬ f.BoostsBoost ∧ ∀ ms ∈ f.children, KeysApart ms := by
  cases f with
  | leaf test options =>
      refine (LeafTest.keysApart_iff (α := List Member) typed.1 typed.2).trans ?_
      exact (and_iff_left fun ms hms => absurd hms List.not_mem_nil).symm
  | nested path query options =>
      have hparts : KeysApart ([.string "path" path.name, .object "query" query] ++
          Parameters.members options) ↔ KeysApart query := by
        refine (keysApart_with_options (QueryKind.nodup_keys .nested) (List.Sublist.refl _)
          typed).trans ?_
        rw [List.forall_mem_cons, List.forall_mem_singleton, Member.keysApart_object]
        exact and_iff_right trivial
      refine hparts.trans ?_
      rw [children, List.forall_mem_singleton]
      exact (and_iff_right id).symm
  | compound body options =>
      refine (Compound.keysApart_iff typed.1 typed.2).trans ?_
      exact (and_iff_right id).symm
  | node n =>
      refine (Compound.keysApart_iff typed n.options_typedFor).trans ?_
      exact (and_iff_right id).symm

end Form

namespace Query

/-! ## 2. All levels -/

/-- Some `terms` query in the tree has a boost that is written over the values of its field. -/
def BoostsBoost (q : Query) : Prop :=
  ∃ (p : Position) (x : Query), q.at? p = some x ∧ x.form.BoostsBoost

theorem typed_iff {q : Query} : q.Typed ↔ q.form.Typed ∧ ∀ c ∈ q.children, c.Typed :=
  forall_at?_iff

theorem not_boostsBoost_iff {q : Query} :
    ¬ q.BoostsBoost ↔ ¬ q.form.BoostsBoost ∧ ∀ c ∈ q.children, ¬ c.BoostsBoost := by
  simp only [BoostsBoost, not_exists, not_and]
  exact forall_at?_iff

/-- The keys that a typed query writes are apart unless it boosts a field called `boost`. -/
theorem keysApart_members_iff {q : Query} (typed : q.Typed) :
    KeysApart q.members ↔ ¬ q.BoostsBoost := by
  induction q using Query.induction with
  | step q ih =>
      obtain ⟨hform, hchildren⟩ := typed_iff.mp typed
      have hbody : KeysApart q.body ↔
          ¬ q.form.BoostsBoost ∧ ∀ c ∈ q.children, KeysApart c.members := by
        refine (Form.keysApart_body_iff ((Form.typed_map members q.form).mpr hform)).trans ?_
        rw [Form.boostsBoost_map, Form.children_map, List.forall_mem_map]
        rfl
      rw [members_eq, KeysApart.single_iff, Member.keysApart_object, hbody, not_boostsBoost_iff]
      exact and_congr_right fun _ => forall₂_congr fun c hc => ih c hc (hchildren c hc)

/-! ## 3. Reduction -/

/-- Reduction neither gives a typed query untyped options nor makes it boost a field called
`boost`. -/
theorem typed_of_reduce {q r : Query} (typed : q.Typed) (hboost : ¬ q.BoostsBoost)
    (h : q.reduce = some r) : r.Typed ∧ ¬ r.BoostsBoost := by
  have hq : ∀ (p : Position) (x : Query), q.at? p = some x →
      x.form.Typed ∧ ¬ x.form.BoostsBoost :=
    fun p x hx => ⟨typed p x hx, fun hbb => hboost ⟨p, x, hx, hbb⟩⟩
  have hr := forall_levels_of_reduce (P := fun f => f.Typed ∧ ¬ f.BoostsBoost)
    (fun n hn => ⟨⟨hn.1, n.options_typedFor⟩, id⟩)
    (fun body options hbody => by
      refine ⟨⟨?_, ?_⟩, id⟩
      · rw [Compound.typed_prune, Compound.typed_map]
        exact hbody.1.1
      · rw [Compound.kind_prune, Compound.kind_map]
        exact hbody.1.2) hq h
  exact ⟨fun p x hx => (hr p x hx).1, fun ⟨p, x, hx, hbb⟩ => (hr p x hx).2 hbb⟩

/-! ## 4. What is kept -/

/-- Nothing that is written into an open object is overwritten: the keys are apart in every object,
and the document has one entry for each member, in order and at every depth. -/
structure KeepsWrites (q : Query) : Prop where
  apart : KeysApart q.members
  document : q.toJson = ⟨Member.literals q.members⟩

theorem keepsWrites_iff {q : Query} (typed : q.Typed) : q.KeepsWrites ↔ ¬ q.BoostsBoost := by
  rw [← keysApart_members_iff typed]
  exact ⟨fun h => h.apart, fun h => ⟨h, ofMembers_eq_literals_iff.mpr h⟩⟩

theorem toJson_of_compile {q : Query} {o : JsonObject} (h : q.compile = .ok (some o)) :
    ∃ r, q.reduce = some r ∧ o = r.toJson := by
  obtain ⟨r, hr, -, ho⟩ := exists_reduce_of_compile h
  exact ⟨r, hr, ho⟩

/-- A `terms` query with a boost beside the values of its field. -/
def boostedTerms (name : String) : Query :=
  .leaf (.terms ⟨name⟩ [.integer 1])
    (Parameters.ofOptions [(.boost ⟨0x4000000000000000⟩ : TypedOption (.query .terms))])

theorem typed_boostedTerms (name : String) : (boostedTerms name).Typed := by
  refine typed_iff.mpr ⟨?_, fun c hc => ?_⟩
  · exact ⟨List.forall_mem_singleton.mpr (.integer 1),
      Parameters.typedFor_ofOptions _ (List.forall_mem_singleton.mpr (.float _))⟩
  · cases hc

/-- If the field is called `boost`, the boost is written over the values that it is tested for. -/
theorem boostedTerms_overwrites :
    (boostedTerms "boost").Typed ∧ ¬ KeysApart (boostedTerms "boost").members ∧
    ¬ (boostedTerms "boost").KeepsWrites ∧
    (boostedTerms "boost").toJson
      = ⟨[("terms", .object ⟨[("boost", .float ⟨0x4000000000000000⟩)]⟩)]⟩ := by
  have typed := typed_boostedTerms "boost"
  have hboost : (boostedTerms "boost").BoostsBoost :=
    ⟨[], _, at?_nil _, rfl, List.mem_singleton.mpr rfl⟩
  refine ⟨typed, fun h => (keysApart_members_iff typed).mp h hboost,
    fun h => (keepsWrites_iff typed).mp h hboost, ?_⟩
  rw [toJson, members_eq]
  rfl

/-- **Typed writes are kept.** A query that is built with typed options overwrites nothing of what
it writes, unless there is a `terms` query in it with a field called `boost` and a boost; neither
does what is left of it after reduction, at any depth, which is what it is compiled to. -/
theorem typed_writes_kept {q : Query} (typed : q.Typed) :
    (q.KeepsWrites ↔ ¬ q.BoostsBoost) ∧
    (¬ q.BoostsBoost → ∀ r, q.reduce = some r → r.KeepsWrites) ∧
    (¬ q.BoostsBoost → ∀ o, q.compile = .ok (some o) →
      ∃ r, q.reduce = some r ∧ r.KeepsWrites ∧ o = r.toJson) := by
  have hreduced : ¬ q.BoostsBoost → ∀ r, q.reduce = some r → r.KeepsWrites := by
    intro hboost r hr
    obtain ⟨hrTyped, hrBoost⟩ := typed_of_reduce typed hboost hr
    exact (keepsWrites_iff hrTyped).mpr hrBoost
  refine ⟨keepsWrites_iff typed, hreduced, fun hboost o ho => ?_⟩
  obtain ⟨r, hr, rfl⟩ := toJson_of_compile ho
  exact ⟨r, hr, hreduced hboost r hr, rfl⟩

theorem typed_writes_kept_tags :
    (boostedTerms "tags").Typed ∧ (boostedTerms "tags").KeepsWrites ∧
    (∃ r, (boostedTerms "tags").reduce = some r ∧ r.KeepsWrites) ∧
    ∃ o, (boostedTerms "tags").compile = .ok (some o) ∧
      ∃ r, (boostedTerms "tags").reduce = some r ∧ r.KeepsWrites ∧ o = r.toJson := by
  have typed := typed_boostedTerms "tags"
  have hboost : ¬ (boostedTerms "tags").BoostsBoost := by
    refine not_boostsBoost_iff.mpr ⟨fun h => ?_, fun c hc => ?_⟩
    · exact absurd h.1 (by decide)
    · cases hc
  have hdepth : (boostedTerms "tags").depth ≤ 128 := by
    rw [depth_eq]
    decide
  have hreduce : (boostedTerms "tags").reduce = some (boostedTerms "tags") := reduce_leaf _ _
  have hcompile : (boostedTerms "tags").compile = .ok (some (boostedTerms "tags").toJson) := by
    rw [compile, hreduce]
    show ((boostedTerms "tags").checkDepth >>= fun _ => .ok (some (boostedTerms "tags").toJson)) = _
    rw [checkDepth_of_le hdepth]
    rfl
  obtain ⟨hkept, hreduced, hcompiled⟩ := typed_writes_kept typed
  exact ⟨typed, hkept.mpr hboost, ⟨_, hreduce, hreduced hboost _ hreduce⟩, _, hcompile,
    hcompiled hboost _ hcompile⟩

end Query

end SearchQuery
