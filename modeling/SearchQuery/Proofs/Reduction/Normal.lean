import SearchQuery.Proofs.Reduction

/-!
# Normal queries

What reduction leaves is normal: outside nested queries there is no node, and every body stands.
Normal queries are also the only ones that reduction leaves as they are, so that a second reduction
never finds anything to do.
-/

namespace SearchQuery

namespace Query

/-- Nothing is left to be reduced. A query below a nested one is not looked at, and there is no case
for a node. -/
inductive Normal : Query → Prop where
  | leaf (test : LeafTest) (options : Parameters) : Normal (leaf test options)
  | nested (path : Field) (query : Query) (options : Parameters) :
    Normal (nested path query options)
  | compound (body : Compound Query) (options : Parameters) (stands : body.Stands)
    (parts : ∀ c ∈ body.children, Normal c) : Normal (compound body options)

/-- What settling makes of normal sub-queries is normal: either the body stands, or the result is
one of them. -/
theorem Normal.of_settle {body : Compound Query} {options : Parameters} {r : Query}
    (parts : ∀ c ∈ body.children, Normal c) (h : settle body options = some r) : Normal r := by
  rw [settle_eq] at h
  by_cases hs : body.Stands
  · rw [if_pos hs, Option.some.injEq] at h
    rw [← h]
    exact .compound body options hs parts
  · rw [if_neg hs] at h
    exact parts r (List.mem_of_mem_head? h)

/-- The result of a reduction is normal. -/
theorem normal_of_reduce {t r : Query} (h : t.reduce = some r) : Normal r := by
  revert r
  refine reduce_induction (motive := fun _ result => ∀ {r}, result = some r → Normal r)
    ?_ ?_ ?_ (fun n result h => h) t
  · intro test options r h
    rw [← Option.some.inj h]
    exact .leaf test options
  · intro path query options r h
    rw [← Option.some.inj h]
    exact .nested path query options
  · intro body options ih r h
    refine Normal.of_settle (fun c hc => ?_) h
    -- What is left of a body are reductions of its sub-queries.
    obtain ⟨d, hd, hdc⟩ := Compound.mem_children_prune_map.mp hc
    exact ih d hd hdc

/-- A normal query is left as it is. -/
theorem Normal.reduce_eq {t : Query} (h : Normal t) : t.reduce = some t := by
  induction h with
  | leaf test options => exact reduce_leaf test options
  | nested path query options => exact reduce_nested path query options
  | compound body options stands parts ih =>
      rw [reduce_compound, Compound.map_congr ih, Compound.prune_map_some, settle_eq,
        if_pos stands]

/-- **Normal form.** Reduction ends in a normal query, if anything is left; it leaves exactly the
normal queries as they are; and reducing twice is reducing once. -/
theorem reduce_normal_form (t : Query) :
    (∀ r, t.reduce = some r → Normal r) ∧ (t.reduce = some t ↔ Normal t) ∧
      t.reduce.bind reduce = t.reduce := by
  refine ⟨fun r h => normal_of_reduce h, ⟨normal_of_reduce, Normal.reduce_eq⟩, ?_⟩
  cases h : t.reduce with
  | none => rfl
  | some r => exact (normal_of_reduce h).reduce_eq

end Query

end SearchQuery
