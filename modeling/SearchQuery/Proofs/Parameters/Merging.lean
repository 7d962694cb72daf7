import SearchQuery.Proofs.Parameters

/-!
# Merging containers

Entries that are merged into a container are assigned one after the other, and a null entry takes
its key away. The entries of another container are never null, so merging it only inserts: its keys
get its values, in the place where they stand already or at the end, and nothing is removed. What a
merged container says to the outside is then a matter of `get?` and `keys`, and from these two
merging is found to be an idempotent monoid whose unit is the empty container
(`merging_is_idempotent_monoid`).
-/

namespace SearchQuery

open OrderedMap

namespace Parameters

/-- The second container merged into the first. -/
def overlay (p q : Parameters) : Parameters := merge p q.entries

variable {p q r : Parameters}

/-! ## 1. What a merged container says -/

theorem overlay_eq (hq : q.Proper) (p : Parameters) : overlay p q = p.insertAll q.entries :=
  merge_of_not_null hq.notNull p

theorem Proper.overlay (hp : p.Proper) (hq : q.Proper) : (Parameters.overlay p q).Proper :=
  hp.merge hq.parts

theorem get?_overlay (hq : q.Proper) (p : Parameters) (key : String) :
    (overlay p q).get? key = (q.get? key).or (p.get? key) := by
  rw [overlay_eq hq]
  exact get?_insertAll hq.distinct p key

theorem keys_overlay (hq : q.Proper) (p : Parameters) :
    (overlay p q).keys = p.keys ++ q.keys.filter (· ∉ p.keys) := by
  rw [overlay_eq hq]
  exact keys_insertAll hq.distinct p

theorem mem_keys_overlay (hq : q.Proper) {key : String} :
    key ∈ (overlay p q).keys ↔ key ∈ p.keys ∨ key ∈ q.keys := by
  rw [keys_overlay hq]
  exact mem_append_new

/-! ## 2. The laws -/

theorem overlay_empty (p : Parameters) : overlay p OrderedMap.empty = p := rfl

theorem empty_overlay (hp : p.Proper) : overlay OrderedMap.empty p = p := hp.ofEntries_entries

theorem overlay_self (hp : p.Proper) : overlay p p = p := by
  apply eq_of_get?_eq (hp.overlay hp).distinct
  · have hnone : p.keys.filter (· ∉ p.keys) = [] := filter_new_of_old fun _ hkey => hkey
    rw [keys_overlay hp, hnone, List.append_nil]
  · intro key
    rw [get?_overlay hp, Option.or_self]

/-- A key of the third container is new to the other two if it is new to both, one after the
other. -/
theorem overlay_assoc (hp : p.Proper) (hq : q.Proper) (hr : r.Proper) :
    overlay (overlay p q) r = overlay p (overlay q r) := by
  have hqr := hq.overlay hr
  apply eq_of_get?_eq ((hp.overlay hq).overlay hr).distinct
  · have hnew : r.keys.filter (· ∉ (overlay p q).keys)
        = (r.keys.filter (· ∉ q.keys)).filter (· ∉ p.keys) :=
      filter_new_of_both id (fun _ => mem_keys_overlay hq) r.keys
    rw [keys_overlay hr, hnew, keys_overlay hq, keys_overlay hqr, keys_overlay hr,
      List.filter_append, List.append_assoc]
  · intro key
    rw [get?_overlay hr, get?_overlay hq, get?_overlay hqr, get?_overlay hr, Option.or_assoc]

/-- **Merging is an idempotent monoid with exact key order.** Of containers that can be made, the
merged one can be made as well, however three are merged they come out the same, in the same order,
and merging a container never takes a key away. -/
theorem merging_is_idempotent_monoid (hp : p.Built) (hq : q.Built) (hr : r.Built) :
    (overlay p q).Built ∧
    overlay (overlay p q) r = overlay p (overlay q r) ∧
    overlay OrderedMap.empty p = p ∧ overlay p OrderedMap.empty = p ∧
    overlay p p = p ∧
    (overlay p q).keys = p.keys ++ q.keys.filter (· ∉ p.keys) ∧
    (∀ key ∈ q.keys, (overlay p q).get? key = q.get? key) ∧
    (∀ key, key ∉ q.keys → (overlay p q).get? key = p.get? key) ∧
    ∀ key ∈ p.keys, key ∈ (overlay p q).keys := by
  rw [built_iff_proper] at hp hq hr
  refine ⟨built_iff_proper.mpr (hp.overlay hq), overlay_assoc hp hq hr, empty_overlay hp,
    overlay_empty p, overlay_self hp, keys_overlay hq p, ?_, ?_, ?_⟩
  · intro key hkey
    obtain ⟨value, hvalue⟩ := Option.isSome_iff_exists.mp (isSome_get?_iff.mpr hkey)
    rw [get?_overlay hq, hvalue, Option.some_or]
  · intro key hkey
    rw [get?_overlay hq, get?_eq_none_iff.mpr hkey, Option.none_or]
  · intro key hkey
    exact (mem_keys_overlay hq).mpr (Or.inl hkey)

/-! Three containers that share keys pairwise. -/

def pairOf (a b : String) (n : Int64) : Parameters := ofEntries [(a, .integer n), (b, .field ⟨a⟩)]

theorem built_pairOf (a b : String) (n : Int64) : (pairOf a b n).Built := by
  apply Value.built_ofEntries
  rintro e he
  rcases List.mem_pair.mp he with rfl | rfl
  · exact .scalar (.integer n)
  · exact .field ⟨a⟩

/-- The keys stay where the first container that has them put them. -/
theorem merging_of_overlapping :
    (pairOf "a" "b" 1).Built ∧ (pairOf "c" "b" 2).Built ∧ (pairOf "a" "c" 3).Built ∧
      overlay (overlay (pairOf "a" "b" 1) (pairOf "c" "b" 2)) (pairOf "a" "c" 3)
        = overlay (pairOf "a" "b" 1) (overlay (pairOf "c" "b" 2) (pairOf "a" "c" 3)) ∧
      (overlay (pairOf "a" "b" 1) (pairOf "c" "b" 2)).keys = ["a", "b", "c"] := by
  have hp := built_pairOf "a" "b" 1
  have hq := built_pairOf "c" "b" 2
  have hr := built_pairOf "a" "c" 3
  exact ⟨hp, hq, hr, (merging_is_idempotent_monoid hp hq hr).2.1, rfl⟩

end Parameters

end SearchQuery
