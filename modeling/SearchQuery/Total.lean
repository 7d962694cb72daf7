/-!
# Totals

A total adds up one number for each entry of a list. The measures by which traversals end are
totals, and so is the number of nodes that are bound to a handle in several trees.
-/

namespace SearchQuery

variable {α β : Type}

/-- The sum of `f` over the entries of a list. -/
def total (f : α → Nat) : List α → Nat
  | [] => 0
  | a :: l => f a + total f l

@[simp] theorem total_nil (f : α → Nat) : total f [] = 0 := rfl

@[simp] theorem total_cons (f : α → Nat) (a : α) (l : List α) :
    total f (a :: l) = f a + total f l := rfl

@[simp] theorem total_append (f : α → Nat) (l m : List α) :
    total f (l ++ m) = total f l + total f m := by
  induction l with
  | nil => rw [List.nil_append, total_nil, Nat.zero_add]
  | cons a l ih => rw [List.cons_append, total_cons, total_cons, ih, Nat.add_assoc]

@[simp] theorem total_reverse (f : α → Nat) (l : List α) : total f l.reverse = total f l := by
  induction l with
  | nil => rfl
  | cons a l ih =>
      rw [List.reverse_cons, total_append, ih, total_cons, total_nil, total_cons]
      omega

@[simp] theorem total_map (f : β → Nat) (g : α → β) (l : List α) :
    total f (l.map g) = total (f ∘ g) l := by
  induction l with
  | nil => rfl
  | cons a l ih => rw [List.map_cons, total_cons, ih, total_cons, Function.comp_apply]

/-- A total does not depend on the order of the entries. -/
theorem total_eq_of_perm {f : α → Nat} {l m : List α} (h : l.Perm m) : total f l = total f m := by
  induction h with
  | nil => rfl
  | cons a _ ih => rw [total_cons, total_cons, ih]
  | swap a b l =>
      simp only [total_cons]
      omega
  | trans _ _ ih₁ ih₂ => exact ih₁.trans ih₂

theorem total_congr {f g : α → Nat} {l : List α} (h : ∀ a ∈ l, f a = g a) :
    total f l = total g l := by
  induction l with
  | nil => rfl
  | cons a l ih =>
      rw [total_cons, total_cons, h a List.mem_cons_self,
        ih fun b hb => h b (List.mem_cons_of_mem a hb)]

theorem total_eq_zero_iff {f : α → Nat} {l : List α} : total f l = 0 ↔ ∀ a ∈ l, f a = 0 := by
  induction l with
  | nil => exact ⟨fun _ a ha => absurd ha List.not_mem_nil, fun _ => rfl⟩
  | cons a l ih =>
      rw [total_cons, Nat.add_eq_zero_iff, ih, List.forall_mem_cons]

/-- An entry adds no more than the total. -/
theorem le_total_of_mem {f : α → Nat} {a : α} {l : List α} (h : a ∈ l) : f a ≤ total f l := by
  induction l with
  | nil => exact absurd h List.not_mem_nil
  | cons b l ih =>
      rw [total_cons]
      rcases List.mem_cons.mp h with rfl | h
      · omega
      · have := ih h
        omega

/-- Entries that add no more each add no more together. -/
theorem total_le_total {f g : α → Nat} {l : List α} (h : ∀ a ∈ l, f a ≤ g a) :
    total f l ≤ total g l := by
  induction l with
  | nil => exact Nat.le_refl _
  | cons a l ih =>
      rw [List.forall_mem_cons] at h
      have := ih h.2
      rw [total_cons, total_cons]
      omega

/-- Where no entry adds more, a total is kept only if every entry adds as much. -/
theorem eq_of_total_eq {f g : α → Nat} {l : List α} (h : ∀ a ∈ l, f a ≤ g a)
    (heq : total f l = total g l) : ∀ a ∈ l, f a = g a := by
  induction l with
  | nil => exact fun a ha => absurd ha List.not_mem_nil
  | cons a l ih =>
      rw [List.forall_mem_cons] at h
      have hle := total_le_total h.2
      rw [total_cons, total_cons] at heq
      refine List.forall_mem_cons.mpr ⟨by omega, ih h.2 (by omega)⟩

/-- What a list adds after its entries have been replaced or dropped. -/
theorem total_filterMap (f : β → Nat) (g : α → Option β) (l : List α) :
    total f (l.filterMap g) = total (fun a => (g a).elim 0 f) l := by
  induction l with
  | nil => rfl
  | cons a l ih =>
      rw [List.filterMap_cons, total_cons, ← ih]
      cases g a with
      | none => rw [Option.elim_none, Nat.zero_add]
      | some b => rw [total_cons, Option.elim_some]

end SearchQuery
