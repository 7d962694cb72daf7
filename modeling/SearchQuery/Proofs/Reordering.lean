/-!
# Reordering steps

Steps are taken one after the other, and each has a key. Where steps with different keys can be
exchanged, the order of the steps matters only for those that share a key: any reordering that keeps
the order of the steps with each single key ends in the same state.
-/

namespace SearchQuery

variable {S γ κ : Type} [DecidableEq κ] {key : γ → κ}

/-- The second list of steps is a reordering of the first in which the steps with one key come in
the same order. -/
def Reorders (key : γ → κ) (steps steps' : List γ) : Prop :=
  ∀ k, steps'.filter (fun a => key a = k) = steps.filter (fun a => key a = k)

/-- Two neighbours with different keys may be exchanged. -/
theorem Reorders.exchange {a b : γ} (hne : key a ≠ key b) (before rest : List γ) :
    Reorders key (before ++ a :: b :: rest) (before ++ b :: a :: rest) := by
  intro k
  rw [List.filter_append, List.filter_append]
  congr 1
  by_cases ha : key a = k
  · have hb : key b ≠ k := fun hb => hne (ha.trans hb.symm)
    simp only [List.filter_cons, ha, hb, decide_true, decide_false, if_true, if_false,
      Bool.false_eq_true]
  · simp only [List.filter_cons, ha, decide_false, if_false, Bool.false_eq_true]

/-- A reordering has the same steps. -/
theorem Reorders.mem_iff {steps steps' : List γ} (h : Reorders key steps steps') {a : γ} :
    a ∈ steps' ↔ a ∈ steps := by
  have hmem (l : List γ) : a ∈ l.filter (fun b => key b = key a) ↔ a ∈ l := by
    rw [List.mem_filter]
    exact ⟨fun h => h.1, fun h => ⟨h, decide_eq_true rfl⟩⟩
  rw [← hmem steps', h (key a), hmem steps]

/-- A step that commutes with all steps of a list may be made before or after them. -/
theorem foldl_comm_of_forall {step : S → γ → S} {a : γ} {steps : List γ}
    (hcomm : ∀ b ∈ steps, ∀ s, step (step s a) b = step (step s b) a) (s : S) :
    steps.foldl step (step s a) = step (steps.foldl step s) a := by
  induction steps generalizing s with
  | nil => rfl
  | cons b steps ih =>
      have hb : step (step s a) b = step (step s b) a := hcomm b List.mem_cons_self s
      have hrest : ∀ c ∈ steps, ∀ s, step (step s a) c = step (step s c) a :=
        fun c hc => hcomm c (List.mem_cons_of_mem b hc)
      rw [List.foldl_cons, List.foldl_cons, hb, ih hrest]

/-- Where steps with different keys commute, a reordering ends in the same state. The induction is
on the steps: the first of them is moved to the front of the reordering, past steps of which none
has its key, and what remains of the reordering is a reordering of what remains of the steps. -/
theorem foldl_eq_of_reorders {step : S → γ → S} {steps steps' : List γ}
    (hcomm : ∀ a ∈ steps, ∀ b ∈ steps, key a ≠ key b → ∀ s,
      step (step s a) b = step (step s b) a)
    (h : Reorders key steps steps') (s : S) : steps'.foldl step s = steps.foldl step s := by
  induction steps generalizing steps' s with
  | nil =>
      have hnil : steps' = [] := by
        rw [List.eq_nil_iff_forall_not_mem]
        intro a ha
        exact List.not_mem_nil (h.mem_iff.mp ha)
      rw [hnil]
  | cons a steps ih =>
      have hfilter := h (key a)
      rw [List.filter_cons_of_pos (p := fun b => decide (key b = key a)) (decide_eq_true rfl),
        List.filter_eq_cons_iff] at hfilter
      obtain ⟨before, after, rfl, hbefore, -, hafter⟩ := hfilter
      have hother : ∀ b ∈ before, key b ≠ key a := by
        intro b hb hkey
        exact hbefore b hb (decide_eq_true hkey)
      have hmove : before.foldl step (step s a) = step (before.foldl step s) a := by
        refine foldl_comm_of_forall (fun b hb s => ?_) s
        have hmem : b ∈ a :: steps := h.mem_iff.mp (List.mem_append_left _ hb)
        exact hcomm a List.mem_cons_self b hmem (hother b hb).symm s
      have hrest : Reorders key steps (before ++ after) := by
        intro k
        have hk := h k
        rw [List.filter_append] at hk ⊢
        by_cases ha : key a = k
        · have hnone : before.filter (fun b => key b = k) = [] := by
            rw [List.filter_eq_nil_iff]
            intro b hb hkey
            exact hother b hb ((of_decide_eq_true hkey).trans ha.symm)
          rw [← ha] at hnone ⊢
          rw [hnone, List.nil_append, hafter]
        · rw [List.filter_cons_of_neg (by simpa using ha),
            List.filter_cons_of_neg (by simpa using ha)] at hk
          exact hk
      have hcomm' : ∀ b ∈ steps, ∀ c ∈ steps, key b ≠ key c → ∀ s,
          step (step s b) c = step (step s c) b := fun b hb c hc =>
        hcomm b (List.mem_cons_of_mem a hb) c (List.mem_cons_of_mem a hc)
      rw [List.foldl_append, List.foldl_cons, ← hmove, ← List.foldl_append, List.foldl_cons,
        ih hcomm' hrest]

end SearchQuery
