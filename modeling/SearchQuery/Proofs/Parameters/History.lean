import Mathlib.Data.List.Induction
import SearchQuery.Proofs.Parameters

/-!
# Containers and their histories

A container does not keep how it was filled, but it can be read off the history of its filling: the
base that it was started from and the entries written since, one by one. A key is there if the last
write to it was not null, and the order of the keys is the order in which they came to be there for
the last time. A key that is overwritten has been there since before, and one that is removed and
set again has not. `follows_history` says so for any sequence of operations, and the history beside
the container is what the induction is on.
-/

namespace SearchQuery

open OrderedMap

namespace Parameters

/-! ## 1. Histories -/

/-- The container that was there at first, and what has been written since, first to last. -/
structure History where
  base : Parameters
  writes : List (String × Value)

namespace History

/-- The value that was written to a key last. -/
def lastWrite? (h : History) (key : String) : Option Value := findEntry key h.writes.reverse

/-- What a key holds: what was written to it last, which is nothing if it was null, and what it held
in the base if nothing was written to it. -/
def held (h : History) (key : String) : Option Value :=
  match h.lastWrite? key with
  | some value => if value.isNull then none else some value
  | none => h.base.get? key

/-- The history before any write but the first `n`. -/
def upTo (h : History) (n : Nat) : History := ⟨h.base, h.writes.take n⟩

/-- The key was absent before the `n`-th write and has been there since. Where `n` is zero, it was
in the base and has been there all along. -/
structure Since (h : History) (key : String) (n : Nat) : Prop where
  bound : n ≤ h.writes.length
  before : ∀ m, m + 1 = n → (h.upTo m).held key = none
  there : ∀ m, n ≤ m → ((h.upTo m).held key).isSome = true

/-- The one key came to be there before the other. Keys that have been there all along are in the
order of the base. -/
def ArrivedBefore (h : History) (a b : String) : Prop :=
  ∃ m n, h.Since a m ∧ h.Since b n ∧
    (m < n ∨ m = 0 ∧ n = 0 ∧ h.base.keys.idxOf a < h.base.keys.idxOf b)

/-- More entries have been written. -/
def add (h : History) (entries : List (String × Value)) : History :=
  ⟨h.base, h.writes ++ entries⟩

/-- The history after an operation. Where an operation replaces the container, what was before does
not matter any more. -/
def record (h : History) : Operation → History
  | .set key value => h.add [(key, value)]
  | .merge entries => h.add entries
  | .merged base entries => ⟨base.getD OrderedMap.empty, entries⟩
  | .collect entries => ⟨OrderedMap.empty, entries⟩
  | .write member => h.add [member.valueEntry]

/-! ## 2. One more write -/

theorem held_add (h : History) (e : String × Value) (key : String) :
    (h.add [e]).held key
      = if key = e.1 then (if e.2.isNull then none else some e.2) else h.held key := by
  have hlast : (h.add [e]).lastWrite? key = if e.1 = key then some e.2 else h.lastWrite? key := by
    rw [lastWrite?, add, List.reverse_append, List.reverse_singleton, List.singleton_append]
    rfl
  unfold held
  rw [hlast]
  by_cases hkey : key = e.1
  · rw [if_pos hkey, if_pos hkey.symm]
  · rw [if_neg hkey, if_neg (Ne.symm hkey)]
    rfl

theorem upTo_of_le {h : History} {n : Nat} (hn : h.writes.length ≤ n) : h.upTo n = h := by
  rw [upTo, List.take_of_length_le hn]

theorem upTo_add {h : History} {n : Nat} (hn : n ≤ h.writes.length)
    (entries : List (String × Value)) : (h.add entries).upTo n = h.upTo n := by
  rw [upTo, upTo, add, List.take_append_of_le_length hn]

/-- With one more write the history is either not over yet, or it is. -/
theorem upTo_add_cases (h : History) (e : String × Value) (n : Nat) :
    n ≤ h.writes.length ∧ (h.add [e]).upTo n = h.upTo n ∨
      h.writes.length < n ∧ (h.add [e]).upTo n = h.add [e] := by
  by_cases hn : n ≤ h.writes.length
  · exact Or.inl ⟨hn, upTo_add hn [e]⟩
  · refine Or.inr ⟨by omega, upTo_of_le ?_⟩
    rw [add, List.length_append, List.length_singleton]
    omega

/-- A key that a write leaves there has been there as long as before. -/
theorem Since.add {h : History} {key : String} {n : Nat} (hn : h.Since key n) {e : String × Value}
    (hthere : ((h.add [e]).held key).isSome = true) : (h.add [e]).Since key n := by
  have hbound := hn.bound
  refine ⟨?_, ?_, ?_⟩
  · rw [History.add, List.length_append]
    omega
  · intro m hm
    rw [upTo_add (by omega)]
    exact hn.before m hm
  · intro m hm
    rcases h.upTo_add_cases e m with ⟨-, heq⟩ | ⟨-, heq⟩
    · rw [heq]
      exact hn.there m hm
    · rw [heq]
      exact hthere

/-- A key that was absent and is there after a write has been there since that write. -/
theorem since_new {h : History} {key : String} {e : String × Value} (habsent : h.held key = none)
    (hthere : ((h.add [e]).held key).isSome = true) :
    (h.add [e]).Since key (h.writes.length + 1) := by
  refine ⟨?_, ?_, ?_⟩
  · apply Nat.le_of_eq
    rw [History.add, List.length_append, List.length_singleton]
  · intro m hm
    rw [upTo_add (by omega), upTo_of_le (by omega)]
    exact habsent
  · intro m hm
    rcases h.upTo_add_cases e m with ⟨hle, -⟩ | ⟨-, heq⟩
    · omega
    · rw [heq]
      exact hthere

/-- A key that is there has been there since some moment. -/
theorem exists_since {h : History} {key : String} (hthere : (h.held key).isSome = true) :
    ∃ n, h.Since key n := by
  obtain ⟨base, writes⟩ := h
  induction writes using List.reverseRecOn with
  | nil =>
      refine ⟨0, Nat.le_refl 0, ?_, ?_⟩
      · intro m hm
        omega
      · intro m _
        rw [upTo_of_le (Nat.zero_le m)]
        exact hthere
  | append_singleton writes e ih =>
      by_cases hbefore : ((History.mk base writes).held key).isSome = true
      · obtain ⟨n, hn⟩ := ih hbefore
        exact ⟨n, hn.add hthere⟩
      · exact ⟨writes.length + 1, since_new (Option.not_isSome_iff_eq_none.mp hbefore) hthere⟩

/-! ## 3. Arrival is an order -/

theorem Since.le {h : History} {key : String} {m n : Nat} (hm : h.Since key m)
    (hn : h.Since key n) : n ≤ m := by
  by_contra hlt
  -- Right before `n` the key would be absent, although it has been there since `m`.
  have habsent := hn.before (n - 1) (by omega)
  have hthere := hm.there (n - 1) (by omega)
  rw [habsent] at hthere
  exact Bool.false_ne_true hthere

/-- A key has been there since one moment only. -/
theorem Since.unique {h : History} {key : String} {m n : Nat} (hm : h.Since key m)
    (hn : h.Since key n) : m = n :=
  Nat.le_antisymm (hn.le hm) (hm.le hn)

theorem ArrivedBefore.asymm {h : History} {a b : String} (hab : h.ArrivedBefore a b) :
    ¬ h.ArrivedBefore b a := by
  rintro ⟨n', m', hn', hm', hba⟩
  obtain ⟨m, n, hm, hn, hab⟩ := hab
  obtain rfl := hm.unique hm'
  obtain rfl := hn.unique hn'
  omega

theorem ArrivedBefore.add {h : History} {a b : String} (hab : h.ArrivedBefore a b)
    {e : String × Value} (ha : ((h.add [e]).held a).isSome = true)
    (hb : ((h.add [e]).held b).isSome = true) : (h.add [e]).ArrivedBefore a b := by
  obtain ⟨m, n, hm, hn, hab⟩ := hab
  exact ⟨m, n, hm.add ha, hn.add hb, hab⟩

end History

/-! ## 4. What a container has of its history -/

/-- The container holds what the history says, and its keys are in the order of their arrival. -/
structure Follows (h : History) (p : Parameters) : Prop where
  proper : p.Proper
  holds : ∀ key, p.get? key = h.held key
  sorted : p.keys.Pairwise h.ArrivedBefore

namespace Follows

/-- A container is its own history so far. -/
theorem start {p : Parameters} (hp : p.Proper) : Follows ⟨p, []⟩ p := by
  refine ⟨hp, fun _ => rfl, ?_⟩
  rw [List.pairwise_iff_getElem]
  intro i j hi hj hij
  have since (k : Nat) (hk : k < p.keys.length) : (History.mk p []).Since p.keys[k] 0 := by
    refine ⟨Nat.le_refl 0, ?_, ?_⟩
    · intro m hm
      omega
    · intro m _
      rw [History.upTo_of_le (Nat.zero_le m)]
      exact isSome_get?_iff.mpr (List.getElem_mem hk)
  refine ⟨0, 0, since i hi, since j hj, Or.inr ⟨rfl, rfl, ?_⟩⟩
  show p.keys.idxOf p.keys[i] < p.keys.idxOf p.keys[j]
  rw [hp.distinct.idxOf_getElem i hi, hp.distinct.idxOf_getElem j hj]
  exact hij

variable {h : History} {p : Parameters}

theorem mem_keys_iff (hf : Follows h p) (key : String) :
    key ∈ p.keys ↔ (h.held key).isSome = true := by
  rw [← isSome_get?_iff, hf.holds]

/-- Keys that a write leaves there stay in their order. -/
theorem sorted_of_there (hf : Follows h p) {e : String × Value} {keys : List String}
    (hsub : keys.Sublist p.keys)
    (hthere : ∀ key ∈ keys, ((h.add [e]).held key).isSome = true) :
    keys.Pairwise (h.add [e]).ArrivedBefore :=
  (hf.sorted.sublist hsub).imp_of_mem fun ha hb hab =>
    History.ArrivedBefore.add hab (hthere _ ha) (hthere _ hb)

/-- One assignment is one write. -/
theorem assign (hf : Follows h p) {e : String × Value} (he : e.2.Proper) :
    Follows (h.add [e]) (Parameters.assign p e.1 e.2) := by
  have hholds : ∀ key, (Parameters.assign p e.1 e.2).get? key = (h.add [e]).held key := by
    intro key
    rw [get?_assign, History.held_add, hf.holds]
  have hthere : ∀ key ∈ (Parameters.assign p e.1 e.2).keys,
      ((h.add [e]).held key).isSome = true := by
    intro key hkey
    rw [← hholds]
    exact isSome_get?_iff.mpr hkey
  refine ⟨hf.proper.assign e.1 he, hholds, ?_⟩
  have hkeys := keys_assign p e.1 e.2
  by_cases hnull : e.2.isNull = true
  · rw [if_pos hnull] at hkeys
    rw [hkeys] at hthere ⊢
    exact hf.sorted_of_there List.filter_sublist hthere
  · rw [if_neg hnull] at hkeys
    by_cases hmem : e.1 ∈ p.keys
    · rw [if_pos hmem] at hkeys
      rw [hkeys] at hthere ⊢
      exact hf.sorted_of_there (List.Sublist.refl _) hthere
    · rw [if_neg hmem] at hkeys
      rw [hkeys, List.forall_mem_append, List.forall_mem_singleton] at hthere
      rw [hkeys, List.pairwise_append]
      refine ⟨hf.sorted_of_there (List.Sublist.refl _) hthere.1, List.pairwise_singleton _ _, ?_⟩
      -- The new key arrives with this write, and any other has been there before.
      intro a ha b hb
      obtain rfl := List.mem_singleton.mp hb
      obtain ⟨m, hm⟩ := History.exists_since ((hf.mem_keys_iff a).mp ha)
      have habsent : h.held e.1 = none := by
        rw [← hf.holds, ← Option.not_isSome_iff_eq_none, isSome_get?_iff]
        exact hmem
      exact ⟨m, _, hm.add (hthere.1 a ha), History.since_new habsent hthere.2,
        Or.inl (Nat.lt_succ_of_le hm.bound)⟩

theorem merge (hf : Follows h p) {entries : List (String × Value)}
    (hentries : ∀ e ∈ entries, e.2.Proper) :
    Follows (h.add entries) (Parameters.merge p entries) := by
  induction entries generalizing h p with
  | nil =>
      rw [History.add, List.append_nil]
      exact hf
  | cons e entries ih =>
      rw [List.forall_mem_cons] at hentries
      have hrest := ih (hf.assign hentries.1) hentries.2
      rw [History.add, History.add, List.append_assoc, List.singleton_append] at hrest
      exact hrest

/-- Every operation does what its record says. -/
theorem apply (hf : Follows h p) {op : Operation} (hop : ∀ v ∈ op.values, v.Proper) :
    Follows (h.record op) (op.apply p) := by
  cases op with
  | set key value => exact hf.assign (hop value List.mem_cons_self)
  | merge entries => exact hf.merge (List.forall_mem_map.mp hop)
  | merged base entries =>
      obtain ⟨hbase, hentries⟩ := Operation.proper_base hop
      exact (start hbase).merge hentries
  | collect entries => exact (start .empty).merge (List.forall_mem_map.mp hop)
  | write member => exact hf.assign (e := member.valueEntry) member.proper_toValue

theorem run (hf : Follows h p) {ops : List Operation}
    (hops : ∀ op ∈ ops, ∀ v ∈ op.values, v.Proper) :
    Follows (ops.foldl History.record h) (ops.foldl Operation.apply p) := by
  induction ops generalizing h p with
  | nil => exact hf
  | cons op ops ih =>
      rw [List.forall_mem_cons] at hops
      exact ih (hf.apply hops.1) hops.2

/-- One key stands before another exactly if it arrived before. -/
theorem idxOf_lt_iff (hf : Follows h p) {a b : String} (ha : a ∈ p.keys) (hb : b ∈ p.keys) :
    p.keys.idxOf a < p.keys.idxOf b ↔ h.ArrivedBefore a b := by
  have hsorted := List.pairwise_iff_getElem.mp hf.sorted
  have before {a b : String} (ha : a ∈ p.keys) (hb : b ∈ p.keys)
      (hlt : p.keys.idxOf a < p.keys.idxOf b) : h.ArrivedBefore a b := by
    have hab := hsorted _ _ (List.idxOf_lt_length_of_mem ha) (List.idxOf_lt_length_of_mem hb) hlt
    rwa [List.getElem_idxOf, List.getElem_idxOf] at hab
  refine ⟨before ha hb, fun hab => ?_⟩
  rcases Nat.lt_trichotomy (p.keys.idxOf a) (p.keys.idxOf b) with hlt | heq | hgt
  · exact hlt
  · obtain rfl := (List.idxOf_inj ha).mp heq
    exact absurd hab hab.asymm
  · exact absurd (before hb ha hgt) hab.asymm

end Follows

/-! ## 5. Any history -/

/-- A key that is taken away and set again comes last. -/
theorem keys_assign_again (p : Parameters) (key : String) {value : Value}
    (hvalue : value.isNull = false) :
    (assign (assign p key .null) key value).keys = p.keys.filter (· ≠ key) ++ [key] := by
  have hkeys : (assign p key .null).keys = p.keys.filter (· ≠ key) := keys_erase p key
  have hgone : key ∉ (assign p key .null).keys := by
    rw [hkeys, List.mem_filter]
    exact fun h => of_decide_eq_true h.2 rfl
  rw [keys_assign, if_neg (Bool.not_eq_true _ ▸ hvalue), if_neg hgone, hkeys]

/-- What a container is by its history. -/
structure Tells (h : History) (p : Parameters) : Prop where
  /-- Keys are distinct and none holds null, in the container and in those inside it. -/
  proper : p.Proper
  present : ∀ key, key ∈ p.keys ↔ (h.held key).isSome = true
  holds : ∀ key, p.get? key = h.held key
  order : ∀ a ∈ p.keys, ∀ b ∈ p.keys,
    (p.keys.idxOf a < p.keys.idxOf b ↔ h.ArrivedBefore a b)
  /-- What is written next to a key that is there leaves all keys in their places. -/
  overwritten : ∀ key value, value.isNull = false → key ∈ p.keys →
    (assign p key value).keys = p.keys
  /-- A key that is taken away and set again comes last. -/
  reinserted : ∀ key value, value.isNull = false →
    (assign (assign p key .null) key value).keys = p.keys.filter (· ≠ key) ++ [key]

/-- **A container is told by its history.** Whatever has been done to a container that could be made
before, with values that can be made, each key holds what was written to it last, and the keys are
in the order in which they came to be there for the last time. -/
theorem follows_history {base : Parameters} (hbase : base.Built) {ops : List Operation}
    (hops : ∀ op ∈ ops, ∀ v ∈ op.values, v.Built) :
    Tells (ops.foldl History.record ⟨base, []⟩) (ops.foldl Operation.apply base) := by
  have hstart : Follows ⟨base, []⟩ base := .start (built_iff_proper.mp hbase)
  have hf := hstart.run fun op hop v hv => (hops op hop v hv).proper
  refine ⟨hf.proper, hf.mem_keys_iff, hf.holds, fun a ha b hb => hf.idxOf_lt_iff ha hb, ?_, ?_⟩
  · intro key value hvalue hmem
    rw [keys_assign, if_neg (Bool.not_eq_true _ ▸ hvalue), if_pos hmem]
  · intro key value hvalue
    exact keys_assign_again _ key hvalue

/-! A container with two keys, one of which is taken away and comes back, while the other one is
taken away by a null field that is written into the container. -/

def twoKeys : Parameters := ofEntries [("a", .integer 1), ("b", .integer 2)]

def refilling : List Operation :=
  [.set "a" .null, .merge [("c", .array [.null]), ("b", .boolean true)], .set "a" (.string "back"),
    .write (.scalar "b" .null), .write (.object "c" [.scalar "d" (.integer 3)])]

theorem built_twoKeys : twoKeys.Built := by
  apply Value.built_ofEntries
  rintro e he
  rcases List.mem_pair.mp he with rfl | rfl
  · exact .scalar (.integer 1)
  · exact .scalar (.integer 2)

theorem built_refilling : ∀ op ∈ refilling, ∀ v ∈ op.values, v.Built := by
  simp only [refilling, List.forall_mem_cons, Operation.values, List.map_cons, List.map_nil,
    List.not_mem_nil, false_imp_iff, implies_true, and_true]
  refine ⟨.scalar .null, ⟨.array [.null] ?_, .scalar (.boolean true)⟩, .scalar (.string "back")⟩
  exact List.forall_mem_singleton.mpr (.scalar .null)

/-- The key that came back stands after the one that was set in the meantime and has been
overwritten since. -/
theorem refilling_follows_history :
    twoKeys.Built ∧ (∀ op ∈ refilling, ∀ v ∈ op.values, v.Built) ∧
      Tells (refilling.foldl History.record ⟨twoKeys, []⟩)
        (refilling.foldl Operation.apply twoKeys) ∧
      (refilling.foldl Operation.apply twoKeys).keys = ["c", "a"] :=
  ⟨built_twoKeys, built_refilling, follows_history built_twoKeys built_refilling, rfl⟩

end Parameters

end SearchQuery
