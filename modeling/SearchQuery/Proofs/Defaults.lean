import Mathlib.Data.List.Nodup
import SearchQuery.Proofs.Equality.Values
import SearchQuery.Proofs.Independence

/-!
# Defaults fill gaps

Defaults are taken over where a request sets nothing itself. Two of them are fields of the request,
and three are parameters of the address, which are added after those that are there
(`withDefaults_eq`). The latter is the operation `OrderedMap.fill` on maps: the entries of one map
stand as they are, and those of the other follow as far as their keys are new. It is associative and
idempotent, order included. Taking over defaults is idempotent with it. When two sets of defaults
are put together first, only the parameters may come in another order, because they are then filled
in by their own order and not by the order of the sets (`defaults_fill_gaps`).
-/

namespace SearchQuery

variable {α β : Type}

namespace OrderedMap

/-! ## 1. Filling the gaps of a map -/

/-- The map, followed by the entries of the other one that have new keys. -/
def fill (m n : OrderedMap α) : OrderedMap α := ⟨m.entries ++ n.entries.filter (·.1 ∉ m.keys)⟩

theorem keys_fill (m n : OrderedMap α) :
    (m.fill n).keys = m.keys ++ n.keys.filter (· ∉ m.keys) := by
  simp only [keys, fill, List.map_append, List.filter_map, Function.comp_def]

theorem mem_keys_fill {m n : OrderedMap α} {key : String} :
    key ∈ (m.fill n).keys ↔ key ∈ m.keys ∨ key ∈ n.keys := by
  rw [keys_fill]
  exact mem_append_new

theorem Distinct.fill {m n : OrderedMap α} (hm : m.Distinct) (hn : n.Distinct) :
    (m.fill n).Distinct := by
  rw [Distinct, keys_fill]
  refine hm.append (hn.filter _) ?_
  intro key hold hnew
  exact of_decide_eq_true (List.mem_filter.mp hnew).2 hold

/-- A key holds what it held before, and only if it held nothing, what the other map has for it. -/
theorem get?_fill (m n : OrderedMap α) (key : String) :
    (m.fill n).get? key = (m.get? key).or (n.get? key) := by
  have append (l l' : List (String × α)) :
      findEntry key (l ++ l') = (findEntry key l).or (findEntry key l') := by
    induction l with
    | nil => rfl
    | cons e l ih =>
        rw [List.cons_append, findEntry, findEntry, ih]
        by_cases he : e.1 = key
        · rw [if_pos he, if_pos he, Option.some_or]
        · rw [if_neg he, if_neg he]
  -- Entries are left out only under keys that are there, so a search for another key misses none.
  have filter (l : List (String × α)) (hkey : key ∉ m.keys) :
      findEntry key (l.filter (·.1 ∉ m.keys)) = findEntry key l := by
    induction l with
    | nil => rfl
    | cons e l ih =>
        by_cases he : e.1 = key
        · rw [List.filter_cons_of_pos (by simpa [he] using hkey), findEntry, findEntry, if_pos he,
            if_pos he]
        · rw [findEntry, if_neg he, ← ih, List.filter_cons]
          split
          · rw [findEntry, if_neg he]
          · rfl
  rw [get?, fill, append, ← get?]
  by_cases hkey : key ∈ m.keys
  · obtain ⟨value, hvalue⟩ := Option.isSome_iff_exists.mp (isSome_get?_iff.mpr hkey)
    rw [hvalue, Option.some_or, Option.some_or]
  · rw [filter n.entries hkey, ← get?]

theorem fill_assoc (m n o : OrderedMap α) : (m.fill n).fill o = m.fill (n.fill o) := by
  have hnew : o.entries.filter (·.1 ∉ (m.fill n).keys)
      = (o.entries.filter (·.1 ∉ n.keys)).filter (·.1 ∉ m.keys) :=
    filter_new_of_both Prod.fst (fun _ => mem_keys_fill) o.entries
  rw [fill, hnew, fill, fill, fill, List.filter_append, List.append_assoc]

theorem fill_self (m : OrderedMap α) : m.fill m = m := by
  have hnone : m.entries.filter (·.1 ∉ m.keys) = [] :=
    filter_new_of_old fun e he => List.mem_map.mpr ⟨e, he, rfl⟩
  rw [fill, hnone, List.append_nil]

theorem fill_prefix (m n : OrderedMap α) : m.entries <+: (m.fill n).entries :=
  List.prefix_append _ _

/-- In what order the gaps are filled does not matter otherwise. -/
theorem fill_perm (m : OrderedMap α) {n n' : OrderedMap α} (h : n.entries.Perm n'.entries) :
    (m.fill n).entries.Perm (m.fill n').entries :=
  (h.filter _).append_left m.entries

/-- Maps that hold the same under each key have the same entries, in whatever order. -/
theorem perm_of_get?_eq {m n : OrderedMap α} (hm : m.Distinct) (hn : n.Distinct)
    (h : ∀ key, m.get? key = n.get? key) : m.entries.Perm n.entries := by
  rw [List.perm_ext_iff_of_nodup hm.of_map hn.of_map]
  rintro ⟨key, value⟩
  rw [← get?_eq_some_iff hm, ← get?_eq_some_iff hn, h]

/-! A map is filled with one entry where it has none under the key. -/

theorem fill_of_mem {m : OrderedMap α} {key : String} (h : key ∈ m.keys) (value : α) :
    m.fill ⟨[(key, value)]⟩ = m := by
  have hnone : [(key, value)].filter (·.1 ∉ m.keys) = [] :=
    filter_new_of_old (List.forall_mem_singleton.mpr h)
  rw [fill, hnone, List.append_nil]

theorem fill_of_not_mem {m : OrderedMap α} {key : String} (h : key ∉ m.keys) (value : α) :
    m.fill ⟨[(key, value)]⟩ = m.insert key value := by
  have hnew : [(key, value)].filter (·.1 ∉ m.keys) = [(key, value)] :=
    filter_new_of_new (List.forall_mem_singleton.mpr h)
  rw [fill, hnew, insert, insertEntry_of_not_mem value h]

theorem fill_empty (m : OrderedMap α) : m.fill ⟨[]⟩ = m := by
  rw [fill, List.filter_nil, List.append_nil]

theorem erase_of_not_mem {m : OrderedMap α} {key : String} (h : key ∉ m.keys) :
    m.erase key = m := by
  have hall : m.entries.filter (fun e => decide (e.1 ≠ key)) = m.entries := by
    rw [List.filter_eq_self]
    intro e he
    rw [decide_eq_true_iff]
    rintro rfl
    exact h (List.mem_map.mpr ⟨e, he, rfl⟩)
  exact congrArg OrderedMap.mk hall

/-- Fields that may be absent, of which some are filled in after the others. -/
theorem fill_present {fields fields' : List (String × Option α)}
    (h : ((fields ++ fields').map Prod.fst).Nodup) :
    (⟨present fields⟩ : OrderedMap α).fill ⟨present fields'⟩ = ⟨present (fields ++ fields')⟩ := by
  rw [List.map_append, List.nodup_append'] at h
  have hnew : (present fields').filter (·.1 ∉ (⟨present fields⟩ : OrderedMap α).keys)
      = present fields' := by
    apply filter_new_of_new
    intro e he hmem
    exact h.2.2 ((present_keys_sublist fields).subset hmem)
      ((present_keys_sublist fields').subset (List.mem_map.mpr ⟨e, he, rfl⟩))
  rw [fill, hnew, present, present, present, List.filterMap_append]

end OrderedMap

open OrderedMap

/-! ## 2. What defaults have -/

namespace SearchDefaults

/-- The address parameters that defaults may set, in the order in which they are filled in. -/
def fallbacks (d : SearchDefaults) : List (String × Option Value) :=
  [("search_type", d.searchType.map toValue), ("timeout", d.timeout.map toValue),
    ("preference", d.preference.map toValue)]

/-- The address parameters that the defaults set. -/
def address (d : SearchDefaults) : Parameters := ⟨present d.fallbacks⟩

/-- The defaults that have each field of the first where it is set, and of the second otherwise. -/
def orElse (d d' : SearchDefaults) : SearchDefaults where
  size := d.size.or d'.size
  trackTotalHits := d.trackTotalHits.or d'.trackTotalHits
  searchType := d.searchType.or d'.searchType
  timeout := d.timeout.or d'.timeout
  preference := d.preference.or d'.preference

theorem nodup_fallbacks (d : SearchDefaults) : (d.fallbacks.map Prod.fst).Nodup := by
  show ["search_type", "timeout", "preference"].Nodup
  decide

theorem distinct_address (d : SearchDefaults) : d.address.Distinct :=
  (present_keys_sublist d.fallbacks).nodup d.nodup_fallbacks

theorem get?_address (d : SearchDefaults) (key : String) :
    d.address.get? key = (findEntry key d.fallbacks).join :=
  findEntry_present d.nodup_fallbacks key

theorem get?_address_orElse (d d' : SearchDefaults) (key : String) :
    (d.orElse d').address.get? key = (d.address.get? key).or (d'.address.get? key) := by
  simp only [get?_address, fallbacks, orElse, findEntry, Option.map_or]
  split_ifs <;> rfl

/-- The parameters of both may come in another order than those of the one before those of the
other. -/
theorem perm_address_orElse (d d' : SearchDefaults) :
    (d.address.fill d'.address).entries.Perm (d.orElse d').address.entries := by
  apply perm_of_get?_eq (d.distinct_address.fill d'.distinct_address) (distinct_address _)
  intro key
  rw [get?_fill, get?_address_orElse]

end SearchDefaults

namespace SearchRequest

/-! ## 3. One set of defaults -/

/-- A parameter that is set is added at the end if it is not there. One that is not set is null, and
assigning null takes away a key that is not there. -/
theorem fillAddress_toValue [ToValue α] (hα : ∀ a : α, (toValue a).isNull = false)
    (p : Parameters) (key : String) (o : Option α) :
    fillAddress p key (toValue o) = p.fill ⟨present [(key, o.map toValue)]⟩ := by
  unfold fillAddress
  by_cases hkey : key ∈ p.keys
  · have hthere : p.contains key = true := isSome_get?_iff.mpr hkey
    rw [if_pos hthere]
    obtain _ | a := o
    · exact (fill_empty p).symm
    · exact (fill_of_mem hkey (toValue a)).symm
  · have hnew : ¬ p.contains key = true := fun h => hkey (isSome_get?_iff.mp h)
    rw [if_neg hnew]
    obtain _ | a := o
    · exact (erase_of_not_mem hkey).trans (fill_empty p).symm
    · exact (Parameters.assign_of_not_null p key (hα a)).trans
        (fill_of_not_mem hkey (toValue a)).symm

/-- Defaults fill the gaps of the address. -/
theorem params_withDefaults_eq (r : SearchRequest) (d : SearchDefaults) :
    (r.withDefaults d).params = r.params.fill d.address := by
  have hstring (s : String) : (toValue s).isNull = false := rfl
  have htype (t : SearchType) : (toValue t).isNull = false := rfl
  -- The parameters are filled in one after the other, which comes to all of them at once.
  have htwo : (⟨present [("search_type", d.searchType.map toValue)]⟩ : Parameters).fill
        ⟨present [("timeout", d.timeout.map toValue)]⟩
      = ⟨present [("search_type", d.searchType.map toValue),
          ("timeout", d.timeout.map toValue)]⟩ := by
    have hkeys : ["search_type", "timeout"].Nodup := by decide
    exact fill_present hkeys
  have haddress : ((⟨present [("search_type", d.searchType.map toValue)]⟩ : Parameters).fill
        ⟨present [("timeout", d.timeout.map toValue)]⟩).fill
        ⟨present [("preference", d.preference.map toValue)]⟩ = d.address := by
    have hkeys : ["search_type", "timeout", "preference"].Nodup := by decide
    rw [htwo]
    exact fill_present hkeys
  rw [params_withDefaults, fillAddress_toValue htype, fillAddress_toValue hstring,
    fillAddress_toValue hstring, ← haddress, fill_assoc, fill_assoc, fill_assoc]

/-- What a request is after it has taken over defaults. -/
theorem withDefaults_eq (r : SearchRequest) (d : SearchDefaults) :
    r.withDefaults d = { r with
      size := r.size.or d.size
      trackTotalHits := r.trackTotalHits.or (d.trackTotalHits.map toValue)
      params := r.params.fill d.address } := by
  have orElse {β : Type} (o o' : Option β) : (o <|> o') = o.or o' := by cases o <;> rfl
  have hbody : (r.withDefaults d).bodyHalf = { r with
      size := r.size.or d.size
      trackTotalHits := r.trackTotalHits.or (d.trackTotalHits.map toValue)
      params := OrderedMap.empty } := by
    unfold withDefaults
    simp only [bodyHalf_fillParam, orElse]
    rfl
  have hhalves : r.withDefaults d
      = { (r.withDefaults d).bodyHalf with params := (r.withDefaults d).params } := rfl
  rw [hhalves, hbody, params_withDefaults_eq]

/-! ## 4. Several sets of defaults -/

/-- The requests are the same but for the order of the address parameters. -/
structure SameUnordered (r r' : SearchRequest) : Prop where
  rest : r.bodyHalf = r'.bodyHalf
  params : r.params.entries.Perm r'.params.entries
  holds : ∀ key, r.params.get? key = r'.params.get? key

/-- What a request has after it has taken over defaults: all that it had before, in its place, and
something else only where it had nothing. -/
structure FilledFrom (r : SearchRequest) (d : SearchDefaults) (r' : SearchRequest) : Prop where
  query : r'.query = r.query
  offset : r'.offset = r.offset
  sort : r'.sort = r.sort
  rescore : r'.rescore = r.rescore
  body : r'.body = r.body
  size : r'.size = r.size.or d.size
  trackTotalHits : r'.trackTotalHits = r.trackTotalHits.or (d.trackTotalHits.map toValue)
  kept : r.params.entries <+: r'.params.entries
  params : ∀ key, r'.params.get? key = (r.params.get? key).or (d.address.get? key)

theorem withDefaults_filledFrom (r : SearchRequest) (d : SearchDefaults) :
    r.FilledFrom d (r.withDefaults d) := by
  rw [withDefaults_eq]
  exact ⟨rfl, rfl, rfl, rfl, rfl, rfl, rfl, fill_prefix r.params d.address,
    get?_fill r.params d.address⟩

theorem withDefaults_withDefaults (r : SearchRequest) (d : SearchDefaults) :
    (r.withDefaults d).withDefaults d = r.withDefaults d := by
  rw [withDefaults_eq (r.withDefaults d), withDefaults_eq r]
  simp only [fill_assoc, fill_self, Option.or_assoc, Option.or_self]

/-- Defaults that are put together first come to the same, but for the order in which they fill the
address. -/
theorem withDefaults_orElse (r : SearchRequest) (d d' : SearchDefaults) :
    ((r.withDefaults d).withDefaults d').SameUnordered (r.withDefaults (d.orElse d')) := by
  rw [withDefaults_eq (r.withDefaults d), withDefaults_eq r d, withDefaults_eq r]
  simp only [fill_assoc, Option.or_assoc]
  refine ⟨?_, fill_perm r.params (d.perm_address_orElse d'), ?_⟩
  · simp only [bodyHalf, SearchDefaults.orElse, Option.map_or]
  · intro key
    simp only [get?_fill, SearchDefaults.get?_address_orElse]

/-- The second set has its timeout filled in last, but the two together have it before the
preference. -/
example : ((withDefaults {} { preference := some "local" }).withDefaults
        { timeout := some "2s" }).params.keys = ["preference", "timeout"] ∧
      (withDefaults {} { timeout := some "2s", preference := some "local" }).params.keys
        = ["timeout", "preference"] :=
  ⟨rfl, rfl⟩

/-- Of several layers of defaults the first that sets something wins, and before all of them the
request itself. -/
structure Layered (r : SearchRequest) (layers : List SearchDefaults) (r' : SearchRequest) :
    Prop where
  size : r'.size = r.size.or (layers.findSome? SearchDefaults.size)
  trackTotalHits : r'.trackTotalHits
    = r.trackTotalHits.or (layers.findSome? fun d => d.trackTotalHits.map toValue)
  params : ∀ key, r'.params.get? key
    = (r.params.get? key).or (layers.findSome? fun d => d.address.get? key)

theorem findSome?_cons_or (f : α → Option β) (a : α) (l : List α) :
    (a :: l).findSome? f = (f a).or (l.findSome? f) := by
  rw [List.findSome?_cons]
  rcases f a with _ | b <;> rfl

theorem foldl_withDefaults_layered (r : SearchRequest) (layers : List SearchDefaults) :
    r.Layered layers (layers.foldl withDefaults r) := by
  induction layers generalizing r with
  | nil =>
      refine ⟨?_, ?_, fun key => ?_⟩
      · exact Option.or_none.symm
      · exact Option.or_none.symm
      · exact Option.or_none.symm
  | cons d layers ih =>
      -- The layers that follow see the gaps that the first one has left.
      have hfilled := r.withDefaults_filledFrom d
      have hrest := ih (r.withDefaults d)
      refine ⟨?_, ?_, fun key => ?_⟩
      · rw [List.foldl_cons, hrest.size, hfilled.size, findSome?_cons_or, Option.or_assoc]
      · rw [List.foldl_cons, hrest.trackTotalHits, hfilled.trackTotalHits, findSome?_cons_or,
          Option.or_assoc]
      · rw [List.foldl_cons, hrest.params, hfilled.params, findSome?_cons_or, Option.or_assoc]

/-- **Defaults only fill gaps, and they compose.** Taking over defaults changes nothing that a
request has, taking over the same defaults again changes nothing at all, and one set of defaults
after the other comes to the set that has the fields of both, those of the first if both have
one. -/
theorem defaults_fill_gaps (r : SearchRequest) :
    (∀ d, r.FilledFrom d (r.withDefaults d)) ∧
    (∀ d, (r.withDefaults d).withDefaults d = r.withDefaults d) ∧
    (∀ d d', ((r.withDefaults d).withDefaults d').SameUnordered
      (r.withDefaults (d.orElse d'))) ∧
    ∀ layers : List SearchDefaults, r.Layered layers (layers.foldl withDefaults r) :=
  ⟨r.withDefaults_filledFrom, r.withDefaults_withDefaults, r.withDefaults_orElse,
    r.foldl_withDefaults_layered⟩

end SearchRequest

end SearchQuery
