import SearchQuery.Proofs.Edit
import SearchQuery.Proofs.Mutation

/-!
# An edit through a handle by recursion

An edit counts, searches and changes the node at the position found. `Query.changeBound` makes the
same change without a position, by recursion on the query: first below, then at the query itself if
it is a node bound to the handle. Where exactly one node is bound the two are the same
(`mutateIn_of_bound_once`).

The recursion is what other traversals can be compared with. Two changes through different handles
pass each other at every query (`changeBound_comm`), also where one of the nodes is inside the
other, provided that neither looks at sub-queries; and a change that brings in no node bound to a
handle leaves the count of that handle as it is (`boundCount_changeBound`).
-/

namespace SearchQuery

variable {α : Type} {kind kind' : NodeKind}

/-! ## 1. Which nodes a handle is bound to -/

/-- What tells handles apart: the kind of node and the identity. -/
def Handle.key (h : Handle kind) : NodeKind × Nat := (kind, h.token)

theorem BoundNode.isBoundTo_bind {b : Handle kind} {n : Node α kind} {h : Handle kind'} :
    (bind b n).isBoundTo h = true ↔ b.key = h.key := by
  cases kind with
  | bool => cases kind' <;> simp [isBoundTo, bind, project, Handle.key, Handle.beq_iff]
  | disMax => cases kind' <;> simp [isBoundTo, bind, project, Handle.key, Handle.beq_iff]
  | functionScore => cases kind' <;> simp [isBoundTo, bind, project, Handle.key, Handle.beq_iff]

namespace Query

/-- A query that is a node is bound to the handles with the key of its own. -/
theorem isBoundTo_node {b : Handle kind} {n : Node Query kind} {h : Handle kind'} :
    (node b n).isBoundTo h = true ↔ b.key = h.key :=
  BoundNode.isBoundTo_bind

/-- No query is bound to two handles that are not the same. -/
theorem not_isBoundTo_of_key_ne {q : Query} {h : Handle kind} {k : Handle kind'}
    (hne : h.key ≠ k.key) (hb : q.isBoundTo h = true) : q.isBoundTo k = false := by
  obtain ⟨b, n, rfl, hbh⟩ := isBoundTo_iff.mp hb
  have hkey : b.key = h.key := isBoundTo_node.mp hb
  rw [← Bool.not_eq_true, isBoundTo_node, hkey]
  exact hne

/-! ## 2. One level -/

/-- The query with each of its direct sub-queries replaced. -/
def mapChildren (g : Query → Query) (q : Query) : Query := of (q.form.map g)

theorem children_mapChildren (g : Query → Query) (q : Query) :
    (q.mapChildren g).children = q.children.map g :=
  q.form.children_map g

theorem mapChildren_mapChildren (f g : Query → Query) (q : Query) :
    (q.mapChildren f).mapChildren g = q.mapChildren (g ∘ f) :=
  congrArg of (q.form.map_map f g)

theorem mapChildren_congr {f g : Query → Query} {q : Query} (h : ∀ c ∈ q.children, f c = g c) :
    q.mapChildren f = q.mapChildren g :=
  congrArg of (Form.map_congr h)

/-- Nothing changes where every sub-query is replaced by itself. -/
theorem mapChildren_eq_self {g : Query → Query} {q : Query} (h : ∀ c ∈ q.children, g c = c) :
    q.mapChildren g = q := by
  have hid : q.mapChildren g = q.mapChildren id := mapChildren_congr h
  rw [hid, mapChildren, Form.map_id, of_form]

theorem mapChildren_node (g : Query → Query) (b : Handle kind) (n : Node Query kind) :
    (node b n).mapChildren g = node b (Node.map g n) :=
  congrArg (fun n => of (.node n)) (BoundNode.map_bind g b n)

theorem children_node (b : Handle kind) (n : Node Query kind) :
    (node b n).children = Node.children n :=
  BoundNode.children_bind b n

theorem isBoundTo_mapChildren (g : Query → Query) (q : Query) (h : Handle kind) :
    (q.mapChildren g).isBoundTo h = q.isBoundTo h := by
  obtain ⟨form⟩ := q
  cases form with
  | leaf test options => rfl
  | nested path query options => rfl
  | compound body options => rfl
  | node n =>
      cases kind with
      | bool => cases n <;> rfl
      | disMax => cases n <;> rfl
      | functionScore => cases n <;> rfl

/-- The query with its contents changed, if it is a node bound to the handle. -/
def changeIfBound (h : Handle kind) (change : Node Query kind → Node Query kind) (q : Query) :
    Query :=
  if q.isBoundTo h then modifyNode kind change q else q

section OneLevel

variable {h : Handle kind} {change : Node Query kind → Node Query kind} {q : Query}

theorem changeIfBound_of_bound (hb : q.isBoundTo h = true) :
    q.changeIfBound h change = modifyNode kind change q := if_pos hb

theorem changeIfBound_of_not_bound (hb : q.isBoundTo h = false) :
    q.changeIfBound h change = q := if_neg (Bool.eq_false_iff.mp hb)

/-- A changed node is bound to what it was bound to. -/
theorem isBoundTo_changeIfBound (k : Handle kind') :
    (q.changeIfBound h change).isBoundTo k = q.isBoundTo k := by
  by_cases hb : q.isBoundTo h = true
  · rw [changeIfBound_of_bound hb]
    obtain ⟨b, n, rfl, -⟩ := isBoundTo_iff.mp hb
    rw [modifyNode_node, Bool.eq_iff_iff, isBoundTo_node, isBoundTo_node]
  · rw [changeIfBound_of_not_bound (Bool.eq_false_iff.mpr hb)]

/-- A change that does not look at sub-queries passes a replacement of the sub-queries. -/
theorem mapChildren_changeIfBound {g : Query → Query}
    (hnat : ∀ n, Node.map g (change n) = change (Node.map g n)) :
    (q.changeIfBound h change).mapChildren g = (q.mapChildren g).changeIfBound h change := by
  have hsame : (q.mapChildren g).isBoundTo h = q.isBoundTo h := isBoundTo_mapChildren g q h
  by_cases hb : q.isBoundTo h = true
  · rw [changeIfBound_of_bound hb, changeIfBound_of_bound (hsame.trans hb)]
    obtain ⟨b, n, rfl, -⟩ := isBoundTo_iff.mp hb
    rw [modifyNode_node, mapChildren_node, mapChildren_node, modifyNode_node, hnat]
  · have hb' : q.isBoundTo h = false := Bool.eq_false_iff.mpr hb
    rw [changeIfBound_of_not_bound hb', changeIfBound_of_not_bound (hsame.trans hb')]

/-- Changes through different handles concern different queries. -/
theorem changeIfBound_comm {k : Handle kind'} {change' : Node Query kind' → Node Query kind'}
    (hne : h.key ≠ k.key) :
    (q.changeIfBound h change).changeIfBound k change'
      = (q.changeIfBound k change').changeIfBound h change := by
  by_cases hb : q.isBoundTo h = true
  · -- The first change applies, so the second one does not, before it or after it.
    have hk : q.isBoundTo k = false := not_isBoundTo_of_key_ne hne hb
    have hk' : (q.changeIfBound h change).isBoundTo k = false := by
      rw [isBoundTo_changeIfBound, hk]
    rw [changeIfBound_of_not_bound hk, changeIfBound_of_not_bound hk']
  · have hb' : q.isBoundTo h = false := Bool.eq_false_iff.mpr hb
    have hb'' : (q.changeIfBound k change').isBoundTo h = false := by
      rw [isBoundTo_changeIfBound, hb']
    rw [changeIfBound_of_not_bound hb', changeIfBound_of_not_bound hb'']

/-- A measure of the sub-queries that the change of a node keeps is kept by the change of a
query. -/
theorem total_children_changeIfBound {f : Query → Nat}
    (hkeep : ∀ n, total f (Node.children (change n)) = total f (Node.children n)) :
    total f (q.changeIfBound h change).children = total f q.children := by
  by_cases hb : q.isBoundTo h = true
  · rw [changeIfBound_of_bound hb]
    obtain ⟨b, n, rfl, -⟩ := isBoundTo_iff.mp hb
    rw [modifyNode_node, children_node, children_node, hkeep]
  · rw [changeIfBound_of_not_bound (Bool.eq_false_iff.mpr hb)]

end OneLevel

/-! ## 3. All levels -/

/-- The query with every node bound to the handle changed, those below a node before the node. -/
def changeBound (h : Handle kind) (change : Node Query kind → Node Query kind) (q : Query) :
    Query :=
  q.cata fun f => (of f).changeIfBound h change

section AllLevels

variable {h : Handle kind} {change : Node Query kind → Node Query kind}

theorem changeBound_eq (q : Query) :
    q.changeBound h change
      = (q.mapChildren (changeBound h change)).changeIfBound h change := by
  obtain ⟨form⟩ := q
  rw [changeBound, cata_of]
  rfl

/-- Nothing changes where nothing is bound to the handle. -/
theorem changeBound_of_boundCount_eq_zero {q : Query} (hzero : q.boundCount h = 0) :
    q.changeBound h change = q := by
  induction q using Query.induction with
  | step q ih =>
      rw [boundCount_cons, Nat.add_eq_zero_iff, total_eq_zero_iff] at hzero
      obtain ⟨htop, hbelow⟩ := hzero
      have hb : q.isBoundTo h = false := by
        rw [← Bool.not_eq_true]
        intro hb
        rw [if_pos hb] at htop
        omega
      have hsub : q.mapChildren (changeBound h change) = q :=
        mapChildren_eq_self fun c hc => ih c hc (hbelow c hc)
      rw [changeBound_eq, hsub, changeIfBound_of_not_bound hb]

/-- **Changes through different handles commute**, wherever the nodes are. The induction is on the
query: below it the changes commute by induction, at the query itself at most one of them has
anything to do, and each passes what the other does below. -/
theorem changeBound_comm {k : Handle kind'} {change' : Node Query kind' → Node Query kind'}
    (hne : h.key ≠ k.key)
    (hnat : ∀ n, Node.map (changeBound k change') (change n)
      = change (Node.map (changeBound k change') n))
    (hnat' : ∀ n, Node.map (changeBound h change) (change' n)
      = change' (Node.map (changeBound h change) n)) (q : Query) :
    (q.changeBound h change).changeBound k change'
      = (q.changeBound k change').changeBound h change := by
  induction q using Query.induction with
  | step q ih =>
      have hsub : q.mapChildren (changeBound k change' ∘ changeBound h change)
          = q.mapChildren (changeBound h change ∘ changeBound k change') :=
        mapChildren_congr ih
      -- In either order both changes are first made below the query and then at it.
      have hleft : (q.changeBound h change).changeBound k change'
          = ((q.mapChildren (changeBound k change' ∘ changeBound h change)).changeIfBound h
              change).changeIfBound k change' := by
        rw [changeBound_eq (q.changeBound h change), changeBound_eq q,
          mapChildren_changeIfBound hnat, mapChildren_mapChildren]
      have hright : (q.changeBound k change').changeBound h change
          = ((q.mapChildren (changeBound h change ∘ changeBound k change')).changeIfBound k
              change').changeIfBound h change := by
        rw [changeBound_eq (q.changeBound k change'), changeBound_eq q,
          mapChildren_changeIfBound hnat', mapChildren_mapChildren]
      rw [hleft, hright, hsub, changeIfBound_comm hne]

/-- A change that keeps the count of a handle at every node keeps it in the query. -/
theorem boundCount_changeBound {k : Handle kind'}
    (hkeep : ∀ n, total (fun c => c.boundCount k) (Node.children (change n))
      = total (fun c => c.boundCount k) (Node.children n)) (q : Query) :
    (q.changeBound h change).boundCount k = q.boundCount k := by
  induction q using Query.induction with
  | step q ih =>
      have hsub : total (fun c => c.boundCount k) (q.mapChildren (changeBound h change)).children
          = total (fun c => c.boundCount k) q.children := by
        rw [children_mapChildren, total_map]
        exact total_congr ih
      rw [changeBound_eq, boundCount_cons, isBoundTo_changeIfBound, isBoundTo_mapChildren,
        total_children_changeIfBound hkeep, hsub, ← boundCount_cons]

/-! ## 4. The edit is the recursion -/

theorem map_eq_set {f : α → Nat} {g : α → α} {l : List α} {i : Nat} {a : α}
    (ha : l[i]? = some a) (hpos : 0 < f a) (hone : total f l ≤ 1)
    (hfix : ∀ b, f b = 0 → g b = b) : l.map g = l.set i (g a) := by
  induction l generalizing i with
  | nil =>
      rw [List.getElem?_nil] at ha
      cases ha
  | cons b l ih =>
      rw [total_cons] at hone
      cases i with
      | zero =>
          -- The entry is the first one and makes up the total, so the others stay.
          obtain rfl : b = a := Option.some.inj ha
          have hzero : total f l = 0 := by omega
          have hrest : l.map g = l.map id :=
            List.map_congr_left fun c hc => hfix c (total_eq_zero_iff.mp hzero c hc)
          rw [List.map_cons, hrest, List.map_id, List.set_cons_zero]
      | succ i =>
          -- The entry comes later and makes up the total, so the first one stays.
          have hmem : a ∈ l := List.mem_of_getElem? ha
          have hle : f a ≤ total f l := le_total_of_mem hmem
          have hb : g b = b := hfix b (by omega)
          have hrest : l.map g = l.set i (g a) := ih ha (by omega)
          rw [List.map_cons, hb, hrest, List.set_cons_succ]

theorem boundCount_pos {q x : Query} {p : Position} (hx : q.at? p = some x)
    (hb : x.isBoundTo h = true) : 0 < q.boundCount h := by
  rw [Nat.pos_iff_ne_zero]
  intro hzero
  have hnone : x.isBoundTo h = false := boundCount_eq_zero_iff.mp hzero p x hx
  rw [hb] at hnone
  cases hnone

/-- The change at the position of the only bound node is the recursion. -/
theorem modifyAt_eq_changeBound {q x : Query} {p : Position} (hx : q.at? p = some x)
    (hb : x.isBoundTo h = true) (hone : q.boundCount h = 1) :
    q.modifyAt p (modifyNode kind change) = some (q.changeBound h change) := by
  induction p generalizing q with
  | nil =>
      -- The query is itself the only bound node, so nothing is bound below it.
      obtain rfl : q = x := Option.some.inj hx
      rw [boundCount_cons, if_pos hb] at hone
      have hbelow : total (fun c => c.boundCount h) q.children = 0 := by omega
      have hsub : q.mapChildren (changeBound h change) = q := by
        refine mapChildren_eq_self fun c hc => ?_
        exact changeBound_of_boundCount_eq_zero (total_eq_zero_iff.mp hbelow c hc)
      rw [modifyAt_nil, changeBound_eq, hsub, changeIfBound_of_bound hb]
  | cons i p ih =>
      obtain ⟨c, hc, hcx⟩ := at?_cons_eq_some_iff.mp hx
      have hpos : 0 < c.boundCount h := boundCount_pos hcx hb
      have hle : c.boundCount h ≤ total (fun c => c.boundCount h) q.children :=
        le_total_of_mem (f := fun c => c.boundCount h) (List.mem_of_getElem? hc)
      -- The only bound node is below the sub-query, so the query itself is not bound.
      have htop : q.isBoundTo h = false := by
        rw [← Bool.not_eq_true]
        intro htop
        rw [boundCount_cons, if_pos htop] at hone
        omega
      rw [boundCount_cons, htop, if_neg Bool.false_ne_true, Nat.zero_add] at hone
      have hsub : c.modifyAt p (modifyNode kind change) = some (c.changeBound h change) :=
        ih hcx (by omega)
      have hmap : q.children.map (changeBound h change)
          = q.children.set i (c.changeBound h change) :=
        map_eq_set hc hpos hone.le fun d hd => changeBound_of_boundCount_eq_zero hd
      have hset : q.setChild i (c.changeBound h change)
          = q.mapChildren (changeBound h change) := by
        rw [setChild, Form.setChild_eq_refill, mapChildren, ← Form.refill_children_map]
        exact congrArg (fun l => of (q.form.refill l)) hmap.symm
      have htop' : (q.mapChildren (changeBound h change)).isBoundTo h = false := by
        rw [isBoundTo_mapChildren, htop]
      rw [modifyAt_cons, hc, Option.bind_some, hsub, Option.map_some, hset, changeBound_eq,
        changeIfBound_of_not_bound htop']

/-- An edit that is carried out changes every tree by the recursion; all but one stay as they
are. -/
theorem mutateIn_of_bound_once {trees : List Query}
    (hone : total (fun t => t.boundCount h) trees = 1) :
    mutateIn trees h change = .ok (trees.map (changeBound h change)) := by
  have hcard : (boundPlaces trees h).ncard = 1 := by rw [ncard_boundPlaces, hone]
  obtain ⟨i, p, t, b, contents, -, -, ht, hx, hbh, -, hedit⟩ :=
    (TreeHolder.list.hitsOneNode trees h).edited hcard
  obtain ⟨edited, hok, t', rfl, hedited, -⟩ := hedit change
  have hb : (node b contents).isBoundTo h = true := isBoundTo_iff.mpr ⟨b, contents, rfl, hbh⟩
  have hpos : 0 < t.boundCount h := boundCount_pos hx hb
  have hle : t.boundCount h ≤ total (fun t => t.boundCount h) trees :=
    le_total_of_mem (f := fun t => t.boundCount h) (List.mem_of_getElem? ht)
  have ht' : t' = t.changeBound h change := by
    have hreplaced := hedited.replaced
    rw [← modifyNode_node b contents change, ← modifyAt_eq_replaceAt hx,
      modifyAt_eq_changeBound hx hb (by omega)] at hreplaced
    exact (Option.some.inj hreplaced).symm
  have hmap : trees.map (changeBound h change) = trees.set i (t.changeBound h change) :=
    map_eq_set ht hpos hone.le fun d hd => changeBound_of_boundCount_eq_zero hd
  rw [hmap, ← ht']
  exact hok

theorem mutate_of_bound_once {t : Query} (hone : t.boundCount h = 1) :
    t.mutate h change = .ok (t.changeBound h change) := by
  have htotal : total (fun t => t.boundCount h) [t] = 1 := hone
  have hanswer : t.mutate h change = (mutateIn [t] h change).map fun ts => ts.headD t :=
    TreeHolder.tree.result_mutateSteps t h change
  rw [hanswer, mutateIn_of_bound_once htotal]
  rfl

end AllLevels

/-- How an edit is refused when the handle is bound to the given number of nodes. -/
def refusal (h : Handle kind) (count : Nat) : QueryError :=
  if count = 0 then .handleNotFound h.display else .duplicateHandle h.display count

/-- An edit is refused unless the handle is bound to exactly one node, and the trees stay as they
are. -/
theorem runOn_mutateInSteps_of_not_bound_once {trees : List Query} {h : Handle kind}
    (hne : total (fun t => t.boundCount h) trees ≠ 1)
    (change : Node Query kind → Node Query kind) :
    (mutateInSteps h change).runOn trees
      = (.error (refusal h (total (fun t => t.boundCount h) trees)), trees) := by
  have hcard : (boundPlaces trees h).ncard = total (fun t => t.boundCount h) trees :=
    ncard_boundPlaces trees h
  have hits := TreeHolder.list.hitsOneNode trees h
  by_cases hzero : total (fun t => t.boundCount h) trees = 0
  · have hrefused := hits.notFound (hcard.trans hzero)
    rw [refusal, if_pos hzero]
    exact Steps.runOn_alone (hrefused.untouched Unit (onlyNode change) ())
  · have htwo : 2 ≤ (boundPlaces trees h).ncard := by omega
    have hrefused := hits.duplicate htwo
    rw [refusal, if_neg hzero, ← hcard]
    exact Steps.runOn_alone (hrefused.untouched Unit (onlyNode change) ())

theorem mutateIn_of_not_bound_once {trees : List Query} {h : Handle kind}
    (hne : total (fun t => t.boundCount h) trees ≠ 1)
    (change : Node Query kind → Node Query kind) :
    mutateIn trees h change = .error (refusal h (total (fun t => t.boundCount h) trees)) :=
  Steps.result_of_error (runOn_mutateInSteps_of_not_bound_once hne change)

end Query

end SearchQuery
