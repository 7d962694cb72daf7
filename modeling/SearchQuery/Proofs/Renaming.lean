import SearchQuery.Proofs.Closing
import SearchQuery.Proofs.Equality
import SearchQuery.Proofs.Mutation.Everywhere

/-!
# Renaming handles

A handle is its kind and its identity; what the identity is and what the label says is nobody's
business. `Query.rename` gives the nodes of a query other identities, which have to stay apart
within a kind, and any labels and addresses at all. The renamed handle is bound exactly where the
handle was (`isBoundTo_rename`), and all searching and editing depends on nothing else. Equality
compares identities, which stay equal or different. Reduction keeps nodes or closes them, and
writing closes them all: a renamed query stands for the same query (`closeAll_rename`), so that it
compiles to the same document.

Only the message of a refused edit shows which handle was used (`QueryError.printing`).
-/

namespace SearchQuery

variable {α β : Type} {kind kind' : NodeKind}

/-- Other identities, labels and addresses for handles. Nothing is asked of labels and addresses,
and identities have to stay apart within a kind only. -/
structure Renaming where
  token : NodeKind → Nat → Nat
  injective : ∀ kind, Function.Injective (token kind)
  label : {kind : NodeKind} → Handle kind → Option String
  address : {kind : NodeKind} → Handle kind → String

variable (ρ : Renaming)

/-! ## 1. One level -/

namespace Handle

def rename (h : Handle kind) : Handle kind := ⟨ρ.token kind h.token, ρ.label h, ρ.address h⟩

theorem rename_beq (h k : Handle kind) : (h.rename ρ == k.rename ρ) = (h == k) := by
  rw [Bool.eq_iff_iff, beq_iff, beq_iff]
  exact (ρ.injective kind).eq_iff

end Handle

namespace BoundNode

/-- The node bound to the renamed handle. -/
def rename : BoundNode α → BoundNode α
  | bool handle node => .bool (handle.rename ρ) node
  | disMax handle node => .disMax (handle.rename ρ) node
  | functionScore handle node => .functionScore (handle.rename ρ) node

theorem rename_bind (b : Handle kind) (n : Node α kind) :
    (bind b n).rename ρ = bind (b.rename ρ) n := by
  cases kind with
  | bool => rfl
  | disMax => rfl
  | functionScore => rfl

theorem rename_map (f : α → β) (n : BoundNode α) : (n.map f).rename ρ = (n.rename ρ).map f := by
  cases n with
  | bool handle node => rfl
  | disMax handle node => rfl
  | functionScore handle node => rfl

theorem body_rename (n : BoundNode α) : (n.rename ρ).body = n.body := by
  cases n with
  | bool handle node => rfl
  | disMax handle node => rfl
  | functionScore handle node => rfl

theorem options_rename (n : BoundNode α) : (n.rename ρ).options = n.options := by
  cases n with
  | bool handle node => rfl
  | disMax handle node => rfl
  | functionScore handle node => rfl

theorem isBoundTo_rename (n : BoundNode α) (h : Handle kind) :
    (n.rename ρ).isBoundTo (h.rename ρ) = n.isBoundTo h := by
  cases n with
  | bool handle node =>
      cases kind with
      | bool => exact Handle.rename_beq ρ handle h
      | disMax => rfl
      | functionScore => rfl
  | disMax handle node =>
      cases kind with
      | bool => rfl
      | disMax => exact Handle.rename_beq ρ handle h
      | functionScore => rfl
  | functionScore handle node =>
      cases kind with
      | bool => rfl
      | disMax => rfl
      | functionScore => exact Handle.rename_beq ρ handle h

theorem agrees_rename (n : BoundNode α) (m : BoundNode β) :
    (n.rename ρ).agrees (m.rename ρ) = n.agrees m := by
  cases n with
  | bool h n =>
      cases m with
      | bool k m => simp only [rename, agrees, Handle.rename_beq]
      | _ => rfl
  | disMax h n =>
      cases m with
      | disMax k m => simp only [rename, agrees, Handle.rename_beq]
      | _ => rfl
  | functionScore h n =>
      cases m with
      | functionScore k m => simp only [rename, agrees, Handle.rename_beq]
      | _ => rfl

end BoundNode

namespace Form

/-- Only a node has a handle. -/
def rename : Form α → Form α
  | node n => .node (n.rename ρ)
  | f => f

theorem rename_map (g : α → β) (f : Form α) : (f.map g).rename ρ = (f.rename ρ).map g := by
  cases f with
  | leaf test options => rfl
  | nested path query options => rfl
  | compound body options => rfl
  | node n => exact congrArg Form.node (n.rename_map ρ g)

theorem children_rename (f : Form α) : (f.rename ρ).children = f.children := by
  cases f with
  | leaf test options => rfl
  | nested path query options => rfl
  | compound body options => rfl
  | node n => exact congrArg Compound.children (n.body_rename ρ)

theorem close_rename (f : Form α) : (f.rename ρ).close = f.close := by
  cases f with
  | leaf test options => rfl
  | nested path query options => rfl
  | compound body options => rfl
  | node n => exact congrArg₂ Form.compound (n.body_rename ρ) (n.options_rename ρ)

theorem agrees_rename (f : Form α) (g : Form β) :
    (f.rename ρ).agrees (g.rename ρ) = f.agrees g := by
  cases f with
  | node n =>
      cases g with
      | node m => exact n.agrees_rename ρ m
      | _ => rfl
  | _ => cases g <;> rfl

end Form

namespace Query

/-! ## 2. All levels -/

/-- The query with the handles of all its nodes renamed. -/
def rename (q : Query) : Query := q.cata fun f => of (f.rename ρ)

theorem rename_of (f : Form Query) :
    (of f).rename ρ = (of (f.rename ρ)).mapChildren (rename ρ) := by
  rw [rename, cata_of, Form.rename_map]
  rfl

theorem children_rename (q : Query) : (q.rename ρ).children = q.children.map (rename ρ) := by
  obtain ⟨f⟩ := q
  rw [rename_of, children_mapChildren, children_of, Form.children_rename, children_of]

theorem rename_leaf (test : LeafTest) (options : Parameters) :
    (leaf test options).rename ρ = leaf test options :=
  rename_of ρ (.leaf test options)

theorem rename_nested (path : Field) (query : Query) (options : Parameters) :
    (nested path query options).rename ρ = nested path (query.rename ρ) options :=
  rename_of ρ (.nested path query options)

theorem rename_compound (body : Compound Query) (options : Parameters) :
    (compound body options).rename ρ = compound (body.map (rename ρ)) options :=
  rename_of ρ (.compound body options)

theorem rename_node (b : Handle kind) (n : Node Query kind) :
    (node b n).rename ρ = node (b.rename ρ) (Node.map (rename ρ) n) := by
  rw [node, rename_of, Form.rename, BoundNode.rename_bind]
  exact mapChildren_node (rename ρ) (b.rename ρ) n

/-- Renaming passes a replacement of the sub-queries. -/
theorem rename_mapChildren {g g' : Query → Query} {q : Query}
    (h : ∀ c ∈ q.children, (g c).rename ρ = g' (c.rename ρ)) :
    (q.mapChildren g).rename ρ = (q.rename ρ).mapChildren g' := by
  obtain ⟨f⟩ := q
  have hrename : (of f).mapChildren g = of (f.map g) := rfl
  -- In either order the level is renamed once and its sub-queries are replaced twice.
  have hsub : ((of (f.rename ρ)).mapChildren (rename ρ ∘ g))
      = (of (f.rename ρ)).mapChildren (g' ∘ rename ρ) := by
    refine mapChildren_congr fun c hc => h c ?_
    rwa [children_of, Form.children_rename] at hc
  rw [hrename, rename_of, Form.rename_map, rename_of, mapChildren_mapChildren, ← hsub,
    ← mapChildren_mapChildren]
  rfl

/-- A query without a node has nothing to be renamed. -/
theorem rename_of_nodes_eq_nil {q : Query} (h : q.nodes = []) : q.rename ρ = q := by
  have hnone : ∀ (p : Position) (x : Query), q.at? p = some x → x.node? = none := by
    intro p x hx
    rw [nodes, List.filterMap_eq_nil_iff] at h
    exact h x (mem_walk.mpr ⟨p, hx⟩)
  clear h
  induction q using Query.induction with
  | step q ih =>
      rw [forall_at?_iff] at hnone
      have hsub : q.mapChildren (rename ρ) = q :=
        mapChildren_eq_self fun c hc => ih c hc (hnone.2 c hc)
      -- The query is no node itself, so that renaming it is renaming its sub-queries.
      obtain ⟨f⟩ := q
      cases f with
      | node n => cases hnone.1
      | _ => exact (rename_of ρ _).trans hsub

/-! ## 3. Searching -/

theorem isBoundTo_rename (q : Query) (h : Handle kind) :
    (q.rename ρ).isBoundTo (h.rename ρ) = q.isBoundTo h := by
  obtain ⟨f⟩ := q
  rw [rename_of, isBoundTo_mapChildren]
  cases f with
  | leaf test options => rfl
  | nested path query options => rfl
  | compound body options => rfl
  | node n => exact n.isBoundTo_rename ρ h

theorem contentsIfBound_rename (q : Query) (h : Handle kind) :
    contentsIfBound (h.rename ρ) (q.rename ρ)
      = (contentsIfBound h q).map (Node.map (rename ρ)) := by
  cases hc : contentsIfBound h q with
  | none =>
      -- That there is nothing is a statement about what the query is bound to.
      rw [contentsIfBound_eq_none_iff] at hc
      rw [Option.map_none, contentsIfBound_eq_none_iff, isBoundTo_rename, hc]
  | some n =>
      obtain ⟨b, hb, rfl⟩ := contentsIfBound_eq_some_iff.mp hc
      have hb' : (b.rename ρ == h.rename ρ) = true := (Handle.rename_beq ρ b h).trans hb
      rw [rename_node, contentsIfBound_node hb', Option.map_some]

theorem boundCount_rename (q : Query) (h : Handle kind) :
    (q.rename ρ).boundCount (h.rename ρ) = q.boundCount h := by
  rw [boundCount_eq, boundCount_eq, placed_of_children_map (children_rename ρ), List.countP_map]
  congr 1
  funext x
  exact isBoundTo_rename ρ x.2 h

theorem total_boundCount_rename (trees : List Query) (h : Handle kind) :
    total (fun t => t.boundCount (h.rename ρ)) (trees.map (rename ρ))
      = total (fun t => t.boundCount h) trees := by
  rw [total_map]
  exact total_congr fun t _ => boundCount_rename ρ t h

/-- The corresponding node is found. -/
theorem find?_rename (q : Query) (h : Handle kind) :
    (q.rename ρ).find? (h.rename ρ) = (q.find? h).map (Node.map (rename ρ)) := by
  rw [find?_eq, find?_eq, walk_of_children_map (children_rename ρ), List.findSome?_map,
    List.map_findSome?]
  congr 1
  funext x
  exact contentsIfBound_rename ρ x h

/-- The handle is bound in the same places, and these are searched in the same order. -/
theorem boundPlacesList_rename (trees : List Query) (h : Handle kind) :
    boundPlacesList (trees.map (rename ρ)) (h.rename ρ) = boundPlacesList trees h := by
  have hplaced : placedIn (trees.map (rename ρ))
      = (placedIn trees).map fun x => (x.1, x.2.rename ρ) := by
    rw [placedIn, placedIn, List.zipIdx_map, List.flatMap_map, List.map_flatMap]
    refine List.flatMap_congr fun t _ => ?_
    show ((t.1.rename ρ).placed.map fun x => ((t.2, x.1), x.2)) = _
    rw [placed_of_children_map (children_rename ρ), List.map_map, List.map_map]
    rfl
  have hbound : ((fun x => x.2.isBoundTo (h.rename ρ)) ∘
      fun x : (Nat × Position) × Query => (x.1, x.2.rename ρ)) = fun x => x.2.isBoundTo h :=
    funext fun x => isBoundTo_rename ρ x.2 h
  rw [boundPlacesList, boundPlacesList, hplaced, List.filter_map, List.map_map, hbound]
  rfl

theorem boundPlaces_rename (trees : List Query) (h : Handle kind) :
    boundPlaces (trees.map (rename ρ)) (h.rename ρ) = boundPlaces trees h := by
  rw [boundPlaces_eq, boundPlaces_eq, boundPlacesList_rename]

theorem locate_rename (trees : List Query) (h : Handle kind) :
    locate (trees.map (rename ρ)) (h.rename ρ) = locate trees h := by
  rw [locate_eq_head?, locate_eq_head?, boundPlacesList_rename]

/-! ## 4. Editing -/

section Editing

variable {h : Handle kind} {change change' : Node Query kind → Node Query kind}

/-- A change of the renamed node takes the place of the change of the node. -/
theorem rename_changeIfBound
    (hchange : ∀ n, Node.map (rename ρ) (change n) = change' (Node.map (rename ρ) n)) (q : Query) :
    (q.changeIfBound h change).rename ρ = (q.rename ρ).changeIfBound (h.rename ρ) change' := by
  by_cases hb : q.isBoundTo h = true
  · have hb' : (q.rename ρ).isBoundTo (h.rename ρ) = true := (isBoundTo_rename ρ q h).trans hb
    rw [changeIfBound_of_bound hb, changeIfBound_of_bound hb']
    obtain ⟨b, n, rfl, -⟩ := isBoundTo_iff.mp hb
    rw [modifyNode_node, rename_node, rename_node, modifyNode_node, hchange]
  · rw [Bool.not_eq_true] at hb
    have hb' : (q.rename ρ).isBoundTo (h.rename ρ) = false := (isBoundTo_rename ρ q h).trans hb
    rw [changeIfBound_of_not_bound hb, changeIfBound_of_not_bound hb']

theorem rename_changeBound
    (hchange : ∀ n, Node.map (rename ρ) (change n) = change' (Node.map (rename ρ) n)) (q : Query) :
    (q.changeBound h change).rename ρ = (q.rename ρ).changeBound (h.rename ρ) change' := by
  induction q using Query.induction with
  | step q ih =>
      rw [changeBound_eq, changeBound_eq, rename_changeIfBound ρ hchange, rename_mapChildren ρ ih]

end Editing

end Query

/-- The same refusal with another handle printed in its message. -/
def QueryError.printing (handle : String) : QueryError → QueryError
  | handleNotFound _ => handleNotFound handle
  | duplicateHandle _ count => duplicateHandle handle count
  | e => e

namespace Query

theorem refusal_rename (h : Handle kind) (count : Nat) :
    refusal (h.rename ρ) count = (refusal h count).printing (h.rename ρ).display := by
  rw [refusal, refusal]
  split
  · rfl
  · rfl

section Editing

variable {trees : List Query} {h : Handle kind} {change : Node Query kind → Node Query kind}

/-- What is made of the node does not matter to a refusal. -/
theorem mutateIn_rename_of_error {e : QueryError} (he : mutateIn trees h change = .error e)
    (change' : Node Query kind → Node Query kind) :
    mutateIn (trees.map (rename ρ)) (h.rename ρ) change'
      = .error (e.printing (h.rename ρ).display) := by
  have hcount := total_boundCount_rename ρ trees h
  by_cases hone : total (fun t => t.boundCount h) trees = 1
  · rw [mutateIn_of_bound_once hone] at he
    cases he
  · rw [mutateIn_of_not_bound_once hone, Except.error.injEq] at he
    rw [mutateIn_of_not_bound_once (hcount ▸ hone), hcount, refusal_rename, he]

theorem mutateIn_rename_of_ok {edited : List Query} (hok : mutateIn trees h change = .ok edited)
    {change' : Node Query kind → Node Query kind}
    (hchange : ∀ n, Node.map (rename ρ) (change n) = change' (Node.map (rename ρ) n)) :
    mutateIn (trees.map (rename ρ)) (h.rename ρ) change' = .ok (edited.map (rename ρ)) := by
  have hcount := total_boundCount_rename ρ trees h
  by_cases hone : total (fun t => t.boundCount h) trees = 1
  · rw [mutateIn_of_bound_once hone, Except.ok.injEq] at hok
    rw [mutateIn_of_bound_once (hcount.trans hone), ← hok, List.map_map, List.map_map]
    refine congrArg Except.ok (List.map_congr_left fun t _ => ?_)
    exact (rename_changeBound ρ hchange t).symm
  · rw [mutateIn_of_not_bound_once hone] at hok
    cases hok

/-- What an edit comes to in the renamed trees: to the renamed outcome, or to a refusal of the same
kind and with the same count. -/
theorem mutateIn_rename {change' : Node Query kind → Node Query kind}
    (hchange : ∀ n, Node.map (rename ρ) (change n) = change' (Node.map (rename ρ) n)) :
    mutateIn (trees.map (rename ρ)) (h.rename ρ) change'
      = ((mutateIn trees h change).map (List.map (rename ρ))).mapError
        (QueryError.printing (h.rename ρ).display) := by
  cases hresult : mutateIn trees h change with
  | error e => exact mutateIn_rename_of_error ρ hresult change'
  | ok edited => exact mutateIn_rename_of_ok ρ hresult hchange

end Editing

/-! ## 5. Equality, reduction and compilation -/

/-- Queries stay equal or different. -/
theorem rename_beq (a b : Query) : (a.rename ρ == b.rename ρ) = (a == b) := by
  induction a using Query.induction generalizing b with
  | step a ih =>
      have hlevel : (a.rename ρ).form.agrees (b.rename ρ).form = a.form.agrees b.form := by
        obtain ⟨f⟩ := a
        obtain ⟨g⟩ := b
        rw [rename_of, rename_of]
        exact (Form.agrees_map _ _ _ _).trans (f.agrees_rename ρ g)
      have hchildren : List.Forall₂ (fun c d => (c == d) = true) (a.rename ρ).children
            (b.rename ρ).children
          ↔ List.Forall₂ (fun c d => (c == d) = true) a.children b.children := by
        rw [children_rename, children_rename, List.forall₂_map_left_iff,
          List.forall₂_map_right_iff, List.forall₂_iff_zip, List.forall₂_iff_zip]
        -- The pairs compared are of a sub-query and its counterpart, where the induction applies.
        refine and_congr_right fun _ => forall_congr' fun c => forall_congr' fun d =>
          imp_congr_right fun hmem => ?_
        rw [ih c (List.of_mem_zip hmem).1 d]
      rw [Bool.eq_iff_iff, beq_iff, beq_iff, hlevel, hchildren]

/-- What a query stands for does not depend on its handles. -/
theorem closeAll_rename (q : Query) : (q.rename ρ).closeAll = q.closeAll := by
  induction q using Query.induction with
  | step q ih =>
      obtain ⟨f⟩ := q
      -- The level loses its handle, whichever it is, and below it there is the induction.
      have hsub : f.close.map (closeAll ∘ rename ρ) = f.close.map closeAll := by
        refine Form.map_congr fun c hc => ih c ?_
        rwa [Form.children_close] at hc
      rw [rename_of, mapChildren, form_of, closeAll_of, closeAll_of, Form.close_map,
        Form.close_rename, Form.map_map, hsub]

/-- Reduction turns a node into the query that it stands for, and keeps those below nested queries
with their handles. -/
theorem reduce_rename (q : Query) : (q.rename ρ).reduce = q.reduce.map (rename ρ) := by
  refine reduce_comm ?_ ?_ (rename_compound ρ) ?_ q
  · intro test options
    rw [rename_leaf, reduce_leaf]
  · intro path query options
    rw [rename_nested, reduce_nested]
  · intro n
    rw [rename_of, mapChildren, form_of, Form.rename, Form.map, reduce_node, BoundNode.body_map,
      BoundNode.options_map, BoundNode.body_rename, BoundNode.options_rename, rename_compound]

/-! Closing goes unnoticed when a query is compiled, and renaming goes unnoticed by closing. -/

theorem compile_rename (q : Query) : (q.rename ρ).compile = q.compile := by
  rw [← compile_closeAll, closeAll_rename, compile_closeAll]

theorem compileInto_rename {σ : Type} [ObjectSink σ] (out : σ) (q : Query) :
    (q.rename ρ).compileInto out = q.compileInto out := by
  rw [← compileInto_closeAll, closeAll_rename, compileInto_closeAll]

/-! ## 6. Identity alone -/

/-- No node is bound to both of two handles that differ in kind or identity. -/
theorem notMem_boundPlaces_of_key_ne {h : Handle kind} {k : Handle kind'} (hne : h.key ≠ k.key)
    {trees : List Query} {place : Nat × Position} (hplace : place ∈ boundPlaces trees h) :
    place ∉ boundPlaces trees k := by
  obtain ⟨t, x, ht, hx, hb⟩ := hplace
  rintro ⟨t', x', ht', hx', hb'⟩
  obtain rfl : t = t' := Option.some.inj (ht.symm.trans ht')
  obtain rfl : x = x' := Option.some.inj (hx.symm.trans hx')
  rw [not_isBoundTo_of_key_ne hne hb] at hb'
  cases hb'

theorem key_eq_of_node_beq {h : Handle kind} {k : Handle kind'} {n : Node Query kind}
    {m : Node Query kind'} (hbeq : (node h n == node k m) = true) : h.key = k.key := by
  have hagrees : (BoundNode.bind h n).agrees (BoundNode.bind k m) = true := (beq_iff.mp hbeq).1
  have hk : (BoundNode.bind k m).isBoundTo k = true := BoundNode.isBoundTo_bind.mpr rfl
  rw [← BoundNode.isBoundTo_eq_of_agrees hagrees k] at hk
  exact BoundNode.isBoundTo_bind.mp hk

/-- **Handles are identities.** Whatever the nodes of some trees and a handle are renamed to,
identities staying apart within a kind:

* the handle is bound as often as before and in the same places, and it leads to the corresponding
  node, which is the first one searched for;
* a change of the renamed node that corresponds to a change of the node makes of the renamed trees
  what the other makes of the trees, renamed; that goes for any edits that bring in no nodes;
* an edit that is refused is refused again, for the same reason and with the same count;
* reduction passes renaming, and compilation does not notice it;
* queries are equal after it exactly if they were before.

Handles with different identities or of different kinds are bound in different places, and nodes
bound to them are never equal, whatever their labels. -/
theorem handles_are_identities (trees : List Query) (h : Handle kind) :
    (∀ t : Query, (t.rename ρ).boundCount (h.rename ρ) = t.boundCount h ∧
      (t.rename ρ).find? (h.rename ρ) = (t.find? h).map (Node.map (rename ρ))) ∧
    boundPlaces (trees.map (rename ρ)) (h.rename ρ) = boundPlaces trees h ∧
    locate (trees.map (rename ρ)) (h.rename ρ) = locate trees h ∧
    (∀ change change' : Node Query kind → Node Query kind,
      (∀ n, Node.map (rename ρ) (change n) = change' (Node.map (rename ρ) n)) →
      mutateIn (trees.map (rename ρ)) (h.rename ρ) change'
        = ((mutateIn trees h change).map (List.map (rename ρ))).mapError
          (QueryError.printing (h.rename ρ).display)) ∧
    (∀ edits : List (Edit Query kind), (∀ e ∈ edits, ∀ x ∈ e.brought, x.nodes = []) →
      mutateIn (trees.map (rename ρ)) (h.rename ρ) (Edit.applyAll edits)
        = ((mutateIn trees h (Edit.applyAll edits)).map (List.map (rename ρ))).mapError
          (QueryError.printing (h.rename ρ).display)) ∧
    (∀ (change : Node Query kind → Node Query kind) (e : QueryError),
      mutateIn trees h change = .error e →
      ∀ change', mutateIn (trees.map (rename ρ)) (h.rename ρ) change'
        = .error (e.printing (h.rename ρ).display)) ∧
    (∀ t : Query, (t.rename ρ).reduce = t.reduce.map (rename ρ) ∧
      (t.rename ρ).compile = t.compile ∧
      ∀ (σ : Type) [ObjectSink σ] (out : σ),
        (t.rename ρ).compileInto out = t.compileInto out) ∧
    (∀ a b : Query, (a.rename ρ == b.rename ρ) = (a == b)) ∧
    (∀ (kind' : NodeKind) (k : Handle kind'), h.key ≠ k.key →
      (∀ place ∈ boundPlaces trees h, place ∉ boundPlaces trees k) ∧
      ∀ n m, (node h n == node k m) = false) := by
  refine ⟨fun t => ⟨boundCount_rename ρ t h, find?_rename ρ t h⟩, boundPlaces_rename ρ trees h,
    locate_rename ρ trees h, fun change change' => mutateIn_rename ρ, fun edits hedits => ?_,
    fun change e => mutateIn_rename_of_error ρ,
    fun t => ⟨reduce_rename ρ t, compile_rename ρ t, ?_⟩, rename_beq ρ,
    fun kind' k hne => ⟨fun place => notMem_boundPlaces_of_key_ne hne, fun n m => ?_⟩⟩
  · refine mutateIn_rename ρ (Edit.map_applyAll fun e he x hx => ?_)
    exact rename_of_nodes_eq_nil ρ (hedits e he x hx)
  · intro σ _ out
    exact compileInto_rename ρ out t
  · rw [← Bool.not_eq_true]
    exact fun hbeq => hne (key_eq_of_node_beq hbeq)

/-! Three handles with one label, two of one kind and two with one identity. After the renaming the
first one has the identity that the second one had. -/

def firstClauses : Handle .bool := ⟨0, some "clauses", "0x10"⟩

def secondClauses : Handle .bool := ⟨1, some "clauses", "0x20"⟩

def bestClauses : Handle .disMax := ⟨0, some "clauses", "0x30"⟩

def namesakes : Query :=
  .bool { must := [.node firstClauses {}, .node secondClauses {}, .node bestClauses {}] }

/-- The next identity for every handle at its old address, and one label for all. -/
def nextIdentity : Renaming where
  token _ := Nat.succ
  injective _ := Nat.succ_injective
  label _ := some "filters"
  address h := h.address

/-- The query after an edit through the first handle. -/
def namesakesEdited : Query :=
  .bool
    { must := [.node firstClauses { body := { must := [.leaf .matchAll] } },
        .node secondClauses {}, .node bestClauses {}] }

theorem mutateIn_namesakes :
    mutateIn [namesakes] firstClauses (Edit.applyAll [.addClause .must (.leaf .matchAll)])
      = .ok [namesakesEdited] := by
  have hcount : total (fun t => t.boundCount firstClauses) [namesakes] = 1 := by cbv
  rw [mutateIn_of_bound_once hcount]
  cbv

theorem namesakes_told_apart :
    (∀ place ∈ boundPlaces [namesakes] firstClauses,
      place ∉ boundPlaces [namesakes] secondClauses ∧ place ∉ boundPlaces [namesakes] bestClauses) ∧
    mutateIn [namesakes.rename nextIdentity] (firstClauses.rename nextIdentity)
        (Edit.applyAll [.addClause .must (.leaf .matchAll)])
      = .ok [namesakesEdited.rename nextIdentity] := by
  obtain ⟨-, -, -, -, hedits, -, -, -, hapart⟩ :=
    handles_are_identities nextIdentity [namesakes] firstClauses
  have hsecond := (hapart .bool secondClauses (by decide)).1
  have hbest := (hapart .disMax bestClauses (by decide)).1
  refine ⟨fun place hplace => ⟨hsecond place hplace, hbest place hplace⟩, ?_⟩
  have hbrought : ∀ e ∈ [(Edit.addClause .must (.leaf .matchAll) : Edit Query .bool)],
      ∀ x ∈ e.brought, x.nodes = [] := by
    simp only [List.forall_mem_singleton, Edit.brought]
    cbv
  have hedited := hedits _ hbrought
  rw [mutateIn_namesakes] at hedited
  exact hedited

end Query

end SearchQuery
