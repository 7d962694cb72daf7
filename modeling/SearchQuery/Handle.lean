/-!
# Handles

A handle names one node of a query that stays open for edits. It is a key and not a pointer: it is
looked up in the tree when it is used, so trees can be copied and reduced without making it
invalid. Two handles are equal when one is a copy of the other; the label and the address are for
messages only. A handle belongs to one kind of node, and its type says which.
-/

namespace SearchQuery

/-- The kinds of compound query that can stay open for edits. -/
inductive NodeKind where
  | bool
  | disMax
  | functionScore
  deriving DecidableEq, Repr

/-- A handle for a node of the given kind. -/
structure Handle (kind : NodeKind) where
  /-- The identity. A `HandleSupply` gives each handle its own. -/
  token : Nat
  label : Option String
  /-- How the address of the identity is spelled. -/
  address : String

namespace Handle

variable {kind : NodeKind}

/-- Handles are compared by identity alone. -/
instance : BEq (Handle kind) := ⟨fun h k => h.token == k.token⟩

theorem beq_iff (h k : Handle kind) : (h == k) = true ↔ h.token = k.token := by
  simp [BEq.beq]

/-- How a handle appears in a message: by its label, and without one by its address. -/
def display (h : Handle kind) : String := h.label.getD h.address

/-- How a handle appears in a description of a data structure. -/
def describe (h : Handle kind) : String := "Handle(" ++ h.display ++ ")"

end Handle

/-- The source of new identities and of their addresses, which are masked unless it says how they
are spelled. -/
structure HandleSupply where
  next : Nat := 0
  address : Nat → String := fun _ => "<address>"

namespace HandleSupply

/-- A handle unlike every one supplied before. -/
def fresh (s : HandleSupply) (kind : NodeKind) (label : Option String) :
    Handle kind × HandleSupply :=
  (⟨s.next, label, s.address s.next⟩, { s with next := s.next + 1 })

/-- Where different identities have different addresses, two handles without labels print alike
exactly if they are equal. -/
theorem display_fresh_eq_iff {s t : HandleSupply} (hsame : s.address = t.address)
    (hapart : ∀ m n, s.address m = s.address n → m = n) (kind : NodeKind) :
    (s.fresh kind none).1.display = (t.fresh kind none).1.display ↔
      ((s.fresh kind none).1 == (t.fresh kind none).1) = true := by
  rw [Handle.beq_iff]
  show s.address s.next = t.address t.next ↔ s.next = t.next
  rw [← hsame]
  exact ⟨hapart s.next t.next, congrArg s.address⟩

end HandleSupply

end SearchQuery
