import SearchQuery.Query

/-!
# Positions in a query

A position is the way down to a sub-query: at each level the index of a direct sub-query. Reading
and replacing at a position go down the tree one level at a time; replacing remembers the levels it
passed and puts them back together on the way up, so that neither is bounded by the call stack.
-/

namespace SearchQuery

/-- The indices of the direct sub-queries on the way down. -/
abbrev Position := List Nat

namespace Query

/-- The sub-query at a position. -/
def at? (q : Query) : Position → Option Query
  | [] => some q
  | i :: rest =>
    match q.children[i]? with
    | some c => at? c rest
    | none => none

/-- Puts levels back around a query. The innermost level comes first, each with the index that the
query takes in it. -/
def rebuild (q : Query) : List (Query × Nat) → Query
  | [] => q
  | (parent, i) :: levels => rebuild (parent.setChild i q) levels

/-- Goes down to a position, gathering the levels passed, and changes the sub-query there. -/
def modifyLoop (change : Query → Query) (q : Query) : Position → List (Query × Nat) → Option Query
  | [], levels => some ((change q).rebuild levels)
  | i :: rest, levels =>
    match q.children[i]? with
    | some c => modifyLoop change c rest ((q, i) :: levels)
    | none => none

/-- Changes the sub-query at a position; `none` if there is no such position. -/
def modifyAt (q : Query) (p : Position) (change : Query → Query) : Option Query :=
  modifyLoop change q p []

/-- Replaces the sub-query at a position; `none` if there is no such position. -/
def replaceAt (q : Query) (p : Position) (x : Query) : Option Query :=
  q.modifyAt p fun _ => x

end Query

end SearchQuery
