import SearchQuery.Script
import SearchQuery.TypedOption

/-!
# Sort keys

An entry of a request's sort list orders by a field or by what a script computes.
-/

namespace SearchQuery

/-- What a sort orders by. -/
inductive SortTarget where
  | field (field : Field)
  | script (script : Script) (type : ScriptSortType)
  deriving BEq

/-- One sort key with its options. -/
structure SortKey where
  target : SortTarget
  options : Parameters := OrderedMap.empty
  deriving BEq

namespace SortKey

def field (f : Field) : SortKey := { target := .field f }

def script (s : Script) (type : ScriptSortType) : SortKey := { target := .script s type }

/-- The sort key of an optional field and an optional script: exactly one of them has to be given.
A script given this way computes numbers. -/
def ofParts (f : Option Field) (s : Option Script) : Except QueryError SortKey :=
  match f, s with
  | some f, none => .ok (field f)
  | none, some s => .ok (script s .number)
  | some _, some _ =>
    .error (.invalidArgument "sort takes either a field or a script, not both")
  | none, none => .error (.invalidArgument "sort needs a field or a script")

/-- What a sort key writes into the sort list: a field without options is just its name. -/
def item (k : SortKey) : Item :=
  match k.target with
  | .field f =>
    if k.options.isEmpty then .scalar (.string f.name)
    else .object [.object f.name (Parameters.members k.options)]
  | .script s type =>
    .object [.object "_script" ([.string "type" (WireName.wire type), .object "script" s.members] ++
      Parameters.members k.options)]

end SortKey

end SearchQuery
