import SearchQuery.Error
import SearchQuery.Writing

/-!
# Scripts

A script is either given inline by its source or stored in the engine under an id, never both.
-/

namespace SearchQuery

/-- Where the text of a script is. -/
inductive ScriptBody where
  | inline (source : String)
  | stored (id : String)
  deriving DecidableEq

/-- A script with its language and its parameters. -/
structure Script where
  body : ScriptBody
  lang : Option String := none
  params : Parameters := OrderedMap.empty
  deriving BEq

namespace Script

def inline (source : String) : Script := { body := .inline source }

def stored (id : String) : Script := { body := .stored id }

/-- The script of an optional source and an optional id: exactly one of them has to be given. -/
def ofParts (source id : Option String) : Except QueryError Script :=
  match source, id with
  | some source, none => .ok (inline source)
  | none, some id => .ok (stored id)
  | some _, some _ =>
    .error (.invalidArgument "script takes either an inline source or a stored id, not both")
  | none, none => .error (.invalidArgument "script needs an inline source or a stored id")

def source? (s : Script) : Option String :=
  match s.body with
  | .inline source => some source
  | .stored _ => none

def id? (s : Script) : Option String :=
  match s.body with
  | .inline _ => none
  | .stored id => some id

/-- Assigns entries to the parameters, first to last; a null entry removes its key. -/
def withParams (s : Script) (entries : List (String × Value)) : Script :=
  { s with params := Parameters.merge s.params entries }

/-- What a script writes: where its text is, its language, and its parameters if it has any. -/
def members (s : Script) : List Member :=
  (match s.body with
    | .inline source => [.string "source" source]
    | .stored id => [.string "id" id]) ++
  (s.lang.map (Member.string "lang")).toList ++
  if s.params.isEmpty then [] else [.object "params" (Parameters.members s.params)]

end Script

end SearchQuery
