import SearchQuery.Json.Text
import SearchQuery.Text.Quoted

/-!
# Why a text cannot be read

A text is refused because it is no JSON, because it stops too early, or because it is JSON of
another shape than the one expected.
-/

namespace SearchQuery

/-- What stood where something else was expected. -/
inductive Found where
  | null
  | boolean (b : Bool)
  | integer (n : Int)
  | float (x : Double)
  | string (s : String)
  | sequence
  | map

/-- How JSON can have another shape than expected. -/
inductive ShapeError where
  | unknownVariant (word : String) (expected : List String)
  | unknownField (name : String) (expected : List String)
  | duplicateField (name : String)
  | invalidType (found : Found) (expected : String)
  | invalidValue (found : Found) (expected : String)

/-- The causes for refusing a text. -/
inductive ReadError where
  /-- The text is no JSON, or goes on after it. -/
  | malformed
  /-- The text stops before it is complete. -/
  | truncated
  | shape (cause : ShapeError)

namespace Found

def describe : Found → String
  | null => "null"
  | boolean b => if b then "boolean `true`" else "boolean `false`"
  | integer n => "integer `" ++ toString n ++ "`"
  | float x => "floating point `" ++ Json.numberStyle.spell x ++ "`"
  | string s => "string " ++ showQuoted s
  | sequence => "sequence"
  | map => "map"

end Found

namespace ShapeError

/-- A name between backquotes. -/
def ticked (name : String) : String := "`" ++ name ++ "`"

/-- The names that were expected. -/
def choices : List String → String
  | [] => "there are none"
  | [a] => "expected " ++ ticked a
  | [a, b] => "expected " ++ ticked a ++ " or " ++ ticked b
  | names => "expected one of " ++ ", ".intercalate (names.map ticked)

/-- The wording of a wrong shape. -/
def message : ShapeError → String
  | unknownVariant word expected => "unknown variant " ++ ticked word ++ ", " ++ choices expected
  | unknownField name expected => "unknown field " ++ ticked name ++ ", " ++ choices expected
  | duplicateField name => "duplicate field " ++ ticked name
  | invalidType found expected => "invalid type: " ++ found.describe ++ ", expected " ++ expected
  | invalidValue found expected =>
    "invalid value: " ++ found.describe ++ ", expected " ++ expected

end ShapeError

end SearchQuery
