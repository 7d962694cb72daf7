import SearchQuery.Json
import SearchQuery.Double.Spelling

/-!
# JSON text

A document has a compact text without blanks and a laid-out text with two blanks of indentation for
each level. In a string only the quote, the backslash and the control characters below U+0020 are
escaped.
-/

namespace SearchQuery

namespace Json

/-! ## 1. Scalars -/

/-- Floats are plain when the leading digit stands between five places after the point and
sixteen places before it, and keep a fractional part; an exact tie goes to the even digit. -/
def numberStyle : NumberStyle := ⟨some (-5, 15), true, .toEven⟩

/-- Four lower-case hexadecimal digits. -/
def hex4 (n : Nat) : String :=
  String.ofList [Nat.digitChar (n / 4096 % 16), Nat.digitChar (n / 256 % 16),
    Nat.digitChar (n / 16 % 16), Nat.digitChar (n % 16)]

/-- A character inside a string. -/
def escape (c : Char) : String :=
  if c = '"' then "\\\""
  else if c = '\\' then "\\\\"
  else if c.toNat < 0x20 then
    match c with
    | '\x08' => "\\b"
    | '\t' => "\\t"
    | '\n' => "\\n"
    | '\x0c' => "\\f"
    | '\r' => "\\r"
    | _ => "\\u" ++ hex4 c.toNat
  else c.toString

/-- A string between quotes. -/
def quote (s : String) : String :=
  "\"" ++ String.join (s.toList.map escape) ++ "\""

/-! ## 2. Compact text -/

mutual

/-- The text of a document without blanks. -/
def compact : Json → String
  | .null => "null"
  | .boolean b => if b then "true" else "false"
  | .integer n => toString n.toInt
  | .float x => numberStyle.spell x
  | .string s => quote s
  | .array items => "[" ++ ",".intercalate (compactItems items) ++ "]"
  | .object ⟨entries⟩ => "\x7b" ++ ",".intercalate (compactEntries entries) ++ "\x7d"

def compactItems : List Json → List String
  | [] => []
  | j :: rest => compact j :: compactItems rest

def compactEntries : List (String × Json) → List String
  | [] => []
  | (key, j) :: rest => (quote key ++ ":" ++ compact j) :: compactEntries rest

end

/-! ## 3. Laid-out text -/

/-- A new line at the given level. -/
def newline (level : Nat) : String := "\n" ++ String.ofList (List.replicate (2 * level) ' ')

/-- Parts between brackets, each on a line one level further in; without parts, the brackets
stand together. -/
def bracketed (opening closing : String) (level : Nat) (parts : List String) : String :=
  if parts.isEmpty then opening ++ closing
  else
    opening ++ newline (level + 1) ++ ("," ++ newline (level + 1)).intercalate parts ++
      newline level ++ closing

mutual

/-- The laid-out text of a document that starts at the given level. -/
def prettyAt (level : Nat) : Json → String
  | .array items => bracketed "[" "]" level (prettyItems (level + 1) items)
  | .object ⟨entries⟩ => bracketed "\x7b" "\x7d" level (prettyEntries (level + 1) entries)
  | .null => "null"
  | .boolean b => if b then "true" else "false"
  | .integer n => toString n.toInt
  | .float x => numberStyle.spell x
  | .string s => quote s

def prettyItems (level : Nat) : List Json → List String
  | [] => []
  | j :: rest => prettyAt level j :: prettyItems level rest

def prettyEntries (level : Nat) : List (String × Json) → List String
  | [] => []
  | (key, j) :: rest => (quote key ++ ": " ++ prettyAt level j) :: prettyEntries level rest

end

/-- The laid-out text of a document. -/
def pretty (j : Json) : String := prettyAt 0 j

end Json

end SearchQuery
