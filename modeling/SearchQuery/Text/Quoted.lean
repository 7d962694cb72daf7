import SearchQuery.Text.Unseen

/-!
# Strings in messages

A message shows a string between quotes in such a way that its reader can tell what is in it: the
quote and the backslash are escaped, the usual controls have their letters, and every other
character that cannot be seen on its own is given by its code point.
-/

namespace SearchQuery

/-- Lower-case hexadecimal digits, without leading zeros. -/
def hexText (n : Nat) : String := String.ofList (Nat.toDigits 16 n)

/-- A character of a string in a message. -/
def showChar (c : Char) : String :=
  match c with
  | '\x00' => "\\0"
  | '\t' => "\\t"
  | '\n' => "\\n"
  | '\r' => "\\r"
  | '"' => "\\\""
  | '\\' => "\\\\"
  | _ => if isUnseen c then "\\u\x7b" ++ hexText c.toNat ++ "\x7d" else c.toString

/-- A string in a message. -/
def showQuoted (s : String) : String := "\"" ++ String.join (s.toList.map showChar) ++ "\""

end SearchQuery
