import SearchQuery.Json.Number
import SearchQuery.Total
import SearchQuery.WireName

/-!
# Reading typed data from JSON text

The text is read straight into the type that is expected, without a document in between, so that
the first thing that does not fit is the one reported. A reader takes the text at hand and gives
what it read with the rest; blanks are skipped before each value.
-/

namespace SearchQuery

/-- A reader of one value at the head of a text. -/
abbrev JsonReader (α : Type) := List Char → Except ReadError (α × List Char)

namespace JsonReader

/-! ## 1. Words and strings -/

def isBlank (c : Char) : Bool := c = ' ' || c = '\n' || c = '\t' || c = '\r'

def skipBlanks (text : List Char) : List Char := text.dropWhile isBlank

/-- The rest after a fixed word. -/
def afterWord : List Char → List Char → Except ReadError (List Char)
  | [], text => .ok text
  | _ :: _, [] => .error .truncated
  | w :: ws, c :: rest => if c = w then afterWord ws rest else .error .malformed

/-- The value of a hexadecimal digit. -/
def hexValue? (c : Char) : Option Nat :=
  if c.isDigit then some (c.toNat - '0'.toNat)
  else if 'a' ≤ c ∧ c ≤ 'f' then some (c.toNat - 'a'.toNat + 10)
  else if 'A' ≤ c ∧ c ≤ 'F' then some (c.toNat - 'A'.toNat + 10)
  else none

/-- The number that four hexadecimal digits stand for. -/
def hexValue4? (a b c d : Char) : Option Nat := do
  return ((← hexValue? a) * 16 + (← hexValue? b)) * 256 + (← hexValue? c) * 16 + (← hexValue? d)

/-- Why four hexadecimal digits are not there: the text stops before four more bytes, or some of
them are no digits. -/
def hexError (text : List Char) : ReadError :=
  if total Char.utf8Size text < 4 then .truncated else .malformed

/-- The single character that a letter after a backslash stands for. -/
def escaped? : Char → Option Char
  | '"' => some '"'
  | '\\' => some '\\'
  | '/' => some '/'
  | 'b' => some '\x08'
  | 'f' => some '\x0c'
  | 'n' => some '\n'
  | 'r' => some '\r'
  | 't' => some '\t'
  | _ => none

/-- The character of a code unit outside the surrogates. -/
def charOfUnit (n : Nat) : Char := Char.ofNat n

/-- The character of a pair of surrogates. -/
def charOfPair (high low : Nat) : Char :=
  Char.ofNat (0x10000 + (high - 0xD800) * 0x400 + (low - 0xDC00))

/-- The characters up to the closing quote, and the rest after it. A surrogate stands only before
its partner; control characters do not stand in a string. -/
def stringBody : List Char → List Char → Except ReadError (String × List Char)
  | [], _ => .error .truncated
  | '"' :: rest, done => .ok (String.ofList done.reverse, rest)
  | '\\' :: [], _ => .error .truncated
  | '\\' :: 'u' :: text, done =>
    match text with
    | a :: b :: c :: d :: rest =>
      match hexValue4? a b c d with
      | none => .error (hexError text)
      | some n =>
        if n < 0xD800 ∨ 0xDFFF < n then stringBody rest (charOfUnit n :: done)
        else if 0xDC00 ≤ n then .error .malformed
        else
          match rest with
          | [] => .error .truncated
          | ['\\'] => .error .truncated
          | '\\' :: 'u' :: text =>
            match text with
            | a :: b :: c :: d :: rest =>
              match hexValue4? a b c d with
              | none => .error (hexError text)
              | some m =>
                if 0xDC00 ≤ m ∧ m ≤ 0xDFFF then stringBody rest (charOfPair n m :: done)
                else .error .malformed
            | _ => .error (hexError text)
          | _ => .error .malformed
    | _ => .error (hexError text)
  | '\\' :: c :: rest, done =>
    match escaped? c with
    | some e => stringBody rest (e :: done)
    | none => .error .malformed
  | c :: rest, done =>
    if c.toNat < 0x20 then .error .malformed else stringBody rest (c :: done)

/-! ## 2. What stands there instead -/

/-- The error for a value of another type than the expected one: the value's own error if it is no
value at all. -/
def mismatch (expected : String) (text : List Char) : ReadError :=
  let typed (found : Found) : ReadError := .shape (.invalidType found expected)
  let word (letters : String) (found : Found) (rest : List Char) : ReadError :=
    match afterWord letters.toList rest with
    | .ok _ => typed found
    | .error e => e
  match text with
  | [] => .truncated
  | 'n' :: rest => word "ull" .null rest
  | 't' :: rest => word "rue" (.boolean true) rest
  | 'f' :: rest => word "alse" (.boolean false) rest
  | '"' :: rest =>
    match stringBody rest [] with
    | .ok (s, _) => typed (.string s)
    | .error e => e
  | '[' :: _ => typed .sequence
  | '\x7b' :: _ => typed .map
  | c :: _ =>
    if c = '-' ∨ c.isDigit then
      match JsonNumber.read text with
      | .ok (n, _) => typed n.found
      | .error e => e
    else .malformed

/-! ## 3. Values -/

/-- A string; `expected` is what a message calls it. -/
def string (expected : String) : JsonReader String := fun text =>
  match skipBlanks text with
  | '"' :: rest => stringBody rest []
  | text => .error (mismatch expected text)

def boolean : JsonReader Bool := fun text =>
  match skipBlanks text with
  | 't' :: rest => (afterWord "rue".toList rest).map fun rest => (true, rest)
  | 'f' :: rest => (afterWord "alse".toList rest).map fun rest => (false, rest)
  | text => .error (mismatch "a boolean" text)

/-- An unsigned 64-bit integer. -/
def word64 : JsonReader UInt64 := fun text =>
  match skipBlanks text with
  | [] => .error .truncated
  | c :: rest =>
    if c = '-' ∨ c.isDigit then do
      let (n, rest) ← JsonNumber.read (c :: rest)
      match n with
      | .integer n =>
        if n < 0 then .error (.shape (.invalidValue (.integer n) "u64"))
        else return (UInt64.ofNat n.toNat, rest)
      | .float x => .error (.shape (.invalidType (.float x) "u64"))
    else .error (mismatch "u64" (c :: rest))

/-- A value or null. -/
def optional {α : Type} (value : JsonReader α) : JsonReader (Option α) := fun text =>
  match skipBlanks text with
  | 'n' :: rest => (afterWord "ull".toList rest).map fun rest => (none, rest)
  | text => (value text).map fun (a, rest) => (some a, rest)

/-- The key of a member, which is a string and nothing else, at the head of a text without leading
blanks. -/
def key : JsonReader String
  | [] => .error .truncated
  | '"' :: rest => stringBody rest []
  | _ => .error .malformed

/-- The rest after a colon. -/
def afterColon (text : List Char) : Except ReadError (List Char) :=
  match skipBlanks text with
  | [] => .error .truncated
  | ':' :: rest => .ok rest
  | _ => .error .malformed

/-- The rest after null. -/
def afterNull (text : List Char) : Except ReadError (List Char) :=
  match skipBlanks text with
  | 'n' :: rest => afterWord "ull".toList rest
  | text => .error (mismatch "unit" text)

/-- The member of a finite type that a word spells. -/
def variant {α : Type} [WireName α] (word : String) : Except ReadError α :=
  match WireName.ofWire? word with
  | some a => .ok a
  | none => .error (.shape (.unknownVariant word ((WireName.all : List α).map WireName.wire)))

/-- A member of a finite type: its word, or an object whose only member has the word as its key
and null as its value. -/
def wireName {α : Type} [WireName α] : JsonReader α := fun text =>
  match skipBlanks text with
  | [] => .error .truncated
  | '"' :: rest => do
    let (word, rest) ← stringBody rest []
    return (← variant word, rest)
  | '\x7b' :: rest => do
    let (word, rest) ← key (skipBlanks rest)
    let a ← variant word
    let rest ← afterColon rest
    let rest ← afterNull rest
    match skipBlanks rest with
    | [] => .error .truncated
    | '\x7d' :: rest => return (a, rest)
    | _ => .error .malformed
  | _ => .error .malformed

/-! ## 4. Records -/

/-- A field of a record: its name, and how its value is read into the record. -/
structure RecordField (ρ : Type) where
  name : String
  read : ρ → JsonReader ρ

/-- A field of type `α`. -/
def RecordField.of {ρ α : Type} (name : String) (value : JsonReader α) (put : ρ → α → ρ) :
    RecordField ρ :=
  ⟨name, fun r text => (value text).map fun (a, rest) => (put r a, rest)⟩

/-- The rest after the end of an array with nothing more in it. -/
def afterArray (text : List Char) : Except ReadError (List Char) :=
  match skipBlanks text with
  | [] => .error .truncated
  | ']' :: rest => .ok rest
  | _ => .error .malformed

/-- The values of a record in the order of its fields; fields beyond the end keep what they have. -/
def recordArray {ρ : Type} (r : ρ) : List (RecordField ρ) → Bool → JsonReader ρ
  | [], _, text => do return (r, ← afterArray text)
  | field :: fields, first, text =>
    match skipBlanks text with
    | [] => .error .truncated
    | ']' :: rest => .ok (r, rest)
    | c :: rest =>
      if first then do
        let (r, rest) ← field.read r (c :: rest)
        recordArray r fields false rest
      else if c = ',' then
        match skipBlanks rest with
        | [] => .error .truncated
        | ']' :: _ => .error .malformed
        | rest => do
          let (r, rest) ← field.read r rest
          recordArray r fields false rest
      else .error .malformed

/-- The key of the next member of an object, or the rest after the object. -/
def nextKey (first : Bool) (text : List Char) :
    Except ReadError ((String × List Char) ⊕ List Char) :=
  match skipBlanks text with
  | [] => .error .truncated
  | '\x7d' :: rest => .ok (.inr rest)
  | c :: rest =>
    if first then (key (c :: rest)).map .inl
    else if c = ',' then (key (skipBlanks rest)).map .inl
    else .error .malformed

/-- The members of a record in any order. A field may be given once, and only fields of the record
may be given. Each member takes up text, so as much fuel as there are characters suffices. -/
def recordObject {ρ : Type} (fields : List (RecordField ρ)) :
    Nat → ρ → List String → Bool → JsonReader ρ
  | 0, _, _, _, _ => .error .truncated
  | fuel + 1, r, seen, first, text => do
    match ← nextKey first text with
    | .inr rest => return (r, rest)
    | .inl (key, rest) =>
      match fields.find? fun f => f.name = key with
      | none => .error (.shape (.unknownField key (fields.map RecordField.name)))
      | some field =>
        if seen.contains key then .error (.shape (.duplicateField key))
        else
          let rest ← afterColon rest
          let (r, rest) ← field.read r rest
          recordObject fields fuel r (key :: seen) false rest

/-- A record, given as an object or as an array of its fields' values. -/
def record {ρ : Type} (expected : String) (fields : List (RecordField ρ)) (start : ρ) :
    JsonReader ρ := fun text =>
  match skipBlanks text with
  | [] => .error .truncated
  | '[' :: rest => recordArray start fields true rest
  | '\x7b' :: rest => recordObject fields (rest.length + 1) start [] true rest
  | text => .error (mismatch expected text)

/-! ## 5. Whole texts -/

/-- Reads a text that holds one value and nothing more. -/
def readAll {α : Type} (reader : JsonReader α) (text : String) : Except ReadError α := do
  let (a, rest) ← reader text.toList
  match skipBlanks rest with
  | [] => return a
  | _ => .error .malformed

end JsonReader

end SearchQuery
