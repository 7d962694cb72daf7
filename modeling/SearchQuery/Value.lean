import SearchQuery.Double.Rounding
import SearchQuery.OrderedMap

/-!
# Values and parameters

A `Value` is what an option can hold. `Parameters` are the containers that options, scripts and
requests keep them in: an insertion-ordered map in which assigning the null value removes a key,
so that "not set" can be passed along like any other value.

The order of the keys is visible in what is written, but not to equality: two containers are equal
when they have the same keys with equal values.
-/

namespace SearchQuery

/-- The name of a document field. It is never taken apart; when written it is just its name. -/
structure Field where
  name : String
  deriving DecidableEq, Inhabited

/-- A value of an option. -/
inductive Value where
  /-- Absence: assigning it removes a key. -/
  | null
  | boolean (b : Bool)
  | float (x : Double)
  | integer (n : Int64)
  | string (s : String)
  | array (items : List Value)
  | object (members : OrderedMap Value)
  /-- A reference to a field, written as the field's name. -/
  | field (f : Field)
  deriving Inhabited

/-- A container of named values. -/
abbrev Parameters := OrderedMap Value

namespace Value

def isNull : Value → Bool
  | null => true
  | _ => false

/-- The text of a string or of a field reference. -/
def text? : Value → Option String
  | string s => some s
  | field f => some f.name
  | _ => none

end Value

/-! ## 1. Equality -/

mutual

/-- Equality of values: numbers as IEEE data, containers without regard to the order of keys. An
integer and a float are never equal, nor are a field reference and a string. -/
def Value.beq : Value → Value → Bool
  | .null, .null => true
  | .boolean a, .boolean b => a == b
  | .float a, .float b => a == b
  | .integer a, .integer b => a == b
  | .string a, .string b => a == b
  | .array xs, .array ys => Value.beqItems xs ys
  | .object ⟨xs⟩, .object ys => xs.length == ys.size && Value.beqEntries xs ys
  | .field a, .field b => a == b
  | _, _ => false

/-- Items are compared in order. -/
def Value.beqItems : List Value → List Value → Bool
  | [], [] => true
  | x :: xs, y :: ys => Value.beq x y && Value.beqItems xs ys
  | _, _ => false

/-- Every entry has an equal partner under its key. -/
def Value.beqEntries : List (String × Value) → OrderedMap Value → Bool
  | [], _ => true
  | (key, x) :: rest, ys =>
    (match ys.get? key with
      | some y => Value.beq x y
      | none => false) && Value.beqEntries rest ys

end

instance : BEq Value := ⟨Value.beq⟩

namespace Parameters

/-- The same keys with equal values, in any order. -/
def beq (p q : Parameters) : Bool := p.size == q.size && Value.beqEntries p.entries q

instance : BEq Parameters := ⟨beq⟩

/-! ## 2. Assignment -/

/-- Binds a key to a value; the null value removes the key instead. -/
def assign (p : Parameters) (key : String) : Value → Parameters
  | .null => p.erase key
  | value => p.insert key value

/-- Assigns every entry, first to last. -/
def merge (p : Parameters) (entries : List (String × Value)) : Parameters :=
  entries.foldl (fun q e => assign q e.1 e.2) p

/-- The container that entries assigned in order build up. -/
def ofEntries (entries : List (String × Value)) : Parameters := merge OrderedMap.empty entries

end Parameters

/-! ## 3. What converts into a value -/

/-- Types whose data are values. -/
class ToValue (α : Type) where
  toValue : α → Value

export ToValue (toValue)

instance : ToValue Value := ⟨id⟩
instance : ToValue Bool := ⟨.boolean⟩
instance : ToValue Double := ⟨.float⟩
instance : ToValue String := ⟨.string⟩
instance : ToValue Field := ⟨.field⟩
instance : ToValue Parameters := ⟨.object⟩
instance : ToValue Int64 := ⟨.integer⟩
instance : ToValue Int32 := ⟨fun n => .integer n.toInt64⟩
instance : ToValue Int16 := ⟨fun n => .integer n.toInt64⟩
instance : ToValue Int8 := ⟨fun n => .integer n.toInt64⟩
instance : ToValue UInt32 := ⟨fun n => .integer (Int64.ofNat n.toNat)⟩
instance : ToValue UInt16 := ⟨fun n => .integer (Int64.ofNat n.toNat)⟩
instance : ToValue UInt8 := ⟨fun n => .integer (Int64.ofNat n.toNat)⟩

/-- An unsigned integer beyond the signed range becomes the nearest float. -/
instance : ToValue UInt64 :=
  ⟨fun n =>
    if n.toNat < Nat.pow 2 63 then .integer (Int64.ofNat n.toNat) else .float (.ofNat n.toNat)⟩

/-- Absence is the null value. -/
instance {α : Type} [ToValue α] : ToValue (Option α) :=
  ⟨fun
    | some a => toValue a
    | none => .null⟩

instance {α : Type} [ToValue α] : ToValue (List α) := ⟨fun items => .array (items.map toValue)⟩

end SearchQuery
