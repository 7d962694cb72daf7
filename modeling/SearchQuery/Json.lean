import SearchQuery.Writing

/-!
# JSON documents

The document that a description builds up. An object is an insertion-ordered map, so writing a key
twice keeps its first place and its last value. JSON has no spelling for numbers that are not
finite; they become null.
-/

namespace SearchQuery

/-- A JSON document. Integers and floats are kept apart: they are spelled differently. -/
inductive Json where
  | null
  | boolean (b : Bool)
  | integer (n : Int64)
  | float (x : Double)
  | string (s : String)
  | array (items : List Json)
  | object (members : OrderedMap Json)
  deriving Inhabited

/-- A JSON object that is being built or has been built. -/
abbrev JsonObject := OrderedMap Json

/-! ## 1. The document as a sink -/

namespace Scalar

/-- The JSON form of a scalar. -/
def toJson : Scalar → Json
  | null => .null
  | boolean b => .boolean b
  | integer n => .integer n
  | float x => if x.isFinite then .float x else .null
  | string s => .string s

end Scalar

mutual

/-- What a member binds its key to. -/
def Member.toJson : Member → Json
  | .scalar _ value => value.toJson
  | .object _ members => .object (Member.fillJson OrderedMap.empty members)
  | .array _ items => .array (Item.toJsons items)

/-- The JSON form of an item. -/
def Item.toJson : Item → Json
  | .scalar value => value.toJson
  | .object members => .object (Member.fillJson OrderedMap.empty members)
  | .array items => .array (Item.toJsons items)

/-- Writes members into an object, null ones included. -/
def Member.fillJson (o : JsonObject) : List Member → JsonObject
  | [] => o
  | m :: rest => Member.fillJson (o.insert m.key (Member.toJson m)) rest

/-- The JSON forms of items, in order. -/
def Item.toJsons : List Item → List Json
  | [] => []
  | i :: rest => Item.toJson i :: Item.toJsons rest

end

instance : ObjectSink JsonObject := ⟨fun o m => o.insert m.key m.toJson⟩

/-- The object that members build up. -/
def JsonObject.ofMembers (members : List Member) : JsonObject :=
  writeAll (OrderedMap.empty : JsonObject) members

/-! ## 2. Equality -/

mutual

/-- Equality of documents: floats as IEEE data, objects without regard to the order of keys. -/
def Json.beq : Json → Json → Bool
  | .null, .null => true
  | .boolean a, .boolean b => a == b
  | .integer a, .integer b => a == b
  | .float a, .float b => a == b
  | .string a, .string b => a == b
  | .array xs, .array ys => Json.beqItems xs ys
  | .object ⟨xs⟩, .object ys => xs.length == ys.size && Json.beqEntries xs ys
  | _, _ => false

/-- Items are compared in order. -/
def Json.beqItems : List Json → List Json → Bool
  | [], [] => true
  | x :: xs, y :: ys => Json.beq x y && Json.beqItems xs ys
  | _, _ => false

/-- Every entry has an equal partner under its key. -/
def Json.beqEntries : List (String × Json) → JsonObject → Bool
  | [], _ => true
  | (key, x) :: rest, ys =>
    (match ys.get? key with
      | some y => Json.beq x y
      | none => false) && Json.beqEntries rest ys

end

instance : BEq Json := ⟨Json.beq⟩

end SearchQuery
