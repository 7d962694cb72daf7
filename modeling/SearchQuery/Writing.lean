import SearchQuery.Value

/-!
# What is written

Writing a query does not build a document. It describes one: a sequence of members to add to the
object that is open, where a member is a scalar under its key or a nested object or array with what
is written into it. What becomes of the description is the business of its reader. A sink folds the
members into a document or a container, and `events` lays the description out as the flat sequence
of steps in which it is carried out.

Keys may repeat in a description, and a null member is still a member; what that means is again up
to the sink.
-/

namespace SearchQuery

/-- A scalar on its way into a document. A field reference arrives as the string of its name. -/
inductive Scalar where
  | null
  | boolean (b : Bool)
  | integer (n : Int64)
  | float (x : Double)
  | string (s : String)
  deriving DecidableEq, Inhabited

mutual

/-- One thing written into an open object. -/
inductive Member where
  | scalar (key : String) (value : Scalar)
  | object (key : String) (members : List Member)
  | array (key : String) (items : List Item)

/-- One thing written into an open array. -/
inductive Item where
  | scalar (value : Scalar)
  | object (members : List Member)
  | array (items : List Item)

end

instance : Inhabited Member := ⟨.scalar "" .null⟩

instance : Inhabited Item := ⟨.scalar .null⟩

namespace Member

/-- The key under which a member is written. -/
def key : Member → String
  | scalar key _ => key
  | object key _ => key
  | array key _ => key

/-- A member that is a string. -/
def string (key : String) (s : String) : Member := .scalar key (.string s)

/-- A member that is a float. -/
def float (key : String) (x : Double) : Member := .scalar key (.float x)

end Member

/-! ## 1. Writing values and containers -/

mutual

/-- A value under a key. -/
def Value.member (key : String) : Value → Member
  | .null => .scalar key .null
  | .boolean b => .scalar key (.boolean b)
  | .integer n => .scalar key (.integer n)
  | .float x => .scalar key (.float x)
  | .string s => .scalar key (.string s)
  | .field f => .scalar key (.string f.name)
  | .array items => .array key (Value.items items)
  | .object ⟨entries⟩ => .object key (Value.members entries)

/-- A value in an array. -/
def Value.item : Value → Item
  | .null => .scalar .null
  | .boolean b => .scalar (.boolean b)
  | .integer n => .scalar (.integer n)
  | .float x => .scalar (.float x)
  | .string s => .scalar (.string s)
  | .field f => .scalar (.string f.name)
  | .array items => .array (Value.items items)
  | .object ⟨entries⟩ => .object (Value.members entries)

/-- The values of an array, in order. -/
def Value.items : List Value → List Item
  | [] => []
  | v :: rest => Value.item v :: Value.items rest

/-- The entries of a container, in its order. -/
def Value.members : List (String × Value) → List Member
  | [] => []
  | (key, v) :: rest => Value.member key v :: Value.members rest

end

/-- A container writes one member for each of its keys. -/
def Parameters.members (p : Parameters) : List Member := Value.members p.entries

/-! ## 2. The steps of a description -/

/-- A step of carrying out a description. Inside an object, values, objects and arrays come with a
key; inside an array, without. -/
inductive Event where
  | field (key : String) (value : Scalar)
  | openObject (key : String)
  | openArray (key : String)
  | value (value : Scalar)
  | openObjectItem
  | openArrayItem
  | closeObject
  | closeArray
  deriving DecidableEq, Inhabited

mutual

/-- The steps of one member: a nested object or array is opened, filled and closed. -/
def Member.events : Member → List Event
  | .scalar key value => [.field key value]
  | .object key members => .openObject key :: (Member.eventsOf members ++ [.closeObject])
  | .array key items => .openArray key :: (Item.eventsOf items ++ [.closeArray])

/-- The steps of one item. -/
def Item.events : Item → List Event
  | .scalar value => [.value value]
  | .object members => .openObjectItem :: (Member.eventsOf members ++ [.closeObject])
  | .array items => .openArrayItem :: (Item.eventsOf items ++ [.closeArray])

/-- The steps of several members, in order. -/
def Member.eventsOf : List Member → List Event
  | [] => []
  | m :: rest => Member.events m ++ Member.eventsOf rest

/-- The steps of several items, in order. -/
def Item.eventsOf : List Item → List Event
  | [] => []
  | i :: rest => Item.events i ++ Item.eventsOf rest

end

/-! ## 3. Sinks -/

/-- What a description can be written into: an open object that takes one member at a time. -/
class ObjectSink (σ : Type) where
  write : σ → Member → σ

/-- Writes members into an open object, in order. -/
def writeAll {σ : Type} [ObjectSink σ] (out : σ) (members : List Member) : σ :=
  members.foldl ObjectSink.write out

/-- The recorder: it keeps every step. -/
instance : ObjectSink (List Event) := ⟨fun log m => log ++ m.events⟩

/-! ## 4. The container as a sink -/

namespace Scalar

/-- The value of a scalar. -/
def toValue : Scalar → Value
  | null => .null
  | boolean b => .boolean b
  | integer n => .integer n
  | float x => .float x
  | string s => .string s

end Scalar

mutual

/-- What a member binds its key to. -/
def Member.toValue : Member → Value
  | .scalar _ value => value.toValue
  | .object _ members => .object (Member.fill OrderedMap.empty members)
  | .array _ items => .array (Item.toValues items)

/-- The value of an item. -/
def Item.toValue : Item → Value
  | .scalar value => value.toValue
  | .object members => .object (Member.fill OrderedMap.empty members)
  | .array items => .array (Item.toValues items)

/-- Writes members into a container: a null member removes its key. -/
def Member.fill (p : Parameters) : List Member → Parameters
  | [] => p
  | m :: rest => Member.fill (Parameters.assign p m.key (Member.toValue m)) rest

/-- The values of items, in order; a null item stays. -/
def Item.toValues : List Item → List Value
  | [] => []
  | i :: rest => Item.toValue i :: Item.toValues rest

end

instance : ObjectSink Parameters := ⟨fun p m => Parameters.assign p m.key m.toValue⟩

/-- The container that members build up. -/
def Parameters.ofMembers (members : List Member) : Parameters :=
  writeAll (OrderedMap.empty : Parameters) members

end SearchQuery
