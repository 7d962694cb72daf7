import SearchQuery.TypedOption
import SearchQuery.Writing

/-!
# Leaves

A leaf tests documents without asking another query. Each kind of leaf has its own test; all of
them carry options. A test of one field with one value is written short, `{field: value}`, as long
as it has no options, and in full otherwise.
-/

namespace SearchQuery

/-- What a leaf asks of a document. -/
inductive LeafTest where
  /-- Every document passes. -/
  | matchAll
  /-- The field holds exactly the value. -/
  | term (field : Field) (value : Value)
  /-- The field holds one of the values. -/
  | terms (field : Field) (values : List Value)
  /-- The field lies between the bounds, which are options. -/
  | range (field : Field)
  /-- The field matches the text. -/
  | matchText (field : Field) (text : Value)
  /-- The field contains the phrase. -/
  | matchPhrase (field : Field) (phrase : Value)
  /-- The field has any value. -/
  | existsField (field : Field)
  /-- One of the fields matches the text. -/
  | multiMatch (text : Value) (fields : List Field)
  /-- The document has one of the ids. -/
  | ids (values : List String)
  deriving BEq

namespace LeafTest

def kind : LeafTest → QueryKind
  | matchAll => .matchAll
  | term .. => .term
  | terms .. => .terms
  | range .. => .range
  | matchText .. => .matchText
  | matchPhrase .. => .matchPhrase
  | existsField .. => .existsField
  | multiMatch .. => .multiMatch
  | ids .. => .ids

/-- The field of a test of one field. -/
def field? : LeafTest → Option Field
  | term f _ | terms f _ | range f | matchText f _ | matchPhrase f _ | existsField f => some f
  | matchAll | multiMatch .. | ids .. => none

/-- A field tested against one value: short without options, and in full with them. -/
def fieldValue (field : Field) (key : String) (value : Value) (options : Parameters) :
    List Member :=
  if options.isEmpty then [value.member field.name]
  else [.object field.name (value.member key :: Parameters.members options)]

/-- What a leaf writes under the name of its kind. -/
def members (test : LeafTest) (options : Parameters) : List Member :=
  match test with
  | matchAll => Parameters.members options
  | term f value => fieldValue f "value" value options
  | terms f values => .array f.name (Value.items values) :: Parameters.members options
  | range f => [.object f.name (Parameters.members options)]
  | matchText f text => fieldValue f "query" text options
  | matchPhrase f phrase => fieldValue f "query" phrase options
  | existsField f => .string "field" f.name :: Parameters.members options
  | multiMatch text fields =>
    text.member "query" :: .array "fields" (fields.map fun f => .scalar (.string f.name)) ::
      Parameters.members options
  | ids values =>
    .array "values" (values.map fun id => .scalar (.string id)) :: Parameters.members options

end LeafTest

end SearchQuery
