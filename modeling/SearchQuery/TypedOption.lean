import SearchQuery.WireName

/-!
# Options with a type of their own

Everything optional about a query, a factor, a rescorer or a sort is kept in a container under a
key. The options known by name have types: a `TypedOption` belongs to one owner and has one key,
so that it cannot be given to an owner that does not know it. Any other option can be assigned to
the container directly.
-/

namespace SearchQuery

/-- The kinds of query, leaves first. -/
inductive QueryKind where
  | matchAll
  | term
  | terms
  | range
  | matchText
  | matchPhrase
  | existsField
  | multiMatch
  | ids
  | nested
  | bool
  | disMax
  | functionScore
  deriving DecidableEq, Repr

instance : WireName QueryKind where
  all := [.matchAll, .term, .terms, .range, .matchText, .matchPhrase, .existsField, .multiMatch,
    .ids, .nested, .bool, .disMax, .functionScore]
  wire
    | .matchAll => "match_all"
    | .term => "term"
    | .terms => "terms"
    | .range => "range"
    | .matchText => "match"
    | .matchPhrase => "match_phrase"
    | .existsField => "exists"
    | .multiMatch => "multi_match"
    | .ids => "ids"
    | .nested => "nested"
    | .bool => "bool"
    | .disMax => "dis_max"
    | .functionScore => "function_score"

/-- What an option container belongs to. -/
inductive OptionOwner where
  | query (kind : QueryKind)
  | factor
  | rescore
  | sort
  deriving DecidableEq, Repr

/-- An option of the given owner with its argument. -/
inductive TypedOption : OptionOwner → Type where
  | boost {kind : QueryKind} (x : Double) : TypedOption (.query kind)
  | gt (bound : Value) : TypedOption (.query .range)
  | gte (bound : Value) : TypedOption (.query .range)
  | lt (bound : Value) : TypedOption (.query .range)
  | lte (bound : Value) : TypedOption (.query .range)
  /-- The date format of bounds that are strings. -/
  | format (pattern : String) : TypedOption (.query .range)
  | matchOperator (operator : Operator) : TypedOption (.query .matchText)
  | matchAnalyzer (name : String) : TypedOption (.query .matchText)
  | fuzziness (value : Value) : TypedOption (.query .matchText)
  | slop (words : UInt32) : TypedOption (.query .matchPhrase)
  | phraseAnalyzer (name : String) : TypedOption (.query .matchPhrase)
  | multiMatchType (type : MultiMatchType) : TypedOption (.query .multiMatch)
  | multiMatchOperator (operator : Operator) : TypedOption (.query .multiMatch)
  | multiMatchTieBreaker (x : Double) : TypedOption (.query .multiMatch)
  | nestedScoreMode (mode : NestedScoreMode) : TypedOption (.query .nested)
  | ignoreUnmapped (ignore : Bool) : TypedOption (.query .nested)
  | maxBoost (x : Double) : TypedOption (.query .functionScore)
  | factor (x : Double) : TypedOption .factor
  | modifier (modifier : Modifier) : TypedOption .factor
  /-- The value of documents without the field. -/
  | factorMissing (x : Double) : TypedOption .factor
  | queryWeight (x : Double) : TypedOption .rescore
  | rescoreQueryWeight (x : Double) : TypedOption .rescore
  | rescoreMode (mode : RescoreMode) : TypedOption .rescore
  | order (order : SortOrder) : TypedOption .sort
  | sortMode (mode : SortMode) : TypedOption .sort
  /-- `"_last"`, `"_first"` or a value to use instead. -/
  | sortMissing (value : Value) : TypedOption .sort
  | unmappedType (name : String) : TypedOption .sort

namespace TypedOption

/-- The key of an option and the value it is stored as. -/
def entry {owner : OptionOwner} : TypedOption owner → String × Value
  | boost x => ("boost", toValue x)
  | gt bound => ("gt", bound)
  | gte bound => ("gte", bound)
  | lt bound => ("lt", bound)
  | lte bound => ("lte", bound)
  | format pattern => ("format", toValue pattern)
  | matchOperator operator => ("operator", toValue operator)
  | matchAnalyzer name => ("analyzer", toValue name)
  | fuzziness value => ("fuzziness", value)
  | slop words => ("slop", toValue words)
  | phraseAnalyzer name => ("analyzer", toValue name)
  | multiMatchType type => ("type", toValue type)
  | multiMatchOperator operator => ("operator", toValue operator)
  | multiMatchTieBreaker x => ("tie_breaker", toValue x)
  | nestedScoreMode mode => ("score_mode", toValue mode)
  | ignoreUnmapped ignore => ("ignore_unmapped", toValue ignore)
  | maxBoost x => ("max_boost", toValue x)
  | factor x => ("factor", toValue x)
  | modifier m => ("modifier", toValue m)
  | factorMissing x => ("missing", toValue x)
  | queryWeight x => ("query_weight", toValue x)
  | rescoreQueryWeight x => ("rescore_query_weight", toValue x)
  | rescoreMode mode => ("score_mode", toValue mode)
  | order o => ("order", toValue o)
  | sortMode mode => ("mode", toValue mode)
  | sortMissing value => ("missing", value)
  | unmappedType name => ("unmapped_type", toValue name)

end TypedOption

namespace Parameters

/-- Assigns a typed option. -/
def withOption {owner : OptionOwner} (p : Parameters) (o : TypedOption owner) : Parameters :=
  assign p o.entry.1 o.entry.2

/-- The container that typed options given in order build up. -/
def ofOptions {owner : OptionOwner} (options : List (TypedOption owner)) : Parameters :=
  options.foldl withOption OrderedMap.empty

end Parameters

end SearchQuery
