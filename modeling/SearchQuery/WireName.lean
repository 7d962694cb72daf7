import SearchQuery.Value

/-!
# Options with fixed spellings

Many options take one of a few words. Each such option is a type with its words, and a word is read
back by looking it up among them. As a value, such an option is the string of its word.
-/

namespace SearchQuery

/-- A finite type whose members have fixed spellings. -/
class WireName (α : Type) where
  /-- All members, in the order in which a message lists them. -/
  all : List α
  /-- The spelling of a member. -/
  wire : α → String

namespace WireName

variable {α : Type} [WireName α]

/-- The member with the given spelling. -/
def ofWire? (word : String) : Option α := (all : List α).find? fun a => wire a = word

instance : ToValue α := ⟨fun a => .string (wire a)⟩

end WireName

/-- How the scores of several functions are combined with each other. -/
inductive ScoreMode where
  | multiply
  | sum
  | avg
  | first
  | max
  | min
  deriving DecidableEq, Repr

instance : WireName ScoreMode where
  all := [.multiply, .sum, .avg, .first, .max, .min]
  wire
    | .multiply => "multiply"
    | .sum => "sum"
    | .avg => "avg"
    | .first => "first"
    | .max => "max"
    | .min => "min"

/-- How the combined function score is merged with the score of the query. -/
inductive BoostMode where
  | multiply
  | replace
  | sum
  | avg
  | max
  | min
  deriving DecidableEq, Repr

instance : WireName BoostMode where
  all := [.multiply, .replace, .sum, .avg, .max, .min]
  wire
    | .multiply => "multiply"
    | .replace => "replace"
    | .sum => "sum"
    | .avg => "avg"
    | .max => "max"
    | .min => "min"

/-- What is applied to a field's value before it becomes a factor. -/
inductive Modifier where
  | none
  | log
  | log1p
  | log2p
  | ln
  | ln1p
  | ln2p
  | square
  | sqrt
  | reciprocal
  deriving DecidableEq, Repr

instance : WireName Modifier where
  all := [.none, .log, .log1p, .log2p, .ln, .ln1p, .ln2p, .square, .sqrt, .reciprocal]
  wire
    | .none => "none"
    | .log => "log"
    | .log1p => "log1p"
    | .log2p => "log2p"
    | .ln => "ln"
    | .ln1p => "ln1p"
    | .ln2p => "ln2p"
    | .square => "square"
    | .sqrt => "sqrt"
    | .reciprocal => "reciprocal"

/-- Whether all words of a text or any of them must match. -/
inductive Operator where
  | and
  | or
  deriving DecidableEq, Repr

instance : WireName Operator where
  all := [.and, .or]
  wire
    | .and => "and"
    | .or => "or"

/-- How a match over several fields is carried out. -/
inductive MultiMatchType where
  | bestFields
  | mostFields
  | crossFields
  | phrase
  | phrasePrefix
  | boolPrefix
  deriving DecidableEq, Repr

instance : WireName MultiMatchType where
  all := [.bestFields, .mostFields, .crossFields, .phrase, .phrasePrefix, .boolPrefix]
  wire
    | .bestFields => "best_fields"
    | .mostFields => "most_fields"
    | .crossFields => "cross_fields"
    | .phrase => "phrase"
    | .phrasePrefix => "phrase_prefix"
    | .boolPrefix => "bool_prefix"

/-- The direction of a sort. -/
inductive SortOrder where
  | asc
  | desc
  deriving DecidableEq, Repr

instance : WireName SortOrder where
  all := [.asc, .desc]
  wire
    | .asc => "asc"
    | .desc => "desc"

/-- Which value of a field with several values a sort uses. -/
inductive SortMode where
  | min
  | max
  | sum
  | avg
  | median
  deriving DecidableEq, Repr

instance : WireName SortMode where
  all := [.min, .max, .sum, .avg, .median]
  wire
    | .min => "min"
    | .max => "max"
    | .sum => "sum"
    | .avg => "avg"
    | .median => "median"

/-- The type of the keys that a sort script computes. -/
inductive ScriptSortType where
  | number
  | string
  deriving DecidableEq, Repr

instance : WireName ScriptSortType where
  all := [.number, .string]
  wire
    | .number => "number"
    | .string => "string"

/-- How the first score and the rescore score are combined. -/
inductive RescoreMode where
  | total
  | multiply
  | avg
  | max
  | min
  deriving DecidableEq, Repr

instance : WireName RescoreMode where
  all := [.total, .multiply, .avg, .max, .min]
  wire
    | .total => "total"
    | .multiply => "multiply"
    | .avg => "avg"
    | .max => "max"
    | .min => "min"

/-- How the scores of matching nested objects count for their parent. -/
inductive NestedScoreMode where
  | avg
  | sum
  | min
  | max
  | none
  deriving DecidableEq, Repr

instance : WireName NestedScoreMode where
  all := [.avg, .sum, .min, .max, .none]
  wire
    | .avg => "avg"
    | .sum => "sum"
    | .min => "min"
    | .max => "max"
    | .none => "none"

/-- How a search is spread over the shards. -/
inductive SearchType where
  | queryThenFetch
  | dfsQueryThenFetch
  deriving DecidableEq, Repr

instance : WireName SearchType where
  all := [.queryThenFetch, .dfsQueryThenFetch]
  wire
    | .queryThenFetch => "query_then_fetch"
    | .dfsQueryThenFetch => "dfs_query_then_fetch"

end SearchQuery
