import SearchQuery.Json.Reader

/-!
# Request defaults

Values that an application sets once for all of its requests, kept in its configuration as JSON.
-/

namespace SearchQuery

/-- What a request takes over where it sets nothing itself. -/
structure SearchDefaults where
  size : Option UInt64 := none
  trackTotalHits : Option Bool := none
  searchType : Option SearchType := none
  /-- The time that the engine may spend, such as `2s`. -/
  timeout : Option String := none
  preference : Option String := none
  deriving DecidableEq

namespace SearchDefaults

/-- The fields as they stand in a configuration. -/
def fields : List (JsonReader.RecordField SearchDefaults) :=
  [.of "size" (.optional .word64) fun d size => { d with size },
    .of "track_total_hits" (.optional .boolean) fun d trackTotalHits => { d with trackTotalHits },
    .of "search_type" (.optional .wireName) fun d searchType => { d with searchType },
    .of "timeout" (.optional (.string "a string")) fun d timeout => { d with timeout },
    .of "preference" (.optional (.string "a string")) fun d preference => { d with preference }]

/-- Reads a configuration. -/
def read (text : String) : Except ReadError SearchDefaults :=
  JsonReader.readAll (.record "struct SearchDefaults" fields {}) text

end SearchDefaults

end SearchQuery
