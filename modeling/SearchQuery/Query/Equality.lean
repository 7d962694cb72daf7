import SearchQuery.Query

/-!
# Equality of queries

Two queries are equal when their topmost levels agree and their direct sub-queries are equal one by
one. Levels agree when they are of one kind with as many sub-queries in every place and with equal
settings: numbers are compared as IEEE data, options without regard to their order, handles by
identity. A node is never equal to the query it stands for.
-/

namespace SearchQuery

variable {α β : Type}

namespace ScoreFunction

/-- The functions agree in all but what their filters are. -/
def agrees (s : ScoreFunction α) (t : ScoreFunction β) : Bool :=
  s.filter.isSome == t.filter.isSome && s.weight == t.weight && s.kind == t.kind

/-- As many functions, agreeing one by one. -/
def agreeAll : List (ScoreFunction α) → List (ScoreFunction β) → Bool
  | [], [] => true
  | s :: ss, t :: ts => agrees s t && agreeAll ss ts
  | _, _ => false

end ScoreFunction

namespace Compound

/-- The bodies agree in all but what their sub-queries are. -/
def agrees : Compound α → Compound β → Bool
  | bool b, bool c =>
    b.filter.length == c.filter.length && b.should.length == c.should.length &&
      b.must.length == c.must.length && b.mustNot.length == c.mustNot.length &&
      b.minimumShouldMatch == c.minimumShouldMatch
  | disMax b, disMax c =>
    b.queries.length == c.queries.length && b.tieBreaker == c.tieBreaker
  | functionScore b, functionScore c =>
    b.query.isSome == c.query.isSome && ScoreFunction.agreeAll b.functions c.functions &&
      b.scoreMode == c.scoreMode && b.boostMode == c.boostMode && b.minScore == c.minScore
  | _, _ => false

end Compound

namespace BoundNode

/-- The handles are equal and so are the settings that do not belong to the body. -/
def agrees : BoundNode α → BoundNode β → Bool
  | bool h n, bool k m =>
    h == k && n.boost == m.boost && (Compound.bool n.body).agrees (.bool m.body)
  | disMax h n, disMax k m =>
    h == k && n.boost == m.boost && (Compound.disMax n.body).agrees (.disMax m.body)
  | functionScore h n, functionScore k m =>
    h == k && n.boost == m.boost && n.maxBoost == m.maxBoost &&
      (Compound.functionScore n.body).agrees (.functionScore m.body)
  | _, _ => false

end BoundNode

namespace Form

/-- The levels agree in all but what their sub-queries are. -/
def agrees : Form α → Form β → Bool
  | leaf t options, leaf t' options' => t == t' && options == options'
  | nested path _ options, nested path' _ options' => path == path' && options == options'
  | compound b options, compound b' options' => b.agrees b' && options == options'
  | node n, node m => n.agrees m
  | _, _ => false

end Form

namespace Query

/-- Equality of queries. -/
def beq (a b : Query) : Bool :=
  a.form.agrees b.form &&
    (a.children.attach.zip b.children).all fun pair => beq pair.1.1 pair.2
termination_by sizeOf a
decreasing_by exact sizeOf_lt_of_mem_children pair.1.2

instance : BEq Query := ⟨beq⟩

end Query

/-- Score functions are equal when they agree and so do their filters. -/
instance : BEq (ScoreFunction Query) := ⟨fun s t => s.agrees t && s.filter == t.filter⟩

end SearchQuery
