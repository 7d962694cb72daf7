import SearchQuery.Double.Shortest

/-!
# Spelling a number

The digits of a number are `Double.shortest`; how they are laid out is one `NumberStyle` per
output. The styles themselves stand with the outputs that use them.
-/

namespace SearchQuery

/-- How the digits of a finite number are laid out. -/
structure NumberStyle where
  /-- The positions of the leading digit that are written without an exponent; all of them when
  absent. -/
  plain : Option (Int × Int)
  /-- A whole number keeps a fractional part, `.0`. -/
  fractional : Bool
  tie : Tie

namespace NumberStyle

/-- Digits as characters. -/
def digitText (digits : List Nat) : String :=
  String.ofList (digits.map Nat.digitChar)

/-- Positional notation: zeros fill the places between the digits and the point. -/
def plainText (style : NumberStyle) (d : Decimal) : String :=
  if d.position < 0 then
    "0." ++ digitText (List.replicate ((-d.position).toNat - 1) 0 ++ d.digits)
  else
    let whole := d.position.toNat + 1
    let padded := d.digits ++ List.replicate (whole - d.digits.length) 0
    let fraction := padded.drop whole
    digitText (padded.take whole) ++
      if fraction.isEmpty then (if style.fractional then ".0" else "")
      else "." ++ digitText fraction

/-- Scientific notation: one digit before the point, no point after a single digit, and a sign on
every exponent. -/
def scientificText (d : Decimal) : String :=
  let mantissa := match d.digits with
    | [] => ""
    | [first] => digitText [first]
    | first :: rest => digitText [first] ++ "." ++ digitText rest
  mantissa ++ "e" ++ (if d.position < 0 then "-" else "+") ++ toString d.position.natAbs

/-- The text of a finite number. -/
def spell (style : NumberStyle) (x : Double) : String :=
  let d := x.shortest style.tie
  let positional := match style.plain with
    | none => true
    | some (least, greatest) => least ≤ d.position && d.position ≤ greatest
  (if x.isNegative then "-" else "") ++
    if positional then style.plainText d else scientificText d

/-- The text of any number: the words for the special data, digits otherwise. -/
def text (style : NumberStyle) (x : Double) : String :=
  if x.isNaN then "NaN"
  else if x.isFinite then style.spell x
  else if x.isNegative then "-inf" else "inf"

end NumberStyle

end SearchQuery
