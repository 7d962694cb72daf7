import SearchQuery.Double.Rounding

/-!
# Reading numerals

A numeral is a sign, digits with an optional point, and an optional exponent, or one of the words
for the special data. It is read as an exact ratio and rounded once, so the result is the nearest
number of the chosen format.
-/

namespace SearchQuery

/-- A decimal numeral: `± digits * 10 ^ exponent`. -/
structure Numeral where
  negative : Bool
  digits : Nat
  exponent : Int
  deriving DecidableEq, Repr

namespace Numeral

/-- The value of decimal digits. -/
def valueOf (digits : List Char) : Nat :=
  digits.foldl (fun n c => 10 * n + (c.toNat - '0'.toNat)) 0

/-- A sign at the head of a text: whether it is a minus, and the rest. -/
def splitSign : List Char → Bool × List Char
  | '-' :: rest => (true, rest)
  | '+' :: rest => (false, rest)
  | rest => (false, rest)

/-- The exponent part: nothing, or the letter `e` with an optional sign and at least one digit. -/
def readExponent : List Char → Option Int
  | [] => some 0
  | c :: rest =>
    if c = 'e' ∨ c = 'E' then
      let (negative, digits) := splitSign rest
      if digits.isEmpty || !digits.all Char.isDigit then none
      else some (if negative then -(valueOf digits : Int) else valueOf digits)
    else none

/-- The fraction digits after a point, if there is one, and the rest. -/
def splitFraction : List Char → List Char × List Char
  | '.' :: rest => (rest.takeWhile Char.isDigit, rest.dropWhile Char.isDigit)
  | rest => ([], rest)

/-- Reads a numeral; at least one digit stands before or after the point. -/
def ofChars? (text : List Char) : Option Numeral := do
  let (negative, body) := splitSign text
  let whole := body.takeWhile Char.isDigit
  let (fraction, rest) := splitFraction (body.dropWhile Char.isDigit)
  if whole.isEmpty && fraction.isEmpty then none
  else
    let exponent ← readExponent rest
    some ⟨negative, valueOf (whole ++ fraction), exponent - fraction.length⟩

/-- The numeral's magnitude as a ratio, or which side of every finite number it lies on: a
numeral with more than 400 places before the point is beyond the largest number, and one whose
first digit stands more than 400 places after it is nearest to zero. -/
inductive Size where
  | tiny
  | huge
  | ratio (num den : Nat)
  deriving Repr

def size (n : Numeral) : Size :=
  let places : Int := ((Nat.toDigits 10 n.digits).length : Int) + n.exponent
  if n.digits = 0 ∨ places < -400 then .tiny
  else if 400 < places then .huge
  else if n.exponent < 0 then .ratio n.digits (Nat.pow 10 (-n.exponent).toNat)
  else .ratio (n.digits * Nat.pow 10 n.exponent.toNat) 1

/-- The nearest binary64 datum. -/
def toDouble (n : Numeral) : Double :=
  match n.size with
  | .tiny => Double.zero n.negative
  | .huge => Double.infinity n.negative
  | .ratio num den => Double.ofRatio n.negative num den

/-- The nearest binary32 number, as a datum. -/
def toSingle (n : Numeral) : Double :=
  match n.size with
  | .tiny => Double.zero n.negative
  | .huge => Double.infinity n.negative
  | .ratio num den => Double.ofRatioSingle n.negative num den

end Numeral

namespace Double

/-- Special data by their words, in any case. -/
def ofWord? (text : List Char) : Option Double :=
  let (negative, body) := Numeral.splitSign text
  let word := String.ofList (body.map Char.toLower)
  if word = "inf" ∨ word = "infinity" then some (infinity negative)
  else if word = "nan" then some nan
  else none

/-- Reads a number, rounding to binary64. -/
def read? (text : String) : Option Double :=
  (Numeral.ofChars? text.toList).map Numeral.toDouble <|> ofWord? text.toList

/-- Reads a number, rounding to binary32. -/
def readSingle? (text : String) : Option Double :=
  (Numeral.ofChars? text.toList).map Numeral.toSingle <|> ofWord? text.toList

end Double

end SearchQuery
