import SearchQuery.Double.Numeral
import SearchQuery.Json.ReadError

/-!
# Numbers in JSON text

An integer that fits a 64-bit word is read as an integer. Any other number is read as a float from
the leading digits that fit a word, scaled by powers of ten: each scaling rounds, so the result can
be a last place away from the nearest float. A number beyond the largest finite float is refused.
-/

namespace SearchQuery

/-- A number as it was read. -/
inductive JsonNumber where
  | integer (n : Int)
  | float (x : Double)

namespace JsonNumber

/-! ## 1. Scaling -/

/-- The product of two finite data without their signs, rounded. -/
def times (x y : Double) : Double :=
  let (n, d) := x.ratio
  let (m, e) := y.ratio
  Double.ofRatio false (n * m) (d * e)

/-- The quotient of two finite data without their signs, rounded. -/
def dividedBy (x y : Double) : Double :=
  let (n, d) := x.ratio
  let (m, e) := y.ratio
  Double.ofRatio false (n * e) (d * m)

/-- Scales by a power of ten. Exponents below the range of the powers are taken off in steps of
308; a product beyond the largest finite float is refused. -/
def scale (x : Double) (exponent : Int) : Option Double :=
  if h : exponent < -308 then
    if x.isZero then some x
    else scale (dividedBy x (Double.ofNat (Nat.pow 10 308))) (exponent + 308)
  else if exponent < 0 then some (dividedBy x (Double.ofNat (Nat.pow 10 (-exponent).toNat)))
  else if 308 < exponent then if x.isZero then some x else none
  else
    let y := times x (Double.ofNat (Nat.pow 10 exponent.toNat))
    if y.isFinite then some y else none
termination_by (-exponent).toNat

/-! ## 2. Digits -/

/-- The largest 64-bit word. -/
def maxWord : Nat := Nat.pow 2 64 - 1

/-- The value of the leading digits that fit a word, and how many digits were left out. -/
def leadingWord (significand : Nat) : List Char → Nat × Nat
  | [] => (significand, 0)
  | c :: rest =>
    let next := 10 * significand + (c.toNat - '0'.toNat)
    if next ≤ maxWord then leadingWord next rest else (significand, rest.length + 1)

/-- The parts of a number: whole digits, the digits after a point, and an exponent. -/
structure Parts where
  negative : Bool
  whole : List Char
  fraction : Option (List Char)
  exponent : Option Int

/-- The value of a number; `none` beyond the largest finite float. -/
def ofParts? (p : Parts) : Option JsonNumber :=
  let (significand, left) := leadingWord 0 p.whole
  if p.fraction.isNone && p.exponent.isNone && left = 0 && !p.negative then
    some (.integer significand)
  else if p.fraction.isNone && p.exponent.isNone && left = 0 && 0 < significand &&
      significand ≤ Nat.pow 2 63 then
    some (.integer (-significand))
  else
    let fraction := p.fraction.getD []
    let (significand, leftFraction) := leadingWord significand fraction
    let used : Int := (fraction.length : Int) - leftFraction
    let exponent := (left : Int) - used + p.exponent.getD 0
    (scale (Double.ofNat significand) exponent).map fun x =>
      .float (if p.negative then ⟨x.bits ||| 0x8000000000000000⟩ else x)

/-! ## 3. Reading -/

/-- At least one digit and the rest. -/
def readDigits (text : List Char) : Except ReadError (List Char × List Char) :=
  match text with
  | [] => .error .truncated
  | c :: _ =>
    if c.isDigit then .ok (text.takeWhile Char.isDigit, text.dropWhile Char.isDigit)
    else .error .malformed

/-- The digits before the point: a leading zero stands alone. -/
def readWhole (text : List Char) : Except ReadError (List Char × List Char) := do
  let (digits, rest) ← readDigits text
  if 1 < digits.length && digits.head? = some '0' then .error .malformed
  else .ok (digits, rest)

/-- The digits after a point, if there is one. -/
def readFraction : List Char → Except ReadError (Option (List Char) × List Char)
  | '.' :: rest => do
    let (digits, rest) ← readDigits rest
    return (some digits, rest)
  | text => .ok (none, text)

/-- The exponent, if there is one. -/
def readExponent (text : List Char) : Except ReadError (Option Int × List Char) :=
  match text with
  | c :: rest =>
    if c = 'e' ∨ c = 'E' then do
      let (negative, rest) := Numeral.splitSign rest
      let (digits, rest) ← readDigits rest
      let n : Int := Numeral.valueOf digits
      return (some (if negative then -n else n), rest)
    else .ok (none, text)
  | [] => .ok (none, [])

/-- A number at the head of a text that starts with a digit or a minus, and the rest. -/
def read (text : List Char) : Except ReadError (JsonNumber × List Char) := do
  let (negative, body) := match text with
    | '-' :: rest => (true, rest)
    | _ => (false, text)
  let (whole, rest) ← readWhole body
  let (fraction, rest) ← readFraction rest
  let (exponent, rest) ← readExponent rest
  match ofParts? ⟨negative, whole, fraction, exponent⟩ with
  | some n => return (n, rest)
  | none => .error .malformed

/-- What a number is called in a message. -/
def found : JsonNumber → Found
  | integer n => .integer n
  | float x => .float x

end JsonNumber

end SearchQuery
