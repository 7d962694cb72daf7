import SearchQuery.Double

/-!
# Rounding a ratio to a binary format

A decimal numeral and an integer are both ratios of natural numbers. `BinaryFormat.nearest` rounds
such a ratio to a binary format, to nearest with ties to the even significand, in exact integer
arithmetic: it fixes the unit of the result first and then rounds one quotient once.
-/

namespace SearchQuery

/-- A binary format: the bits of a significand, and the powers of two of its smallest and its
largest unit. -/
structure BinaryFormat where
  precision : Nat
  minExponent : Int
  maxExponent : Int

namespace BinaryFormat

def binary64 : BinaryFormat := ⟨53, -1074, 971⟩

def binary32 : BinaryFormat := ⟨24, -149, 104⟩

/-- The quotient `num / den` rounded to the nearest integer, a tie to the even one. -/
def roundQuotient (num den : Nat) : Nat :=
  let q := num / den
  let r := num % den
  if 2 * r < den then q else if den < 2 * r then q + 1 else q + q % 2

/-- `num / (den * 2 ^ exponent)` as a ratio of natural numbers. -/
def scaled (num den : Nat) (exponent : Int) : Nat × Nat :=
  if exponent < 0 then (num * Nat.pow 2 (-exponent).toNat, den)
  else (num, den * Nat.pow 2 exponent.toNat)

/-- The power of two of the unit in which `num / den` has `precision` bits, but no smaller than
the format's smallest unit. The two binary logarithms place the ratio within a factor of two
on either side, and one comparison decides between the two units that are left. -/
def unitOf (fmt : BinaryFormat) (num den : Nat) : Int :=
  let estimate := (num.log2 : Int) - den.log2 - fmt.precision
  let (n, d) := scaled num den estimate
  let exact := if Nat.pow 2 fmt.precision ≤ n / d then estimate + 1 else estimate
  max exact fmt.minExponent

/-- The nearest number of the format to `num / den`, as a significand and the power of two of its
unit; `none` when the result is beyond the largest finite number. -/
def nearest (fmt : BinaryFormat) (num den : Nat) : Option (Nat × Int) :=
  if num = 0 then some (0, fmt.minExponent)
  else
    let unit := fmt.unitOf num den
    let (n, d) := scaled num den unit
    let significand := roundQuotient n d
    let result : Nat × Int :=
      if significand = Nat.pow 2 fmt.precision then (Nat.pow 2 (fmt.precision - 1), unit + 1)
      else (significand, unit)
    if result.2 ≤ fmt.maxExponent then some result else none

end BinaryFormat

namespace Double

/-- The datum of a significand below `2 ^ 53` in units of `2 ^ exponent`, where a significand
below `2 ^ 52` is in the smallest unit. -/
def encode (negative : Bool) (significand : Nat) (exponent : Int) : Double :=
  ofMagnitudeBits negative <|
    if significand < Nat.pow 2 52 then UInt64.ofNat significand
    else UInt64.ofNat ((exponent + 1075).toNat * Nat.pow 2 52 + (significand - Nat.pow 2 52))

/-- The nearest datum to `num / den`, an infinity beyond the largest finite one. -/
def ofRatio (negative : Bool) (num den : Nat) : Double :=
  match BinaryFormat.binary64.nearest num den with
  | some (significand, exponent) => encode negative significand exponent
  | none => infinity negative

/-- The nearest datum to a natural number. -/
def ofNat (n : Nat) : Double := ofRatio false n 1

/-- The nearest binary32 number to `num / den`, as a datum. Every binary32 number is a binary64
number, so the second rounding is exact. -/
def ofRatioSingle (negative : Bool) (num den : Nat) : Double :=
  match BinaryFormat.binary32.nearest num den with
  | some (significand, exponent) =>
    let (n, d) := BinaryFormat.scaled significand 1 (-exponent)
    ofRatio negative n d
  | none => infinity negative

/-- The datum that `significand` units of `2 ^ exponent` make up, as a ratio. -/
def ratio (x : Double) : Nat × Nat := BinaryFormat.scaled x.significand 1 (-x.exponent)

end Double

end SearchQuery
