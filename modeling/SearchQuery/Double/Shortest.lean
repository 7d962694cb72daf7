import SearchQuery.Double

/-!
# The fewest digits that read back

The numbers nearest to one finite datum form an interval around it, ends included when the
significand is even. Its shortest digits are those of the coarsest decimal grid that has a point
inside the interval, and of the grid points inside, the one nearest to the datum. Only the two grid
points around the datum need a look: if any point of a grid lies inside, one of these does. All
comparisons are between natural numbers over a common denominator.
-/

namespace SearchQuery

/-- Decimal digits with the position of the leading one: the digits `d₀ d₁ d₂ …` at position `k`
stand for `d₀.d₁d₂… * 10 ^ k`. -/
structure Decimal where
  digits : List Nat
  position : Int
  deriving DecidableEq, Repr

/-- Where an exact tie between two equally short numerals goes. -/
inductive Tie where
  | toEven
  | up
  deriving DecidableEq, Repr

namespace Double

/-- A datum and the ends of the interval that rounds to it, as numerators over one denominator. -/
structure Interval where
  lower : Nat
  value : Nat
  upper : Nat
  denominator : Nat
  closed : Bool

/-- The interval of a positive finite datum. In units of a quarter of the significand's last place
the value is `4m`; the upper end is two units off, and so is the lower one, except at a power of
two, where the numbers below lie twice as close. -/
def interval (x : Double) : Interval :=
  let m := x.significand
  let below := if m = Nat.pow 2 52 ∧ 1 < x.exponentField then 1 else 2
  let (scale, denominator) :=
    if x.exponent < 0 then (1, 4 * Nat.pow 2 (-x.exponent).toNat)
    else (Nat.pow 2 x.exponent.toNat, 4)
  { lower := (4 * m - below) * scale
    value := 4 * m * scale
    upper := (4 * m + 2) * scale
    denominator
    closed := m % 2 = 0 }

namespace Interval

/-- The interval in units of `10 ^ exponent`. -/
def rescale (i : Interval) (exponent : Int) : Interval :=
  if exponent < 0 then
    let f := Nat.pow 10 (-exponent).toNat
    { i with lower := i.lower * f, value := i.value * f, upper := i.upper * f }
  else { i with denominator := i.denominator * Nat.pow 10 exponent.toNat }

/-- The integer `n` lies inside. -/
def contains (i : Interval) (n : Nat) : Bool :=
  let p := n * i.denominator
  if i.closed then i.lower ≤ p && p ≤ i.upper else i.lower < p && p < i.upper

/-- The integer inside that is nearest to the value, of the two around it. -/
def nearestInside (i : Interval) (tie : Tie) : Option Nat :=
  let down := i.value / i.denominator
  let up := down + 1
  match i.contains down, i.contains up with
  | false, false => none
  | true, false => some down
  | false, true => some up
  | true, true =>
    let toDown := i.value - down * i.denominator
    let toUp := up * i.denominator - i.value
    if toDown < toUp then some down
    else if toUp < toDown then some up
    else match tie with
      | .toEven => some (if down % 2 = 0 then down else up)
      | .up => some up

end Interval

/-- The position of the leading digit of the positive ratio `num / den`: the first position from
`guess` down at which the ratio reaches a unit. -/
def leadingPosition (num den : Nat) : Nat → Int → Int
  | 0, guess => guess
  | fuel + 1, guess =>
    let reached :=
      if guess < 0 then den ≤ num * Nat.pow 10 (-guess).toNat
      else den * Nat.pow 10 guess.toNat ≤ num
    if reached then guess else leadingPosition num den fuel (guess - 1)

/-- The position of the leading digit of a positive finite datum. The two integer logarithms place
its binary logarithm between two integers two apart; a little over the common logarithm of two times
the upper one, plus one, is a guess that is never too low and at most a few places too high. -/
def leadingDigit (i : Interval) : Int :=
  let log2 : Int := (i.value.log2 : Int) - i.denominator.log2
  let guess := (log2 + 1) * 30103 / 100000 + 1
  leadingPosition i.value i.denominator 8 guess

/-- Digits of a natural number, most significant first, without the zeros at its end. -/
def trimmedDigits (n : Nat) : List Nat :=
  ((Nat.toDigits 10 n).map fun c => c.toNat - '0'.toNat).reverse.dropWhile (· == 0) |>.reverse

/-- The grids of `count`, `count + 1`, … digits, `fuel` of them, searched for a point inside. -/
def searchGrids (i : Interval) (lead : Int) (tie : Tie) : Nat → Nat → Nat × Int
  | 0, count => (0, lead - count + 1)
  | fuel + 1, count =>
    let unit := lead - count + 1
    match (i.rescale unit).nearestInside tie with
    | some n => (n, unit)
    | none => searchGrids i lead tie fuel (count + 1)

/-- The shortest digits of a finite datum. Seventeen always suffice; zero has the single digit
`0`. -/
def shortest (x : Double) (tie : Tie) : Decimal :=
  if x.isZero then ⟨[0], 0⟩
  else
    let i := x.interval
    let (n, unit) := searchGrids i (leadingDigit i) tie 17 1
    ⟨trimmedDigits n, unit + ((Nat.toDigits 10 n).length : Int) - 1⟩

end Double

end SearchQuery
