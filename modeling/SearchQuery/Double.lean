/-!
# Binary64 data

Queries carry floating-point numbers, and all this library does with them is keep them, compare
them and spell them. A `Double` is therefore the 64-bit interchange pattern itself: the sign, an
exponent field and a fraction field. Comparison is the comparison of IEEE 754 (a NaN differs from
everything, the two zeros are equal), stated on the pattern, so that it can be reasoned about.
-/

namespace SearchQuery

/-- A binary64 datum, given by its interchange pattern. -/
structure Double where
  bits : UInt64
  deriving DecidableEq, Inhabited

namespace Double

/-! ## 1. The fields of the pattern -/

/-- The sign bit is set. It is also set on `-0.0`, and it may be set on a NaN. -/
def isNegative (x : Double) : Bool := x.bits >>> 63 == 1

/-- The pattern without its sign bit. -/
def magnitudeBits (x : Double) : UInt64 := x.bits &&& 0x7fffffffffffffff

/-- The biased exponent, all ones (2047) for infinities and NaNs. -/
def exponentField (x : Double) : Nat := (x.magnitudeBits >>> 52).toNat

/-- The 52 stored bits of the significand. -/
def fractionField (x : Double) : Nat := (x.bits &&& 0x000fffffffffffff).toNat

def isFinite (x : Double) : Bool := x.magnitudeBits < 0x7ff0000000000000

def isNaN (x : Double) : Bool := 0x7ff0000000000000 < x.magnitudeBits

/-- Either zero. -/
def isZero (x : Double) : Bool := x.magnitudeBits == 0

/-- The significand as an integer: a finite datum has the magnitude
`significand * 2 ^ exponent`. -/
def significand (x : Double) : Nat :=
  if x.exponentField = 0 then x.fractionField else Nat.pow 2 52 + x.fractionField

/-- The power of two of one unit of the significand. -/
def exponent (x : Double) : Int :=
  if x.exponentField = 0 then -1074 else (x.exponentField : Int) - 1075

/-! ## 2. Comparison -/

/-- IEEE equality: no NaN equals anything, the two zeros are equal, and otherwise the patterns
decide. -/
def beq (x y : Double) : Bool :=
  !x.isNaN && !y.isNaN && (x.bits == y.bits || (x.isZero && y.isZero))

instance : BEq Double := ⟨beq⟩

theorem beq_def (x y : Double) :
    (x == y) = (!x.isNaN && !y.isNaN && (x.bits == y.bits || (x.isZero && y.isZero))) := rfl

/-- A datum equals itself exactly when it is not a NaN. -/
theorem beq_self (x : Double) : (x == x) = !x.isNaN := by
  simp [beq_def]

theorem beq_comm (x y : Double) : (x == y) = (y == x) := by
  simp only [beq_def, Bool.and_comm x.isZero, Bool.and_comm (!x.isNaN),
    Bool.beq_eq_decide_eq, eq_comm]

/-! ## 3. Special data -/

/-- The datum with the given sign and magnitude pattern. -/
def ofMagnitudeBits (negative : Bool) (magnitude : UInt64) : Double :=
  ⟨if negative then magnitude ||| 0x8000000000000000 else magnitude⟩

def zero (negative : Bool) : Double := ofMagnitudeBits negative 0

def infinity (negative : Bool) : Double := ofMagnitudeBits negative 0x7ff0000000000000

def nan : Double := ⟨0x7ff8000000000000⟩

end Double

end SearchQuery
