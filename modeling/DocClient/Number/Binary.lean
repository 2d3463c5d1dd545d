import DocClient.Number.Digits
import DocClient.Number.Power

/-!
Binary floating-point numbers as exact dyadic fractions. A finite number is
`± significand · 2 ^ exponent`; rounding a fraction to the nearest such number, ties to the even
significand, is done in exact natural-number arithmetic.
-/
namespace DocClient

/-- The finite numbers of a binary format: significands below `2 ^ precision`, exponents from
`minExponent` to `maxExponent`. -/
structure BinaryFormat where
  precision : Nat
  minExponent : Int
  maxExponent : Int
  deriving DecidableEq, Repr

namespace BinaryFormat

def double : BinaryFormat := ⟨53, -1074, 971⟩

def single : BinaryFormat := ⟨24, -149, 104⟩

/-- `numerator / denominator` as a fraction `a / b` of `2 ^ exponent`. -/
def scaled (numerator denominator : Nat) (exponent : Int) : Nat × Nat :=
  (numerator * pow2 (-exponent).toNat, denominator * pow2 exponent.toNat)

/-- The quotient to the nearest whole number, a half to the even neighbour. -/
def roundDiv (a b : Nat) : Nat :=
  let q := a / b
  let twice := 2 * (a % b)
  if twice < b then q
  else if twice > b then q + 1
  else if q % 2 = 0 then q else q + 1

/-- The least exponent of the format at which the integer part of the fraction fits. -/
def exponentFor (f : BinaryFormat) (numerator denominator : Nat) : Int :=
  let guess := max f.minExponent
    ((Nat.log2 numerator : Int) - (Nat.log2 denominator : Int) - (f.precision : Int))
  let (a, b) := scaled numerator denominator guess
  if a / b < pow2 f.precision then guess else guess + 1

/-- The nearest significand and exponent of a positive fraction, `none` beyond the largest. -/
def round (f : BinaryFormat) (numerator denominator : Nat) : Option (Nat × Int) :=
  let e := f.exponentFor numerator denominator
  let (a, b) := scaled numerator denominator e
  let m := roundDiv a b
  let (m, e) := if m = pow2 f.precision then (m / 2, e + 1) else (m, e)
  if e ≤ f.maxExponent then some (m, e) else none

end BinaryFormat

/-- A finite binary number, `± significand · 2 ^ exponent`. -/
structure Binary where
  negative : Bool
  significand : Nat
  exponent : Int
  deriving DecidableEq, Repr, Inhabited

namespace Binary

def zero (f : BinaryFormat) (negative : Bool) : Binary := ⟨negative, 0, f.minExponent⟩

/-- The number of the format nearest to `± numerator / denominator`, `none` beyond the largest. -/
def ofFraction (f : BinaryFormat) (negative : Bool) (numerator denominator : Nat) :
    Option Binary :=
  if numerator = 0 then some (zero f negative)
  else (f.round numerator denominator).map fun (m, e) => ⟨negative, m, e⟩

/-- The number without its sign as a fraction. -/
def numerator (x : Binary) : Nat := x.significand * pow2 x.exponent.toNat

def denominator (x : Binary) : Nat := pow2 (-x.exponent).toNat

/-- The same number in another format, which must be wide enough for it. -/
def toFormat (f : BinaryFormat) (x : Binary) : Option Binary :=
  ofFraction f x.negative x.numerator x.denominator

/-- The number of the format nearest to `± digits · 10 ^ scale`, `none` when that is infinite.
A scale far outside the format is settled by the number of digits alone. -/
def ofDecimal (f : BinaryFormat) (negative : Bool) (digits : Nat) (scale : Int) : Option Binary :=
  let size := ((Number.digits digits).length : Int) + scale
  if digits = 0 ∨ size < -330 then some (zero f negative)
  else if 320 < size then none
  else ofFraction f negative (digits * pow10 scale.toNat) (pow10 (-scale).toNat)

end Binary

/-- A floating-point value that need not be finite. -/
inductive Extended where
  | finite (x : Binary)
  | infinite (negative : Bool)
  | nan
  deriving DecidableEq, Repr

namespace Extended

/-- The same value in another format; what is too large for it becomes infinite. -/
def toFormat (f : BinaryFormat) : Extended → Extended
  | finite x => match x.toFormat f with
    | some y => finite y
    | none => infinite x.negative
  | infinite negative => infinite negative
  | nan => nan

end Extended

end DocClient
