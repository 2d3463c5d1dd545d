import DocClient.Number.Binary

/-!
Decimal numbers of double precision by one multiplication or division: the digits are rounded to a
number first, and that is multiplied or divided by a power of ten, which is rounded too. The result
is close to the number that was written, but not always the nearest to it.
-/
namespace DocClient.Binary

/-- The product of two numbers, rounded; `none` beyond the largest. -/
def times (x y : Binary) : Option Binary :=
  ofFraction .double (x.negative != y.negative) (x.numerator * y.numerator)
    (x.denominator * y.denominator)

/-- The quotient of two numbers, rounded. -/
def dividedBy (x y : Binary) : Option Binary :=
  ofFraction .double (x.negative != y.negative) (x.numerator * y.denominator)
    (x.denominator * y.numerator)

/-- The largest power of ten that a number of double precision comes near to. -/
def maxPower : Nat := 308

/-- The number nearest to a power of ten. -/
def powerOfTen (n : Nat) : Option Binary := ofFraction .double false (pow10 n) 1

/-- Divides by the power of ten that is left after the largest one has been divided by so many
times before; when the number has become zero that is the end of it. -/
def scaleDown (left : Nat) : Nat → Binary → Option Binary
  | 0, x => do x.dividedBy (← powerOfTen left)
  | times + 1, x =>
    if x.significand = 0 then some x
    else do scaleDown left times (← x.dividedBy (← powerOfTen maxPower))

/-- The number for `± significand · 10 ^ exponent`; `none` if it is too large. -/
def ofScaled (negative : Bool) (significand : Nat) (exponent : Int) : Option Binary := do
  let x ← ofFraction .double negative significand 1
  if 0 ≤ exponent then
    if exponent ≤ maxPower then x.times (← powerOfTen exponent.toNat)
    else if x.significand = 0 then some x else none
  else
    let places := (-exponent).toNat
    let times := (places - 1) / maxPower
    x.scaleDown (places - maxPower * times) times

end DocClient.Binary
