import DocClient.Number.Binary

/-!
The fewest decimal digits that read back as a given number. The decimals that round to a number
fill an interval; the first grid of one, two, three … digits with a point inside it gives the
digits, and of two such points the nearer.
-/
namespace DocClient

/-- Digits `d` and an exponent `e` that stand for `d · 10 ^ e`. -/
structure Decimal where
  digits : Nat
  exponent : Int
  deriving DecidableEq, Repr

namespace Binary

/-- The decimals that round to a positive number: its two ends and the number itself, as multiples
of `1 / denominator`, and whether the ends belong to it. -/
structure Interval where
  low : Nat
  value : Nat
  high : Nat
  denominator : Nat
  closed : Bool

/-- Below a power of two the neighbours lie twice as close, the least exponent apart. -/
def interval (f : BinaryFormat) (x : Binary) : Interval :=
  let scale := pow2 (x.exponent - 2).toNat
  let m := x.significand
  let gap := if m = pow2 (f.precision - 1) ∧ f.minExponent < x.exponent then 1 else 2
  { low := (4 * m - gap) * scale
    value := 4 * m * scale
    high := (4 * m + 2) * scale
    denominator := pow2 (2 - x.exponent).toNat
    closed := m % 2 = 0 }

namespace Interval

/-- Whether `d · 10 ^ e` reads back as the number. -/
def holds (i : Interval) (d : Nat) (e : Int) : Bool :=
  let point := d * pow10 e.toNat * i.denominator
  let unit := pow10 (-e).toNat
  if i.closed then i.low * unit ≤ point && point ≤ i.high * unit
  else i.low * unit < point && point < i.high * unit

/-- The distance of `d · 10 ^ e` from the number, in a unit that depends on `e` alone. -/
def distance (i : Interval) (d : Nat) (e : Int) : Nat :=
  let point := d * pow10 e.toNat * i.denominator
  let target := i.value * pow10 (-e).toNat
  (point - target) + (target - point)

/-- The greatest exponent `e` with `10 ^ e` at most the number. -/
def magnitude (i : Interval) : Int :=
  ((Number.digits (i.value * pow10 400 / i.denominator)).length : Int) - 401

/-- The point of the grid `10 ^ e` that reads back, if one does, the nearer of two and the even
one of two equally near. -/
def onGrid (i : Interval) (e : Int) : Option Nat :=
  let d := i.value * pow10 (-e).toNat / (i.denominator * pow10 e.toNat)
  match i.holds d e, i.holds (d + 1) e with
  | true, true =>
    let below := i.distance d e
    let above := i.distance (d + 1) e
    if below < above then some d
    else if above < below then some (d + 1)
    else if d % 2 = 0 then some d else some (d + 1)
  | true, false => some d
  | false, true => some (d + 1)
  | false, false => none

end Interval

/-- Seventeen digits tell any two numbers of double precision apart. -/
def maxDigits : Nat := 17

/-- The point on the first of the grids, given by their digit counts, that reads back. -/
def Interval.search (i : Interval) (magnitude : Int) : List Nat → Decimal
  | [] => ⟨0, 0⟩
  | count :: counts =>
    let e := magnitude - (count : Int) + 1
    match i.onGrid e with
    | some d => ⟨d, e⟩
    | none => i.search magnitude counts

/-- The fewest digits that read back as the number in the given format. -/
def shortest (f : BinaryFormat) (x : Binary) : Decimal :=
  let i := x.interval f
  i.search i.magnitude ((List.range maxDigits).map (· + 1))

end Binary

namespace Decimal

/-- The decimal digits, trailing zeros left out. -/
def significant (d : Decimal) : List Char :=
  Number.dropTrailingZeros (Number.digits d.digits)

/-- The exponent of the first digit. -/
def leading (d : Decimal) : Int := d.exponent + ((Number.digits d.digits).length : Int) - 1

end Decimal

/-- Where a number is written out in full and where with an exponent. -/
structure DecimalLayout where
  lowest : Int
  highest : Int
  deriving DecidableEq, Repr

namespace DecimalLayout

/-- Numbers of double precision are written out from `10 ^ -5` to below `10 ^ 16`. -/
def double : DecimalLayout := ⟨-5, 15⟩

/-- Numbers of single precision are written out from `10 ^ -6` to below `10 ^ 13`. -/
def single : DecimalLayout := ⟨-6, 12⟩

def ofFormat (f : BinaryFormat) : DecimalLayout := if f = .single then single else double

/-- Whether a number whose first digit has the given exponent is written out. -/
def writesOut (layout : DecimalLayout) (leading : Int) : Bool :=
  layout.lowest ≤ leading && leading ≤ layout.highest

/-- Digits with the point after `whole` of them; one place is kept on either side. -/
def positional (digits : List Char) (leading : Int) : List Char :=
  if leading < 0 then
    ['0', '.'] ++ List.replicate (-leading - 1).toNat '0' ++ digits
  else
    let whole := leading.toNat + 1
    let filled := digits ++ List.replicate (whole - digits.length) '0'
    let after := filled.drop whole
    filled.take whole ++ '.' :: (if after.isEmpty then ['0'] else after)

def scientific (digits : List Char) (leading : Int) : List Char :=
  let mantissa := match digits with
    | [] => []
    | [d] => [d]
    | d :: ds => d :: '.' :: ds
  let sign := if leading < 0 then '-' else '+'
  mantissa ++ 'e' :: sign :: Number.digits leading.natAbs

end DecimalLayout

namespace Binary

def magnitudeChars (f : BinaryFormat) (x : Binary) : List Char :=
  if x.significand = 0 then ['0', '.', '0']
  else
    let d := x.shortest f
    if (DecimalLayout.ofFormat f).writesOut d.leading
    then DecimalLayout.positional d.significant d.leading
    else DecimalLayout.scientific d.significant d.leading

/-- The number with its sign; a negative zero keeps it. -/
def chars (f : BinaryFormat) (x : Binary) : List Char :=
  (if x.negative then ['-'] else []) ++ x.magnitudeChars f

end Binary

end DocClient
