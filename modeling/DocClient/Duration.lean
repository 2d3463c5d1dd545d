import DocClient.Number.Digits
import DocClient.Number.Power

/-!
Spans of time, in microseconds. They are shown in the largest unit that gives at least one, with
no more decimals than the value needs.
-/
namespace DocClient

structure Duration where
  microseconds : Nat
  deriving DecidableEq, Repr, Inhabited

namespace Duration

def ofMilliseconds (n : Nat) : Duration := ⟨n * 1000⟩

def ofSeconds (n : Nat) : Duration := ⟨n * 1000000⟩

/-- Whole milliseconds, the rest cut off. -/
def milliseconds (d : Duration) : Nat := d.microseconds / 1000

/-- A digit string of at least `width` places, filled with zeros from the left. -/
def padded (width n : Nat) : List Char :=
  let digits := Number.digits n
  List.replicate (width - digits.length) '0' ++ digits

/-- The decimals `n / 10 ^ width` after the point, with the point, or nothing when `n` is zero. -/
def decimals (width n : Nat) : List Char :=
  let digits := Number.dropTrailingZeros (padded width n)
  if digits.isEmpty then [] else '.' :: digits

/-- The units a span is shown in: their size in microseconds, as a power of ten, and their name. -/
def units : List (Nat × String) := [(6, "s"), (3, "ms"), (0, "µs")]

def render (d : Duration) : String :=
  match units.find? fun unit => pow10 unit.1 ≤ d.microseconds with
  | none => "0ns"
  | some (places, name) =>
    let size := pow10 places
    toString (d.microseconds / size)
      ++ String.ofList (decimals places (d.microseconds % size)) ++ name

end Duration

end DocClient
