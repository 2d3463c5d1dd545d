import DocClient.Number.Basic

/-! Numbers from plain decimal text: whole numbers, and floating-point values of any format. -/
namespace DocClient.Number

/-- A sign, if there is one, and the text after it. -/
def splitSign : List Char → Bool × List Char
  | '-' :: cs => (true, cs)
  | '+' :: cs => (false, cs)
  | cs => (false, cs)

/-- A whole number with a sign or without. -/
def signed? (cs : List Char) : Option Int :=
  let (negative, cs) := splitSign cs
  (ofDigits? cs).map fun n => if negative then -(n : Int) else n

def int? (text : String) : Option Int := signed? text.toList

/-- A whole number between two bounds. -/
def intWithin? (low high : Int) (text : String) : Option Int :=
  (int? text).filter fun n => low ≤ n && n ≤ high

/-- The exponent after its letter, zero where there is none. -/
def exponent? : List Char → Option Int
  | [] => some 0
  | c :: cs => if c = 'e' ∨ c = 'E' then signed? cs else none

/-- The digits after a point, none without one, and the text after them. -/
def afterPoint : List Char → List Char × List Char
  | '.' :: cs => (cs.takeWhile Char.isDigit, cs.dropWhile Char.isDigit)
  | cs => ([], cs)

/-- Digits with a point among them or not, and an exponent or not. -/
def decimal? (f : BinaryFormat) (negative : Bool) (cs : List Char) : Option Extended := do
  let front := cs.takeWhile Char.isDigit
  let (back, rest) := afterPoint (cs.dropWhile Char.isDigit)
  let digits ← ofDigits? (front ++ back)
  let exponent ← exponent? rest
  match Binary.ofDecimal f negative digits (exponent - (back.length : Int)) with
  | some x => some (.finite x)
  | none => some (.infinite negative)

/-- The value of the format nearest to what the text says. -/
def extended? (f : BinaryFormat) (text : String) : Option Extended :=
  let (negative, cs) := splitSign text.toList
  let letters := String.ofList (cs.map Char.toLower)
  if letters = "nan" then some .nan
  else if letters = "inf" ∨ letters = "infinity" then some (.infinite negative)
  else decimal? f negative cs

end DocClient.Number
