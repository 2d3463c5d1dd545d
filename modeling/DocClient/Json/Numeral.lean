import DocClient.Json.Scan
import DocClient.Number.Basic
import DocClient.Number.Scaling

/-!
Reading numbers. A number with a point, an exponent or too many digits for a 64-bit word becomes
one of double precision.
-/
namespace DocClient.Json

/-- The digits before the point: a zero stands alone. -/
def wholeDigits : Scan (List Char)
  | [] => .error (stop .endInValue 0 [])
  | c :: cs =>
    if c = '0' then
      match cs with
      | [] => .ok ([c], [])
      | d :: ds => if d.isDigit then .error (stop .badNumber 1 cs) else .ok ([c], d :: ds)
    else if c.isDigit then .ok (c :: cs.takeWhile Char.isDigit, cs.dropWhile Char.isDigit)
    else .error (stop .badNumber 1 (c :: cs))

/-- The digits after a point; none without one. -/
def fractionDigits : Scan (List Char)
  | '.' :: cs =>
    if cs.isEmpty then .error (stop .endInValue 1 cs)
    else if (cs.takeWhile Char.isDigit).isEmpty then .error (stop .badNumber 1 cs)
    else .ok (cs.takeWhile Char.isDigit, cs.dropWhile Char.isDigit)
  | cs => .ok ([], cs)

/-- The largest exponent that is taken in whole. -/
def maxExponent : Nat := 2147483647

/-- Reads exponent digits, at most up to the one that exceeds `maxExponent`. -/
def exponentDigits (n : Nat) : List Char → Nat × List Char
  | [] => (n, [])
  | c :: cs =>
    if c.isDigit then
      let n := n * 10 + Number.digitValue c
      if maxExponent < n then (n, cs) else exponentDigits n cs
    else (n, c :: cs)

/-- The sign of an exponent and the text after it. -/
def exponentSign : List Char → Bool × List Char
  | '+' :: cs => (false, cs)
  | '-' :: cs => (true, cs)
  | cs => (false, cs)

/-- The exponent after its letter: whether it is negative, and its size. -/
def exponentPart (cs : List Char) : Except Stop ((Bool × Nat) × List Char) :=
  let (negative, cs) := exponentSign cs
  match cs with
  | [] => .error (stop .endInValue 0 [])
  | c :: rest =>
    if c.isDigit then
      let (n, rest) := exponentDigits 0 (c :: rest)
      .ok ((negative, n), rest)
    else .error (stop .badNumber 1 (c :: rest))

def isExponentLetter (c : Char) : Bool := c == 'e' || c == 'E'

/-- How many values a word of 64 bits has. -/
def wordSize : Nat := 18446744073709551616

/-- Takes in digits behind those of a number as long as the number they make fits a word. Gives
that number and the digits left out. -/
def takeIn (n : Nat) : List Char → Nat × List Char
  | [] => (n, [])
  | c :: cs =>
    if n * 10 + Number.digitValue c < wordSize then takeIn (n * 10 + Number.digitValue c) cs
    else (n, c :: cs)

/-- The digits before and after a point as one number, as far as they fit a word, and the power of
ten that goes with it. -/
def scaled (front back : List Char) (power : Int) : Nat × Int :=
  let (n, left) := takeIn 0 front
  let (n, left') := takeIn n back
  (n, power + left.length - (back.length - left'.length))

/-- The number of double precision for the digits read, with the text after it. -/
def real (negative : Bool) (front back : List Char) (power : Int) (rest : List Char) :
    Except Stop (Number × List Char) :=
  let (n, exponent) := scaled front back power
  match Binary.ofScaled negative n exponent with
  | some x => .ok (.real x, rest)
  | none => .error (stop .numberTooLarge 0 rest)

/-- A number written with neither point nor exponent is whole if it fits; `-0` is not whole. -/
def whole? (negative : Bool) (digits : Nat) : Option Number :=
  if negative ∧ digits = 0 then none
  else Number.ofInt? (if negative then -(digits : Int) else digits)

def wholeNumber (negative : Bool) (front rest : List Char) : Except Stop (Number × List Char) :=
  match whole? negative (Number.ofDigits front) with
  | some n => .ok (n, rest)
  | none => real negative front [] 0 rest

/-- A number with an exponent. An exponent too large to take in leaves zero at zero, makes a
small number zero and a large one unreadable. -/
def withExponent (negative : Bool) (front back : List Char) (cs : List Char) :
    Except Stop (Number × List Char) := do
  let ((small, size), rest) ← exponentPart cs
  if maxExponent < size then
    if small ∨ Number.ofDigits (front ++ back) = 0 then
      .ok (.real (.zero .double negative), rest.dropWhile Char.isDigit)
    else .error (stop .numberTooLarge 0 rest)
  else real negative front back (if small then -(size : Int) else size) rest

/-- The end of a number after its fraction: an exponent, or nothing more. -/
def fractionEnd (negative : Bool) (front back : List Char) : Scan Number
  | [] => real negative front back 0 []
  | c :: cs =>
    if isExponentLetter c then withExponent negative front back cs
    else real negative front back 0 (c :: cs)

def unsignedNumber (negative : Bool) (cs : List Char) : Except Stop (Number × List Char) := do
  let (front, rest) ← wholeDigits cs
  match rest with
  | [] => wholeNumber negative front []
  | c :: more =>
    if isExponentLetter c then withExponent negative front [] more
    else if c = '.' then do
      let (back, rest) ← fractionDigits (c :: more)
      fractionEnd negative front back rest
    else wholeNumber negative front (c :: more)

def scanNumber : Scan Number
  | '-' :: cs => unsignedNumber true cs
  | cs => unsignedNumber false cs

end DocClient.Json
