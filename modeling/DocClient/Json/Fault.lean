import DocClient.Number.Digits
import DocClient.Number.Power
import DocClient.Text.Quoted
import DocClient.Text.Utf8

/-!
Why a text is not the JSON that was wanted, and where. While a text is read a fault carries the
number of bytes still unread; its line and column follow from that and the text.
-/
namespace DocClient.Json

inductive Reason where
  | endInValue
  | endInString
  | endInList
  | endInObject
  | wantedCommaInList
  | wantedCommaInObject
  | wantedColon
  | wantedWord
  | wantedValue
  | badNumber
  | numberTooLarge
  | controlCharacter
  | badEscape
  | loneSurrogate
  | halfSurrogatePair
  | keyNotString
  | trailingComma
  | trailingCharacters
  | tooDeep
  /-- The text is JSON, its value is not what was wanted. -/
  | unsuitable (text : String)
  deriving DecidableEq, Repr

namespace Reason

def message : Reason → String
  | endInValue => "EOF while parsing a value"
  | endInString => "EOF while parsing a string"
  | endInList => "EOF while parsing a list"
  | endInObject => "EOF while parsing an object"
  | wantedCommaInList => "expected `,` or `]`"
  | wantedCommaInObject => "expected `,` or `\x7d`"
  | wantedColon => "expected `:`"
  | wantedWord => "expected ident"
  | wantedValue => "expected value"
  | badNumber => "invalid number"
  | numberTooLarge => "number out of range"
  | controlCharacter => "control character (\\u0000-\\u001F) found while parsing a string"
  | badEscape => "invalid escape"
  | loneSurrogate => "lone leading surrogate in hex escape"
  | halfSurrogatePair => "unexpected end of hex escape"
  | keyNotString => "key must be a string"
  | trailingComma => "trailing comma"
  | trailingCharacters => "trailing characters"
  | tooDeep => "recursion limit exceeded"
  | unsuitable text => text

end Reason

/-- A place in a text: the line from one, the column in bytes. -/
structure Position where
  line : Nat
  column : Nat
  deriving DecidableEq, Repr

namespace Position

/-- The place after the first `count` bytes of a text, counted on from a given place. -/
def advance (place : Position) (count : Nat) : List Char → Position
  | [] => place
  | c :: cs =>
    if count = 0 then place
    else if c = '\n' then advance ⟨place.line + 1, 0⟩ (count - 1) cs
    else advance ⟨place.line, place.column + min count c.utf8Size⟩ (count - c.utf8Size) cs

def after (count : Nat) (text : List Char) : Position := advance ⟨1, 0⟩ count text

end Position

/-- A reason and, if it arose at a place of a text, that place. -/
structure Fault where
  reason : Reason
  position : Option Position
  deriving DecidableEq, Repr

namespace Fault

def message (f : Fault) : String :=
  match f.position with
  | none => f.reason.message
  | some p =>
    f.reason.message ++ " at line " ++ toString p.line ++ " column " ++ toString p.column

/-- The digits at the front, read as a number that fits a 64-bit word, and the rest. -/
def frontNumber (cs : List Char) : Option (Nat × List Char) :=
  let digits := cs.takeWhile Char.isDigit
  let n := Number.ofDigits digits
  if digits.isEmpty ∨ pow2 64 ≤ n then none else some (n, cs.dropWhile Char.isDigit)

/-- The text after a given beginning. -/
def after? (start cs : List Char) : Option (List Char) :=
  if start.isPrefixOf cs then some (cs.drop start.length) else none

/-- A place at the end of a message, as `message` writes it. -/
def placeOf? (cs : List Char) : Option Position := do
  let (line, rest) ← frontNumber (← after? " at line ".toList cs)
  let (column, rest) ← frontNumber (← after? " column ".toList rest)
  if rest.isEmpty then some ⟨line, column⟩ else none

/-- The last part of a message that starts like a place, and what stands before it. -/
def splitPlace (cs : List Char) : Option (List Char × List Char) :=
  ((List.range (cs.length + 1)).reverse.map fun n => (cs.take n, cs.drop n)).find?
    fun split => (after? " at line ".toList split.2).isSome

/-- A fault from its message: a place at the end is taken for the fault's own, and line zero for
no place at all. -/
def ofMessage (text : String) : Fault :=
  match splitPlace text.toList with
  | none => ⟨.unsuitable text, none⟩
  | some (front, back) =>
    match placeOf? back with
    | none => ⟨.unsuitable text, none⟩
    | some place =>
      ⟨.unsuitable (String.ofList front), if place.line = 0 then none else some place⟩

end Fault

end DocClient.Json
