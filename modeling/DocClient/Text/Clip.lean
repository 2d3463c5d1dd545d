import DocClient.Text.Utf8

/-!
The beginning of a text that takes no more than a given number of bytes. Where a longer text is cut
is looked for from there towards the front, byte by byte, until a place between two characters.
-/
namespace DocClient.Text

/-- Whether a place in the bytes of a text is the front, the end, or before a byte with which a
character starts. -/
def isBoundary (bytes : Bytes) (place : Nat) : Bool :=
  place == 0 ||
    match bytes[place]? with
    | some b => !isTail b
    | none => place == bytes.length

/-- The first boundary on the way from a place to the front; `none` if the way leads past the
front. -/
def lastBoundary? (bytes : Bytes) (place : Nat) : Option Nat :=
  if isBoundary bytes place then some place
  else
    match place with
    | 0 => none
    | before + 1 => lastBoundary? bytes before

/-- The text of the first bytes; `none` if they end within a character. -/
def front? (bytes : Bytes) (place : Nat) : Option String :=
  if isBoundary bytes place then (decode (bytes.take place)).toOption else none

/-- The text itself if it fits, and else its beginning up to the last boundary that does. -/
def clip? (room : Nat) (text : String) : Option String :=
  if (utf8 text).length ≤ room then some text
  else do front? (utf8 text) (← lastBoundary? (utf8 text) room)

end DocClient.Text
