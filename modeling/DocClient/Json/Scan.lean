import DocClient.Json.Fault

/-!
Readers of JSON text. A reader takes the characters that are left and gives what it has read and
the characters after it, or stops.
-/
namespace DocClient.Json

/-- A reason to stop and the number of bytes then unread. -/
structure Stop where
  reason : Reason
  unread : Nat
  deriving DecidableEq, Repr

/-- Stops `ahead` bytes into the characters that are left. -/
def stop (reason : Reason) (ahead : Nat) (rest : List Char) : Stop :=
  ⟨reason, Text.byteLength rest - ahead⟩

abbrev Scan (α : Type) := List Char → Except Stop (α × List Char)

def Stop.fault (s : Stop) (text : List Char) : Fault :=
  ⟨s.reason, some (Position.after (Text.byteLength text - s.unread) text)⟩

/-- The blanks of JSON text. -/
def isGap (c : Char) : Bool := c == ' ' || c == '\t' || c == '\n' || c == '\r'

def skipGaps (cs : List Char) : List Char := cs.dropWhile isGap

/-- Passes over the given letters. -/
def word : List Char → List Char → Except Stop (List Char)
  | [], cs => .ok cs
  | _ :: _, [] => .error (stop .endInValue 0 [])
  | e :: es, c :: cs => if c = e then word es cs else .error (stop .wantedWord 1 (c :: cs))

/-- Reads a whole text, after which only blanks may follow. -/
def readAll {α : Type} (read : Scan α) (text : List Char) : Except Fault α :=
  match read text with
  | .error s => .error (s.fault text)
  | .ok (a, rest) =>
    match skipGaps rest with
    | [] => .ok a
    | rest => .error ((stop .trailingCharacters 1 rest).fault text)

end DocClient.Json
