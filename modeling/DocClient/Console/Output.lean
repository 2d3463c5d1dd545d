/-!
Console output. A buffer holds the lines that have arrived and were not yet taken; what is taken
at once is an `OutputWindow`.
-/
namespace DocClient

structure OutputBuffer where
  lines : List String := []
  deriving DecidableEq, Repr

namespace OutputBuffer

def push (b : OutputBuffer) (line : String) : OutputBuffer := ⟨b.lines ++ [line]⟩

def clear (_ : OutputBuffer) : OutputBuffer := ⟨[]⟩

/-- Takes all lines, which leaves the buffer empty. -/
def drain (b : OutputBuffer) : List String × OutputBuffer := (b.lines, ⟨[]⟩)

end OutputBuffer

structure OutputWindow where
  lines : List String
  deriving DecidableEq, Repr

namespace OutputWindow

/-- Whether the needle stands somewhere in the text. -/
def occursIn (needle : List Char) : List Char → Bool
  | [] => needle.isEmpty
  | c :: cs => needle.isPrefixOf (c :: cs) || occursIn needle cs

/-- Whether some line holds the needle. -/
def contains (c : OutputWindow) (needle : String) : Bool :=
  c.lines.any fun line => occursIn needle.toList line.toList

end OutputWindow

end DocClient
