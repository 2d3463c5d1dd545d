import DocClient.Number.Shortest

/-!
JSON numbers: whole numbers that fit a 64-bit word, signed or unsigned, and numbers of double
precision for all else.
-/
namespace DocClient

/-- Whether a whole number fits an unsigned or, if negative, a signed word of 64 bits. -/
def FitsWord (n : Int) : Prop := -9223372036854775808 ≤ n ∧ n < 18446744073709551616

instance (n : Int) : Decidable (FitsWord n) := by unfold FitsWord; infer_instance

inductive Number where
  | whole (n : Int) (fits : FitsWord n)
  | real (x : Binary)
  deriving DecidableEq

namespace Number

def ofInt? (n : Int) : Option Number := if h : FitsWord n then some (.whole n h) else none

def intChars (n : Int) : List Char :=
  if n < 0 then '-' :: digits n.natAbs else digits n.natAbs

def chars : Number → List Char
  | whole n _ => intChars n
  | real x => x.chars .double

def render (n : Number) : String := String.ofList n.chars

end Number

end DocClient
