/-! Membership of a code point in a table of closed ranges. -/
namespace DocClient.Text

/-- Whether some range of the table holds the code point. -/
def inRanges (table : List (Nat × Nat)) (code : Nat) : Bool :=
  table.any fun range => range.1 ≤ code && code ≤ range.2

end DocClient.Text
