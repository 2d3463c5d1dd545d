import DocClient.Text.Utf8

/-! Cutting a stream of bytes into frames that end with a delimiter. -/
namespace DocClient.Text

/-- The complete frames, without their delimiters, and the bytes after the last of them. -/
def frames (delimiter : UInt8) : Bytes → List Bytes × Bytes
  | [] => ([], [])
  | b :: bs =>
    let (done, rest) := frames delimiter bs
    if b = delimiter then ([] :: done, rest)
    else
      match done with
      | [] => ([], b :: rest)
      | frame :: more => ((b :: frame) :: more, rest)

/-- The bytes without one carriage return at their end. -/
def dropReturn (bytes : Bytes) : Bytes :=
  if bytes.getLast? = some 0x0D then bytes.dropLast else bytes

end DocClient.Text
