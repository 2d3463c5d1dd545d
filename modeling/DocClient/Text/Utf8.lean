/-!
UTF-8 over lists of bytes. `pieces` cuts any bytes into characters and the longest ill-formed
stretches between them; strict and lenient decoding are two views of the pieces.
-/
namespace DocClient.Text

/-- A byte string. -/
abbrev Bytes := List UInt8

def charBytes (c : Char) : Bytes := String.utf8EncodeChar c

def utf8 (text : String) : Bytes := text.toList.flatMap charBytes

/-- The number of bytes that the characters take. -/
def byteLength (cs : List Char) : Nat := cs.foldl (fun n c => n + c.utf8Size) 0

inductive Piece where
  | char (c : Char)
  /-- Bytes that can start no character. -/
  | broken (bytes : Bytes)
  /-- The start of a character at the end of the bytes. -/
  | cut (bytes : Bytes)
  deriving DecidableEq, Repr

/-- How many bytes a first byte announces, and the bounds of the second byte. -/
inductive Lead where
  | one
  | two
  | three (low high : UInt8)
  | four (low high : UInt8)
  | bad
  deriving DecidableEq, Repr

def lead (b : UInt8) : Lead :=
  if b < 0x80 then .one
  else if b < 0xC2 then .bad
  else if b < 0xE0 then .two
  else if b = 0xE0 then .three 0xA0 0xBF
  else if b = 0xED then .three 0x80 0x9F
  else if b < 0xF0 then .three 0x80 0xBF
  else if b = 0xF0 then .four 0x90 0xBF
  else if b < 0xF4 then .four 0x80 0xBF
  else if b = 0xF4 then .four 0x80 0x8F
  else .bad

def isTail (b : UInt8) : Bool := 0x80 ≤ b && b ≤ 0xBF

/-- The low six bits, which a continuation byte carries. -/
def payload (b : UInt8) : Nat := b.toNat % 64

def char2 (a b : UInt8) : Char := Char.ofNat (a.toNat % 32 * 64 + payload b)

def char3 (a b c : UInt8) : Char :=
  Char.ofNat (a.toNat % 16 * 4096 + payload b * 64 + payload c)

def char4 (a b c d : UInt8) : Char :=
  Char.ofNat (a.toNat % 8 * 262144 + payload b * 4096 + payload c * 64 + payload d)

def pieces : Bytes → List Piece
  | [] => []
  | a :: rest =>
    match lead a with
    | .one => .char (Char.ofNat a.toNat) :: pieces rest
    | .bad => .broken [a] :: pieces rest
    | .two =>
      match rest with
      | [] => [.cut [a]]
      | b :: rest =>
        if isTail b then .char (char2 a b) :: pieces rest else .broken [a] :: pieces (b :: rest)
    | .three low high =>
      match rest with
      | [] => [.cut [a]]
      | b :: rest =>
        if low ≤ b && b ≤ high then
          match rest with
          | [] => [.cut [a, b]]
          | c :: rest =>
            if isTail c then .char (char3 a b c) :: pieces rest
            else .broken [a, b] :: pieces (c :: rest)
        else .broken [a] :: pieces (b :: rest)
    | .four low high =>
      match rest with
      | [] => [.cut [a]]
      | b :: rest =>
        if low ≤ b && b ≤ high then
          match rest with
          | [] => [.cut [a, b]]
          | c :: rest =>
            if isTail c then
              match rest with
              | [] => [.cut [a, b, c]]
              | d :: rest =>
                if isTail d then .char (char4 a b c d) :: pieces rest
                else .broken [a, b, c] :: pieces (d :: rest)
            else .broken [a, b] :: pieces (c :: rest)
        else .broken [a] :: pieces (b :: rest)
  termination_by bytes => bytes.length

/-- Why bytes are not UTF-8, and at which index. -/
inductive Utf8Fault where
  | broken (width index : Nat)
  | cut (index : Nat)
  deriving DecidableEq, Repr

namespace Utf8Fault

def message : Utf8Fault → String
  | .broken width index =>
    "invalid utf-8 sequence of " ++ toString width ++ " bytes from index " ++ toString index
  | .cut index => "incomplete utf-8 byte sequence from index " ++ toString index

end Utf8Fault

/-- The characters of the pieces, up to the first ill-formed one. -/
def strict (index : Nat) : List Piece → Except Utf8Fault (List Char)
  | [] => .ok []
  | .char c :: rest => (c :: ·) <$> strict (index + c.utf8Size) rest
  | .broken bytes :: _ => .error (.broken bytes.length index)
  | .cut _ :: _ => .error (.cut index)

def decode (bytes : Bytes) : Except Utf8Fault String :=
  String.ofList <$> strict 0 (pieces bytes)

/-- The character that stands for a piece: U+FFFD for an ill-formed one. -/
def Piece.shown : Piece → Char
  | .char c => c
  | .broken _ | .cut _ => '\uFFFD'

def decodeLenient (bytes : Bytes) : String := String.ofList ((pieces bytes).map Piece.shown)

end DocClient.Text
