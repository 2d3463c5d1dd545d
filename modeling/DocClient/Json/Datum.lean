import DocClient.Json.Fault
import DocClient.Json.Printer
import DocClient.Text.Utf8

/-!
Values of a caller's own types, and the JSON value each of them becomes. Not every value has one:
a whole number may not fit a word, a key may not be text, and a value may refuse.
-/
namespace DocClient

inductive Datum where
  | json (v : Json)
  | unit
  | bool (b : Bool)
  | int (n : Int)
  | real (format : BinaryFormat) (x : Extended)
  | char (c : Char)
  | text (s : String)
  | bytes (bs : Text.Bytes)
  | present (inner : Datum)
  /-- A type around one value that does not show itself. -/
  | wrapper (inner : Datum)
  | list (items : List Datum)
  | map (entries : List (Datum × Datum))
  | record (fields : List (String × Datum))
  /-- One of several cases, known by its name alone. -/
  | constant (name : String)
  /-- One of several cases, with a value. -/
  | tagged (name : String) (inner : Datum)
  | refusal (message : String)

namespace Datum

open Json (Fault)

def fault (reason : Json.Reason) : Fault := ⟨reason, none⟩

def outOfRange : Fault := fault .numberTooLarge

def keyNotText : Fault := fault .keyNotString

def keyNotFinite : Fault :=
  fault (.unsuitable "float key must be finite (got NaN or +/-inf)")

def boolText (b : Bool) : String := if b then "true" else "false"

def intText (n : Int) : String := String.ofList (Number.intChars n)

/-- The text of a JSON value as a key. -/
def jsonKey : Json → Except Fault String
  | .string s => .ok s
  | .number n => .ok n.render
  | .bool b => .ok (boolText b)
  | .null | .array _ | .object _ => .error keyNotText

/-- The text of a value as a key: texts as they are, numbers and truth values as written. -/
def key : Datum → Except Fault String
  | .json v => jsonKey v
  | .bool b => .ok (boolText b)
  | .int n => .ok (intText n)
  | .real f (.finite x) => .ok (String.ofList (x.chars f))
  | .real _ (.infinite _) | .real _ .nan => .error keyNotFinite
  | .char c => .ok c.toString
  | .text s => .ok s
  | .wrapper inner => inner.key
  | .constant name => .ok name
  | .refusal message => .error (.ofMessage message)
  | .unit | .bytes _ | .present _ | .list _ | .map _ | .record _ | .tagged _ _ => .error keyNotText

def ofInt (n : Int) : Except Fault Json :=
  match Number.ofInt? n with
  | some m => .ok (.number m)
  | none => .error outOfRange

def ofByte (b : UInt8) : Json :=
  .number (.whole b.toNat (by have := b.toNat_lt; constructor <;> omega))

mutual

/-- The JSON value, or the first fault in reading order, a key before its value. -/
def toJson : Datum → Except Fault Json
  | .json v => .ok v
  | .unit => .ok .null
  | .bool b => .ok (.bool b)
  | .int n => ofInt n
  | .real _ x => .ok (Json.ofExtended (x.toFormat .double))
  | .char c => .ok (.string c.toString)
  | .text s => .ok (.string s)
  | .bytes bs => .ok (.array (bs.map ofByte))
  | .present inner => toJson inner
  | .wrapper inner => toJson inner
  | .list items => .array <$> itemsToJson items
  | .map entries => .object <$> entriesToJson [] entries
  | .record fields => .object <$> fieldsToJson [] fields
  | .constant name => .ok (.string name)
  | .tagged name inner => (fun v => .object [(name, v)]) <$> toJson inner
  | .refusal message => .error (.ofMessage message)

def itemsToJson : List Datum → Except Fault (List Json)
  | [] => .ok []
  | d :: ds => do
    let v ← toJson d
    let vs ← itemsToJson ds
    .ok (v :: vs)

def entriesToJson (doc : Document) : List (Datum × Datum) → Except Fault Document
  | [] => .ok doc
  | (k, d) :: rest => do
    let name ← key k
    let v ← toJson d
    entriesToJson (Json.setMember name v doc) rest

def fieldsToJson (doc : Document) : List (String × Datum) → Except Fault Document
  | [] => .ok doc
  | (name, d) :: rest => do
    let v ← toJson d
    fieldsToJson (Json.setMember name v doc) rest

end

end Datum

end DocClient
