import DocClient.Json.Printer
import DocClient.Json.Skip

/-!
Reading records straight from JSON text: an object with named members, or an array of them in
order. Unknown members are passed over; each known one may stand once.
-/
namespace DocClient.Json

/-- A value as a message names it. -/
def described : Json → String
  | null => "null"
  | bool true => "boolean `true`"
  | bool false => "boolean `false`"
  | number (.whole n _) => "integer `" ++ String.ofList (Number.intChars n) ++ "`"
  | number (.real x) => "floating point `" ++ (Number.real x).render ++ "`"
  | string s => "string " ++ Text.quoted s
  | array _ => "sequence"
  | object _ => "map"

def invalidType (found wanted : String) : String :=
  "invalid type: " ++ found ++ ", expected " ++ wanted

def duplicateField (name : String) : String := "duplicate field `" ++ name ++ "`"

def missingField (name : String) : String := "missing field `" ++ name ++ "`"

/-- Stops because another type of value was wanted. A bracket is not read any further. -/
def wrongType (wanted : String) (cs : List Char) : Stop :=
  match skipGaps cs with
  | '[' :: rest => stop (.unsuitable (invalidType "sequence" wanted)) 0 ('[' :: rest)
  | '\x7b' :: rest => stop (.unsuitable (invalidType "map" wanted)) 0 ('\x7b' :: rest)
  | cs =>
    match valueWith none cs with
    | .ok (v, rest) => stop (.unsuitable (invalidType v.described wanted)) 0 rest
    | .error s => s

def scanString (wanted : String) (cs : List Char) : Except Stop (String × List Char) :=
  match skipGaps cs with
  | '"' :: rest => stringRest [] rest
  | rest => .error (wrongType wanted rest)

/-- `null` for no value, or a value. -/
def scanOption {α : Type} (read : Scan α) (cs : List Char) :
    Except Stop (Option α × List Char) :=
  match skipGaps cs with
  | 'n' :: rest => (none, ·) <$> word ['u', 'l', 'l'] rest
  | rest => (fun r => (some r.1, r.2)) <$> read rest

/-- A member of a record: how it is called, whether it has been read, and how to read it. -/
structure Member (σ : Type) where
  name : String
  spellings : List String
  required : Bool
  isSet : σ → Bool
  read : Scan (σ → σ)

structure Record (σ α : Type) where
  title : String
  members : List (Member σ)
  empty : σ
  /-- The record, or the name of a member that it lacks. -/
  finish : σ → Except String α

namespace Record

variable {σ α : Type}

def member? (r : Record σ α) (key : String) : Option (Member σ) :=
  r.members.find? fun m => m.spellings.contains key

/-- The record at the closing bracket of its text, `rest` being what comes after it. -/
def close (r : Record σ α) (state : σ) (rest : List Char) : Except Stop (α × List Char) :=
  match r.finish state with
  | .ok a => .ok (a, rest)
  | .error name => .error (stop (.unsuitable (missingField name)) 0 rest)

/-- Where a fault of the whole object is reported: behind the closing brace if that is next. -/
def pastBrace (cs : List Char) : List Char :=
  match skipGaps cs with
  | '\x7d' :: rest => rest
  | rest => rest

/-- The members from the first key on, after its opening quote. -/
def readMembers (r : Record σ α) : Nat → σ → Scan α
  | 0, _, cs => .error (stop .endInObject 0 cs)
  | room + 1, state, cs => do
    let (key, rest) ← stringRest [] cs
    let (state, rest) ← match r.member? key with
      | none => (state, ·) <$> do skipValue (← colon rest)
      | some m =>
        if m.isSet state then
          .error (stop (.unsuitable (duplicateField m.name)) 0 (pastBrace rest))
        else do
          let (set, rest) ← m.read (← colon rest)
          .ok (set state, rest)
    match skipGaps rest with
    | [] => .error (stop .endInObject 0 [])
    | ',' :: rest => do r.readMembers room state (← nextKey rest)
    | '\x7d' :: rest => r.close state rest
    | rest => .error (stop .wantedCommaInObject 1 rest)

def invalidLength (r : Record σ α) (count : Nat) : String :=
  "invalid length " ++ toString count ++ ", expected struct " ++ r.title ++ " with "
    ++ toString r.members.length ++ " elements"

/-- The end of an array all of whose members have been read. -/
def endOfArray (r : Record σ α) (state : σ) (cs : List Char) : Except Stop (α × List Char) :=
  match skipGaps cs with
  | [] => .error (stop .endInList 0 [])
  | ']' :: rest => r.close state rest
  | ',' :: rest =>
    match skipGaps rest with
    | ']' :: rest => .error (stop .trailingComma 1 (']' :: rest))
    | rest => .error (stop .trailingCharacters 1 rest)
  | rest => .error (stop .trailingCharacters 1 rest)

/-- The members of an array from a given one on; those at the end may be left out if none of them
is required. -/
def readItems (r : Record σ α) (count : Nat) (state : σ) :
    List (Member σ) → List Char → Except Stop (α × List Char)
  | [], cs => r.endOfArray state cs
  | m :: ms, cs =>
    let item (cs : List Char) : Except Stop (α × List Char) := do
      let (set, rest) ← m.read cs
      r.readItems (count + 1) (set state) ms rest
    match skipGaps cs with
    | [] => .error (stop .endInList 0 [])
    | ']' :: rest =>
      if m.required then .error (stop (.unsuitable (r.invalidLength count)) 0 rest)
      else r.close state rest
    | c :: rest =>
      if count = 0 then item (c :: rest)
      else if c = ',' then do item (← nextItem rest)
      else .error (stop .wantedCommaInList 1 (c :: rest))

def read (r : Record σ α) (cs : List Char) : Except Stop (α × List Char) :=
  match skipGaps cs with
  | '[' :: rest => r.readItems 0 r.empty r.members rest
  | '\x7b' :: rest =>
    match skipGaps rest with
    | [] => .error (stop .endInObject 0 [])
    | '"' :: rest => r.readMembers (rest.length + 1) r.empty rest
    | '\x7d' :: rest => r.close r.empty rest
    | rest => .error (stop .keyNotString 1 rest)
  | rest => .error (wrongType ("struct " ++ r.title) rest)

end Record

end DocClient.Json
