import DocClient.Json.Basic
import DocClient.Json.Escape
import DocClient.Json.Numeral

/-! Reading whole values. Arrays and objects may nest `maxDepth` levels. -/
namespace DocClient.Json

/-- Passes over the colon after a key. -/
def colon (cs : List Char) : Except Stop (List Char) :=
  match skipGaps cs with
  | [] => .error (stop .endInObject 0 [])
  | ':' :: rest => .ok rest
  | rest => .error (stop .wantedColon 1 rest)

/-- Passes over a comma in a list, to the item that must follow. -/
def nextItem (cs : List Char) : Except Stop (List Char) :=
  match skipGaps cs with
  | [] => .error (stop .endInValue 0 [])
  | ']' :: rest => .error (stop .trailingComma 1 (']' :: rest))
  | rest => .ok rest

/-- Passes over a comma in an object, to the text of the key that must follow. -/
def nextKey (cs : List Char) : Except Stop (List Char) :=
  match skipGaps cs with
  | [] => .error (stop .endInValue 0 [])
  | '"' :: rest => .ok rest
  | '\x7d' :: rest => .error (stop .trailingComma 1 ('\x7d' :: rest))
  | rest => .error (stop .keyNotString 1 rest)

/-- The items from the first on. Each takes a character at least, which bounds their number. -/
def items (item : Scan Json) (before : List Json) : Nat → Scan (List Json)
  | 0, cs => .error (stop .endInList 0 cs)
  | room + 1, cs => do
    let (v, rest) ← item cs
    match skipGaps rest with
    | [] => .error (stop .endInList 0 [])
    | ',' :: rest => do items item (v :: before) room (← nextItem rest)
    | ']' :: rest => .ok ((v :: before).reverse, rest)
    | rest => .error (stop .wantedCommaInList 1 rest)

/-- The members from the first key on, after its opening quote. -/
def members (value : Scan Json) (before : Document) : Nat → Scan Document
  | 0, cs => .error (stop .endInObject 0 cs)
  | room + 1, cs => do
    let (key, rest) ← stringRest [] cs
    let (v, rest) ← value (← colon rest)
    let doc := setMember key v before
    match skipGaps rest with
    | [] => .error (stop .endInObject 0 [])
    | ',' :: rest => do members value doc room (← nextKey rest)
    | '\x7d' :: rest => .ok (doc, rest)
    | rest => .error (stop .wantedCommaInObject 1 rest)

/-- An array after its opening bracket. -/
def arrayRest (item : Scan Json) (cs : List Char) : Except Stop (Json × List Char) :=
  match skipGaps cs with
  | [] => .error (stop .endInList 0 [])
  | ']' :: rest => .ok (.array [], rest)
  | rest => do
    let (vs, rest) ← items item [] (rest.length + 1) rest
    .ok (.array vs, rest)

/-- An object after its opening brace. -/
def objectRest (value : Scan Json) (cs : List Char) : Except Stop (Json × List Char) :=
  match skipGaps cs with
  | [] => .error (stop .endInObject 0 [])
  | '\x7d' :: rest => .ok (.object [], rest)
  | '"' :: rest => do
    let (doc, rest) ← members value [] (rest.length + 1) rest
    .ok (.object doc, rest)
  | rest => .error (stop .keyNotString 1 rest)

/-- A value whose items, if it has any, are read by `inner`; without it brackets are too deep. -/
def valueWith (inner : Option (Scan Json)) (cs : List Char) : Except Stop (Json × List Char) :=
  match skipGaps cs with
  | [] => .error (stop .endInValue 0 [])
  | c :: cs =>
    match c with
    | 'n' => (.null, ·) <$> word ['u', 'l', 'l'] cs
    | 't' => (.bool true, ·) <$> word ['r', 'u', 'e'] cs
    | 'f' => (.bool false, ·) <$> word ['a', 'l', 's', 'e'] cs
    | '"' => (fun r => (.string r.1, r.2)) <$> stringRest [] cs
    | '[' =>
      match inner with
      | some item => arrayRest item cs
      | none => .error (stop .tooDeep 1 (c :: cs))
    | '\x7b' =>
      match inner with
      | some value => objectRest value cs
      | none => .error (stop .tooDeep 1 (c :: cs))
    | c =>
      if c = '-' ∨ c.isDigit then (fun r => (.number r.1, r.2)) <$> scanNumber (c :: cs)
      else .error (stop .wantedValue 1 (c :: cs))

/-- A value in which brackets nest at most `depth` levels. -/
def value : Nat → Scan Json
  | 0 => valueWith none
  | depth + 1 => valueWith (some (value depth))

/-- How many levels arrays and objects may nest. -/
def maxDepth : Nat := 127

/-- The value of a text. -/
def parse (text : List Char) : Except Fault Json := readAll (value maxDepth) text

end DocClient.Json
