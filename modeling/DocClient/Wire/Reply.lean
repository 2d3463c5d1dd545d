import DocClient.Failure
import DocClient.Json.Record
import DocClient.Text.Blank
import DocClient.Text.Clip

/-!
Replies of the server: a status and, if given, a message and a result. A reply line is read in
two steps, as any JSON value and then as a reply, so that faults of the second step are found in
the order of the keys; `decode` reads a reply straight from its text.
-/
namespace DocClient

structure Reply where
  status : String
  message : Option String
  result : Option Json

namespace Reply

open Json (Fault Scan)

/-- The status of success, in letters of either case. -/
def successStatus : String := "ok"

def succeeded (r : Reply) : Bool :=
  r.status.toList.map Char.toLower == successStatus.toList

/-- The message, unless it is empty. -/
def note (r : Reply) : Option String := r.message.filter fun m => !m.toList.isEmpty

/-- The result, unless it is `null`. -/
def value (r : Reply) : Option Json :=
  match r.result with
  | some .null => none
  | result => result

/-- A value as a line: a string as it is, anything else as JSON text. -/
def lineOf : Json → String
  | .string s => s
  | v => v.render

/-- The result as a list of lines. -/
def lines (r : Reply) : List String :=
  match r.value with
  | none => []
  | some (.array items) => items.map lineOf
  | some v => [lineOf v]

/-- Why a reply is no success: its message, or else its status. -/
def reason (r : Reply) : String :=
  match r.note with
  | some message => message
  | none => "status " ++ Text.quoted r.status

/-- The reply, or a failure if it reports one. -/
def succeed (r : Reply) : Except Failure Reply :=
  if r.succeeded then .ok r else .error (.server r.reason)

/-- The members present, in the order of the wire. -/
def toJson (r : Reply) : Json :=
  .object (("Status", .string r.status) :: (r.message.toList.map fun m => ("Message", .string m))
    ++ r.result.toList.map fun v => ("Result", v))

/-- The reply as one line of text. -/
def line (r : Reply) : String := r.toJson.render

inductive Field where
  | status
  | message
  | result
  deriving DecidableEq, Repr

namespace Field

def name : Field → String
  | status => "Status"
  | message => "Message"
  | result => "Result"

def spellings : Field → List String
  | status => ["Status", "status"]
  | message => ["Message", "message"]
  | result => ["Result", "result"]

def ofKey? (key : String) : Option Field :=
  [status, message, result].find? fun f => f.spellings.contains key

end Field

/-- What has been read of a reply so far. -/
structure Parts where
  status : Option String
  message : Option (Option String)
  result : Option (Option Json)

namespace Parts

def empty : Parts := ⟨none, none, none⟩

def has (p : Parts) : Field → Bool
  | .status => p.status.isSome
  | .message => p.message.isSome
  | .result => p.result.isSome

/-- The reply, or the name of the member it lacks. -/
def finish (p : Parts) : Except String Reply :=
  match p.status with
  | some status => .ok ⟨status, p.message.join, p.result.join⟩
  | none => .error Field.status.name

end Parts

/-- Why an object is no reply. -/
inductive Misfit where
  | duplicate (field : Field)
  | notString (found : Json)
  | missingStatus

namespace Misfit

def text : Misfit → String
  | duplicate field => Json.duplicateField field.name
  | notString found => Json.invalidType found.described "a string"
  | missingStatus => Json.missingField Field.status.name

end Misfit

/-- Takes a member's value into the parts. -/
def Parts.put (p : Parts) (field : Field) (v : Json) : Except Misfit Parts :=
  match field, v with
  | .status, .string s => .ok { p with status := some s }
  | .status, v => .error (.notString v)
  | .message, .string s => .ok { p with message := some (some s) }
  | .message, .null => .ok { p with message := some none }
  | .message, v => .error (.notString v)
  | .result, .null => .ok { p with result := some none }
  | .result, v => .ok { p with result := some (some v) }

def collect (p : Parts) : Document → Except Misfit Parts
  | [] => .ok p
  | (key, v) :: rest =>
    match Field.ofKey? key with
    | none => collect p rest
    | some field =>
      if p.has field then .error (.duplicate field)
      else do collect (← p.put field v) rest

def ofDocument (doc : Document) : Except Misfit Reply := do
  match (← collect .empty doc).finish with
  | .ok r => .ok r
  | .error _ => .error .missingStatus

/-- How many bytes of a line a message shows. -/
def shownBytes : Nat := 120

/-- The beginning of a line that a message shows. There always is one. -/
def excerpt (line : String) : String := (Text.clip? shownBytes line).getD ""

def malformed (line detail : String) : Failure :=
  .protocol ("malformed response " ++ Text.quoted (excerpt line) ++ ": " ++ detail)

def parse (line : String) : Except Failure Reply :=
  match Json.parse (Text.trim line.toList) with
  | .error fault => .error (malformed line fault.message)
  | .ok (.object doc) =>
    match ofDocument doc with
    | .ok r => .ok r
    | .error misfit => .error (malformed line misfit.text)
  | .ok _ => .error (.protocol ("expected a JSON object, got " ++ Text.quoted (excerpt line)))

section Decode

open Json

def member (field : Field) (required : Bool) (read : Scan (Parts → Parts)) : Member Parts where
  name := field.name
  spellings := field.spellings
  required := required
  isSet p := p.has field
  read := read

def record : Record Parts Reply where
  title := "Response"
  members :=
    [member .status true fun cs =>
      (fun r => ((fun p : Parts => { p with status := some r.1 }), r.2)) <$>
        scanString "a string" cs,
     member .message false fun cs =>
      (fun r => ((fun p : Parts => { p with message := some r.1 }), r.2)) <$>
        scanOption (scanString "a string") cs,
     member .result false fun cs =>
      (fun r => ((fun p : Parts => { p with result := some r.1 }), r.2)) <$>
        scanOption (Json.value (maxDepth - 1)) cs]
  empty := .empty
  finish := Parts.finish

def decode (text : String) : Except Fault Reply := readAll record.read text.toList

end Decode

end Reply

end DocClient
