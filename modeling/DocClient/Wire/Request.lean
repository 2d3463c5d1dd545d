import DocClient.Json.Record

/-!
Requests to the server: a keyword and, for some, a text. A request travels as one line of JSON,
`line`, and `decode` takes it back.
-/
namespace DocClient

inductive Keyword where
  | login
  | query
  | fetch
  | debug
  | profile
  | quit
  deriving DecidableEq, Repr

namespace Keyword

def all : List Keyword := [login, query, fetch, debug, profile, quit]

def text : Keyword → String
  | login => "LOGIN"
  | query => "QUERY"
  | fetch => "FETCH"
  | debug => "DEBUG"
  | profile => "PROFILE"
  | quit => "QUIT"

def ofText? (text : String) : Option Keyword := all.find? fun k => k.text = text

theorem ofText?_text (k : Keyword) : ofText? k.text = some k := by
  cases k <;> decide

end Keyword

structure Request where
  keyword : Keyword
  data : Option String
  deriving DecidableEq, Repr

namespace Request

def login (data : String) : Request := ⟨.login, some data⟩

def query (line : String) : Request := ⟨.query, some line⟩

def fetch : Request := ⟨.fetch, none⟩

def debug (enable : Bool) : Request := ⟨.debug, some (if enable then "true" else "false")⟩

def profile : Request := ⟨.profile, none⟩

def quit : Request := ⟨.quit, none⟩

def toJson (r : Request) : Json :=
  .object (("Command", .string r.keyword.text) :: r.data.toList.map fun d => ("Data", .string d))

/-- The request as one line of text, without the delimiter. -/
def line (r : Request) : String := r.toJson.render

end Request

namespace Keyword

open Json

def unknown (text : String) : Reason :=
  .unsuitable ("unknown variant `" ++ text ++ "`, expected one of "
    ++ ", ".intercalate (all.map fun k => "`" ++ k.text ++ "`"))

/-- The keyword of a text that has just been read, `rest` being what comes after it. -/
def named (text : String) (rest : List Char) : Except Stop (Keyword × List Char) :=
  match ofText? text with
  | some k => .ok (k, rest)
  | none => .error (stop (unknown text) 0 rest)

/-- The key of an object that must have one. -/
def readKey (cs : List Char) : Except Stop (String × List Char) :=
  match skipGaps cs with
  | [] => .error (stop .endInObject 0 [])
  | '"' :: rest => stringRest [] rest
  | '\x7d' :: rest => .error (stop .wantedValue 1 ('\x7d' :: rest))
  | rest => .error (stop .keyNotString 1 rest)

def readNull (cs : List Char) : Except Stop (List Char) :=
  match skipGaps cs with
  | 'n' :: rest => word ['u', 'l', 'l'] rest
  | rest => .error (wrongType "unit" rest)

/-- A keyword is a string, or an object with the keyword as its only key and `null` as value. -/
def read (cs : List Char) : Except Stop (Keyword × List Char) :=
  match skipGaps cs with
  | [] => .error (stop .endInValue 0 [])
  | '"' :: rest => do
    let (text, rest) ← stringRest [] rest
    named text rest
  | '\x7b' :: rest => do
    let (text, rest) ← readKey rest
    let (k, rest) ← named text rest
    let rest ← readNull (← colon rest)
    match skipGaps rest with
    | [] => .error (stop .endInObject 0 [])
    | '\x7d' :: rest => .ok (k, rest)
    | rest => .error (stop .wantedValue 0 rest)
  | rest => .error (stop .wantedValue 1 rest)

end Keyword

namespace Request

open Json

/-- What has been read of a request so far. -/
structure Parts where
  keyword : Option Keyword
  data : Option (Option String)

def record : Record Parts Request where
  title := "Request"
  members :=
    [{ name := "Command", spellings := ["Command"], required := true,
       isSet := fun p => p.keyword.isSome
       read := fun cs =>
        (fun r => ((fun p : Parts => { p with keyword := some r.1 }), r.2)) <$> Keyword.read cs },
     { name := "Data", spellings := ["Data"], required := false,
       isSet := fun p => p.data.isSome
       read := fun cs =>
        (fun r => ((fun p : Parts => { p with data := some r.1 }), r.2)) <$>
          scanOption (scanString "a string") cs }]
  empty := ⟨none, none⟩
  finish p :=
    match p.keyword with
    | some k => .ok ⟨k, p.data.join⟩
    | none => .error "Command"

def decode (text : String) : Except Fault Request := readAll record.read text.toList

end Request

end DocClient
