import DocClient.Command
import DocClient.Console.Pipe

/-!
A client that drives a local console. It has no login and no replies: the answer to a command is
what the console printed while the command settled.
-/
namespace DocClient

structure ConsoleClient where
  pipe : Pipe
  isOpen : Bool := true

namespace ConsoleClient

inductive Answer where
  | output (w : OutputWindow)
  | opened
  | done
  | failed (f : Failure)
  /-- The caller went away before the output had settled. -/
  | unfinished
  deriving DecidableEq, Repr

inductive Call where
  | command (c : Command)
  | execute (s : Statement)
  | raw (line : String)
  | probe
  | close

def note (message : String) (fields : List (String × String)) (s : ConsoleClient) :
    ConsoleClient :=
  { s with pipe :=
      { s.pipe with journal := s.pipe.journal ++ [.note ⟨.info, .console, message, fields⟩] } }

/-- How an executable starts: as a console, or not at all. -/
abbrev Launch := Except SystemFault Console

/-- The pipe to an executable, which messages call `label`. -/
def launch (settings : ConsoleSettings) (label : String) (console : Launch) : Except Failure Pipe :=
  match console with
  | .ok console => .ok (.spawn settings label console)
  | .error fault =>
    .error (.connection ("Failed to spawn " ++ label ++ ": " ++ fault.message))

def spawn (settings : ConsoleSettings) (label : String) (console : Launch) :
    Except Failure ConsoleClient := do
  let pipe ← launch settings label console
  .ok ({ pipe : ConsoleClient }.note "ProtonDB shell started"
    [("executable", label), ("settle_ms", toString settings.settleTime.milliseconds)])

/-- A line break would make two console lines of one command. -/
def isSingleLine (line : String) : Bool := line.toList.all fun c => !(c == '\n' || c == '\r')

/-- Sends a line and takes the output, unless the caller's patience ends first. -/
def send (line : String) (patience : Option Nat) (s : ConsoleClient) : Answer × ConsoleClient :=
  if !s.isOpen then (.failed .closed, s)
  else if !isSingleLine line then
    (.failed (.invalidArgument "shell commands must be a single line"), s)
  else
    match s.pipe.ask line with
    | (.error f, pipe) => (.failed f, { s with pipe })
    | (.ok (), pipe) =>
      match patience.filter (· < pipe.settled) with
      | some moment => (.unfinished, { s with pipe := pipe.advance moment })
      | none =>
        let (lines, pipe) := pipe.harvest
        (.output ⟨lines⟩, { s with pipe })

def close (s : ConsoleClient) : ConsoleClient :=
  if s.isOpen then { s with isOpen := false, pipe := s.pipe.close }.note "ProtonDB shell stopped" []
  else s

/-- Carries out a call. A closed client says so before any argument is looked at. -/
def call (c : Call) (patience : Option Nat) (s : ConsoleClient) : Answer × ConsoleClient :=
  match c with
  | .raw line => s.send line patience
  | .execute statement => s.send statement.line patience
  | .probe => (if s.isOpen then .opened else .failed .closed, s)
  | .close => (.done, s.close)
  | .command command =>
    if !s.isOpen then (.failed .closed, s)
    else
      match command.statement with
      | .error f => (.failed f, s)
      | .ok statement => s.send statement.line patience

end ConsoleClient

end DocClient
