import DocClient.Console.Client

/-! Consoles that follow a script: a reaction for each line by its number, and a way to end. -/
namespace DocClient.Script

open Text (Bytes)

inductive TerminalEnding where
  | goOn
  | exit (code : UInt8)
  | hang
  /-- Closes the input before the output is written, and hangs. -/
  | closeInput
  deriving DecidableEq, Repr

structure TerminalAction where
  stdout : Bytes := []
  stderr : Bytes := []
  /-- Whether the line itself is printed too. -/
  echo : Bool := false
  ending : TerminalEnding := .goOn
  deriving DecidableEq, Repr

namespace TerminalAction

/-- What the action does, given the line it answers. -/
def deeds (a : TerminalAction) (line : Bytes) : List Deed :=
  (if a.ending = .closeInput then [.closeInput] else [])
    ++ [.stdout (a.stdout ++ if a.echo then line ++ [Child.lineFeed] else []), .stderr a.stderr]
    ++ match a.ending with
      | .goOn => []
      | .exit code => [.exit code]
      | .hang | .closeInput => [.stopReading]

end TerminalAction

/-- What the quit line does. -/
inductive QuitRule where
  | exit (code : UInt8)
  /-- It is a line like any other. -/
  | echo
  | hang
  deriving DecidableEq, Repr

structure Terminal where
  banner : TerminalAction := {}
  /-- The actions for the first lines; where one is missing the usual one is done. -/
  replies : List (Option TerminalAction) := []
  usual : TerminalAction := { echo := true }
  quit : QuitRule := .exit 0
  /-- Whether it lives on at the end of its input. -/
  ignoresEnd : Bool := false
  deriving DecidableEq, Repr

namespace Terminal

def isQuit (t : Terminal) (line : Bytes) : Bool :=
  t.quit ≠ .echo && line == Text.utf8 Pipe.quitLine

def actionFor (t : Terminal) (number : Nat) : TerminalAction :=
  (t.replies[number]?.join).getD t.usual

def deedsFor (t : Terminal) (before : List Bytes) (line : Bytes) : List Deed :=
  if t.isQuit line then
    match t.quit with
    | .exit code => [.exit code]
    | .echo | .hang => [.stopReading]
  else (t.actionFor (before.countP fun l => !t.isQuit l)).deeds line

def console (t : Terminal) : Console where
  start := .atOnce (t.banner.deeds [])
  answer heard := .atOnce <|
    match heard.getLast? with
    | some line => t.deedsFor heard.dropLast line
    | none => []
  atEnd := .atOnce [if t.ignoresEnd then .stopReading else .exit 0]

end Terminal

/-- Files that exist and cannot be run. -/
def unrunnable : List String := ["/", "/etc/passwd"]

/-- Why a path cannot be run where nothing can. -/
def launchFault (path : String) : SystemFault :=
  if path.toList.contains '\x00' then .nulInPath
  else if unrunnable.contains path then .permissionDenied
  else .notFound

end DocClient.Script
