import DocClient.Console.Child
import DocClient.Console.Output
import DocClient.Failure
import DocClient.Journal
import DocClient.Settings
import DocClient.SystemFault

/-!
The parent's side of a console process: lines go to its input, and for each of its two outputs a
reader takes the lines that come. There are no replies; an exchange clears the buffer, writes a
line, lets the output settle and takes what has come.
-/
namespace DocClient

open Text (Bytes)

/-- How far a reader has got. -/
inductive Phase where
  | waiting
  /-- At work on what has come. -/
  | busy
  | stopped
  deriving DecidableEq, Repr

/-- The reader of an output: a task of its own, which goes on until the output ends or cannot be
read, or until it is told to stop. -/
structure Reader where
  phase : Phase := .waiting
  /-- What it has of an unfinished line. -/
  tail : Bytes := []
  deriving DecidableEq, Repr

namespace Reader

/-- What a reader does besides taking lines. -/
inductive Act where
  | wake
  /-- Waits for more, with what it has of an unfinished line. -/
  | rest (tail : Bytes)
  /-- Has come to the end of the output. -/
  | finish
  | fail (fault : SystemFault)
  /-- Is dropped where it waits. -/
  | drop
  deriving DecidableEq, Repr

/-- What becomes of a reader, if it can do this. One that has been told to stop is not woken any
more, but one that is at work goes on until it would wait. -/
def act? (told : Bool) (r : Reader) : Act → Option Reader
  | .wake => if r.phase = .waiting ∧ told = false then some { r with phase := .busy } else none
  | .rest tail => if r.phase = .busy then some { phase := .waiting, tail } else none
  | .finish | .fail _ => if r.phase = .busy then some { phase := .stopped } else none
  | .drop => if r.phase = .waiting ∧ told = true then some { phase := .stopped } else none

end Reader

structure Pipe where
  label : String
  settleTime : Duration
  grace : Duration
  child : Child
  clock : Nat := 0
  /-- Whether the parent still holds the writing end of the input. -/
  inputOpen : Bool := true
  stdoutReader : Reader := {}
  stderrReader : Reader := {}
  /-- Whether the readers have been told to stop. -/
  readersTold : Bool := false
  buffer : OutputBuffer := {}
  journal : Journal := []

namespace Pipe

def record (e : Event) (p : Pipe) : Pipe := { p with journal := p.journal ++ [.event e] }

def note (level : Level) (message : String) (fields : List (String × String)) (p : Pipe) : Pipe :=
  { p with journal :=
      p.journal ++ [.note ⟨level, .pipe, message, ("process", p.label) :: fields⟩] }

/-- A line of output: without a carriage return at its end, ill-formed bytes replaced. -/
def lineOf (frame : Bytes) : String := Text.decodeLenient (Text.dropReturn frame)

def takeLine (p : Pipe) (line : String) : Pipe :=
  { p.record (.received line) with buffer := p.buffer.push line }

def takeErrorLine (p : Pipe) (line : String) : Pipe := p.record (.stderr line)

/-- Takes a line of an output. -/
def read (o : Outlet) (p : Pipe) (line : String) : Pipe :=
  match o with
  | .standard => p.takeLine line
  | .error => p.takeErrorLine line

def reader (p : Pipe) : Outlet → Reader
  | .standard => p.stdoutReader
  | .error => p.stderrReader

def withReader (o : Outlet) (r : Reader) (p : Pipe) : Pipe :=
  match o with
  | .standard => { p with stdoutReader := r }
  | .error => { p with stderrReader := r }

/-- Whether what comes out is read. -/
def listens (p : Pipe) (o : Outlet) : Bool :=
  (p.reader o).phase = .waiting && !p.readersTold

/-- That the standard output cannot be read is noted. -/
def noteFault (o : Outlet) (a : Reader.Act) (p : Pipe) : Pipe :=
  match o, a with
  | .standard, .fail fault =>
    { p with journal := p.journal ++
        [.note ⟨.debug, .pipe, "stdout reader stopped", [("error", fault.message)]⟩] }
  | _, _ => p

/-- What the reader of an output does besides taking lines, if it can. -/
def tend? (o : Outlet) (a : Reader.Act) (p : Pipe) : Option Pipe :=
  ((p.reader o).act? p.readersTold a).map fun r => (p.withReader o r).noteFault o a

/-- The reader of an output wakes, takes the lines of what has come, and waits again with the bytes
after the last of them. -/
def take (p : Pipe) (chunk : Chunk) : Pipe :=
  if p.listens chunk.outlet then
    let (lines, tail) := Text.frames Child.lineFeed ((p.reader chunk.outlet).tail ++ chunk.bytes)
    ((lines.map lineOf).foldl (read chunk.outlet) p).withReader chunk.outlet { tail }
  else p

/-- The bytes after the last line of an output, as a line of their own if there are any. -/
def rests (p : Pipe) (o : Outlet) : List String :=
  if (p.reader o).tail = [] then [] else [lineOf (p.reader o).tail]

/-- The reader of an output comes to its end, where its last bytes count as a line. -/
def takeTail (o : Outlet) (p : Pipe) : Pipe :=
  if p.listens o then ((p.rests o).foldl (read o) p).withReader o { phase := .stopped } else p

def takeTails (p : Pipe) : Pipe := (p.takeTail .standard).takeTail .error

/-- Lets time pass up to a moment. -/
def advance (moment : Nat) (p : Pipe) : Pipe :=
  let (child, out) := p.child.run moment
  let p := out.foldl take { p with child, clock := max p.clock moment }
  if child.hasEnded then p.takeTails else p

/-- Lets everything happen that happens at once. -/
def settle (p : Pipe) : Pipe := p.advance p.clock

def spawn (settings : ConsoleSettings) (label : String) (console : Console) : Pipe :=
  let p : Pipe :=
    { label, settleTime := settings.settleTime, grace := settings.grace
      child := .start console 0 }
  p.record (.connected label)

def hasEnded (p : Pipe) : Bool := p.child.hasEnded

/-- Writes a line, if there is still someone to read it. -/
def send (line : String) (p : Pipe) : Except Failure Unit × Pipe :=
  if p.hasEnded then (.error .channelClosed, { p with inputOpen := false })
  else if !p.inputOpen then (.error .channelClosed, p)
  else if !p.child.inputOpen then
    (.error .channelClosed,
      { p.note .debug "stdin write failed" [("error", SystemFault.brokenPipe.message)] with
        inputOpen := false })
  else
    let child := p.child.write p.clock (Text.utf8 line ++ [Child.lineFeed])
    (.ok (), { p with child }.record (.sent line))

/-- Takes the lines that have come. -/
def collect (p : Pipe) : List String × Pipe :=
  let (lines, buffer) := p.buffer.drain
  (lines, { p with buffer })

/-- The first half of an exchange. -/
def ask (line : String) (p : Pipe) : Except Failure Unit × Pipe :=
  { p with buffer := p.buffer.clear }.send line

def settled (p : Pipe) : Nat := p.clock + p.settleTime.microseconds

/-- The second half: the lines that come while the output settles. -/
def harvest (p : Pipe) : List String × Pipe := (p.advance p.settled).collect

def exchange (line : String) (p : Pipe) : Except Failure (List String) × Pipe :=
  match p.ask line with
  | (.error f, p) => (.error f, p)
  | (.ok (), p) =>
    let (lines, p) := p.harvest
    (.ok lines, p)

/-- The line that ends a console. -/
def quitLine : String := ":q"

def askQuit (p : Pipe) : Pipe :=
  match p.send quitLine with
  | (.ok (), p) => p
  | (.error f, p) => p.note .debug "quit command not delivered" [("error", f.message)]

/-- Asks the console to quit, if it can still be asked. -/
def sendQuit (p : Pipe) : Pipe := if p.inputOpen && !p.hasEnded then p.askQuit else p

/-- Gives up the writing end of the input. -/
def endInput (p : Pipe) : Pipe :=
  { p with inputOpen := false, child := p.child.endInput p.clock }

def hangUp (p : Pipe) : Pipe := p.sendQuit.endInput

/-- When the grace is over that begins now. -/
def deadline (p : Pipe) : Nat := p.clock + p.grace.microseconds

/-- What has not ended is killed, and the readers are told to stop, for which nobody waits. -/
def retire (p : Pipe) : Pipe :=
  let p := match p.child.status with
    | some status => p.note .debug "process exited" [("status", status.text)]
    | none =>
      { p.note .debug "process still running after grace period, killing" [] with
        child := p.child.kill }
  { p with readersTold := true }.record (.closed p.label)

def close (p : Pipe) : Pipe := (p.hangUp.advance p.hangUp.deadline).retire

/-- Lets go of the console without a word. Its input ends and it is killed; its readers go on. -/
def abandon (p : Pipe) : Pipe := { p.endInput with child := (p.child.endInput p.clock).kill }

end Pipe

end DocClient
