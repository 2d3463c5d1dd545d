import DocClient.Plan
import DocClient.Text.Frame

/-!
A console process as its parent meets it: it reads lines, reacts to each one after the other, and
at some moment may end. What it does is given by a `Console`, which may react in any way.
-/
namespace DocClient

open Text (Bytes)

inductive Deed where
  | stdout (bytes : Bytes)
  | stderr (bytes : Bytes)
  /-- Closes its own end of the input, so that writing to it fails. -/
  | closeInput
  /-- Lives on, but takes no more input. -/
  | stopReading
  | exit (code : UInt8)
  deriving DecidableEq, Repr

structure Console where
  start : Plan Deed
  /-- The reaction to the last of the lines read so far. -/
  answer : List Bytes → Plan Deed
  /-- What it does at the end of its input. -/
  atEnd : Plan Deed

inductive ExitStatus where
  | code (n : UInt8)
  | killed
  deriving DecidableEq, Repr

namespace ExitStatus

def text : ExitStatus → String
  | code n => "exit status: " ++ toString n.toNat
  | killed => "signal: 9 (SIGKILL)"

end ExitStatus

/-- An output of a console. -/
inductive Outlet where
  | standard
  | error
  deriving DecidableEq, Repr

/-- Bytes that it wrote to one of its outputs. -/
inductive Chunk where
  | stdout (bytes : Bytes)
  | stderr (bytes : Bytes)
  deriving DecidableEq, Repr

namespace Chunk

def outlet : Chunk → Outlet
  | .stdout _ => .standard
  | .stderr _ => .error

def bytes : Chunk → Bytes
  | .stdout bytes | .stderr bytes => bytes

end Chunk

structure Child where
  console : Console
  /-- The moment of the last thing it did. -/
  clock : Nat
  agenda : Schedule Deed
  /-- Lines written to it and not yet read, each with the moment of its arrival. -/
  queue : List (Nat × Bytes) := []
  halfLine : Bytes := []
  /-- When the parent closed the input. -/
  inputEnd : Option Nat := none
  sawEnd : Bool := false
  reading : Bool := true
  inputOpen : Bool := true
  heard : List Bytes := []
  status : Option ExitStatus := none

namespace Child

/-- The byte that ends a console line. -/
def lineFeed : UInt8 := 0x0A

def start (console : Console) (now : Nat) : Child :=
  { console, clock := now, agenda := console.start.begin now }

def hasEnded (c : Child) : Bool := c.status.isSome

/-- Does everything on the agenda up to a moment. -/
def act (limit : Nat) (c : Child) : Schedule Deed → Child × List Chunk
  | [] => ({ c with agenda := [] }, [])
  | (moment, deed) :: rest =>
    if limit < moment then ({ c with agenda := (moment, deed) :: rest }, [])
    else
      let c := { c with clock := max c.clock moment }
      match deed with
      | .stdout bytes =>
        let (c, out) := act limit c rest
        (c, .stdout bytes :: out)
      | .stderr bytes =>
        let (c, out) := act limit c rest
        (c, .stderr bytes :: out)
      | .closeInput => act limit { c with inputOpen := false } rest
      | .stopReading => act limit { c with reading := false } rest
      | .exit code => ({ c with agenda := [], status := some (.code code) }, [])

/-- Whether it would read a line now. -/
def isIdle (c : Child) : Bool := c.agenda.isEmpty && c.reading && !c.hasEnded

/-- Takes up the lines of the queue one after the other, as far as it gets by the limit. -/
def serve (limit : Nat) (c : Child) : List (Nat × Bytes) → Child × List Chunk
  | [] => ({ c with queue := [] }, [])
  | (arrival, line) :: more =>
    if c.isIdle then
      let heard := c.heard ++ [line]
      let c := { c with heard }
      let (c, out) := act limit c ((c.console.answer heard).begin (max c.clock arrival))
      let (c, later) := serve limit c more
      (c, out ++ later)
    else ({ c with queue := (arrival, line) :: more }, [])

/-- Reacts once to the end of the input. -/
def meetEnd (limit : Nat) (c : Child) : Child × List Chunk :=
  match c.inputEnd with
  | none => (c, [])
  | some moment =>
    if c.isIdle && c.queue.isEmpty && !c.sawEnd then
      act limit { c with sawEnd := true } (c.console.atEnd.begin (max c.clock moment))
    else (c, [])

/-- Everything that it does up to a moment, with its output in order. When it has ended it does
nothing more. -/
def run (limit : Nat) (c : Child) : Child × List Chunk :=
  if c.hasEnded then (c, [])
  else
    let (c, first) := c.act limit c.agenda
    let (c, second) := c.serve limit c.queue
    let (c, third) := c.meetEnd limit
    (c, first ++ second ++ third)

/-- Bytes arrive at its input. -/
def write (now : Nat) (bytes : Bytes) (c : Child) : Child :=
  let (lines, rest) := Text.frames lineFeed (c.halfLine ++ bytes)
  { c with queue := c.queue ++ lines.map fun line => (now, line), halfLine := rest }

def endInput (now : Nat) (c : Child) : Child :=
  { c with inputEnd := some (c.inputEnd.getD now) }

def kill (c : Child) : Child :=
  if c.hasEnded then c else { c with status := some .killed, agenda := [] }

end Child

end DocClient
