import DocClient.Plan
import DocClient.SystemFault
import DocClient.Text.Frame

/-!
A connection as the client meets it: a server that hears the client's lines and reacts to each,
and the bytes on their way back with the moments of their arrival. The server may react in any
way; the link keeps a transcript of what the client wrote and took.
-/
namespace DocClient

open Text (Bytes)

inductive Emission where
  | bytes (bs : Bytes)
  /-- The server writes nothing more. -/
  | hangUp
  /-- The connection breaks; nothing can be written to it either. -/
  | reset
  deriving DecidableEq, Repr

structure Server where
  accept : Plan Emission
  /-- The reaction to the last of the lines heard so far. -/
  answer : List Bytes → Plan Emission

/-- One step of the client on the wire. -/
inductive Transfer where
  | wrote (frame : Bytes)
  /-- A complete line was taken, shown here without its delimiter. -/
  | took (line : Bytes)
  deriving DecidableEq, Repr

structure Link where
  server : Server
  delimiter : UInt8
  clock : Nat
  /-- What is on its way to the client or waits for it. -/
  inbox : Schedule Emission
  heard : List Bytes := []
  halfLine : Bytes := []
  transcript : List Transfer := []
  /-- Whether the client has ended its half, where the server reads the end of the stream. -/
  shut : Bool := false

/-- How long a client waits: its own timer, and the patience of the caller. -/
structure Window where
  timer : Option Nat := none
  patience : Option Nat := none
  deriving DecidableEq, Repr

inductive Reading where
  | line (content : Bytes)
  | overlong
  /-- The stream ended, with or without bytes of an unfinished line. -/
  | ended (midLine : Bool)
  | reset
  /-- The timer ran out first. -/
  | expired
  /-- The caller went away first, or nothing will ever come. -/
  | unfinished
  deriving DecidableEq, Repr

namespace Window

/-- The moment at which waiting stops, and what it then comes to. -/
def stop (w : Window) : Option (Nat × Reading) :=
  match w.timer, w.patience with
  | none, none => none
  | some t, none => some (t, .expired)
  | none, some p => some (p, .unfinished)
  | some t, some p => if t ≤ p then some (t, .expired) else some (p, .unfinished)

/-- The same, if waiting for something that happens at `moment` stops before it. -/
def stopBefore (w : Window) (moment : Nat) : Option (Nat × Reading) :=
  w.stop.filter fun stop => stop.1 ≤ moment

end Window

namespace Link

def start (server : Server) (delimiter : UInt8) (now : Nat) : Link :=
  { server, delimiter, clock := now, inbox := server.accept.begin now }

/-- Whether the connection has broken by now. -/
def isReset (l : Link) : Bool :=
  l.inbox.any fun arrival => arrival.1 ≤ l.clock && arrival.2 == .reset

/-- The moment from which the server can write next. -/
def free (l : Link) : Nat :=
  match l.inbox.getLast? with
  | some (moment, _) => max l.clock moment
  | none => l.clock

/-- The server hears a line and reacts. -/
def hear (l : Link) (line : Bytes) : Link :=
  if l.isReset then l
  else
    let heard := l.heard ++ [line]
    { l with heard, inbox := l.inbox ++ (l.server.answer heard).begin l.free }

/-- The client writes a frame. -/
def write (frame : Bytes) (l : Link) : Except SystemFault Unit × Link :=
  if l.isReset then (.error .connectionReset, l)
  else
    let (lines, rest) := Text.frames l.delimiter (l.halfLine ++ frame)
    let l := { l with halfLine := rest, transcript := l.transcript ++ [.wrote frame] }
    (.ok (), lines.foldl hear l)

/-- Where a stretch of bytes meets the delimiter or the end of the room for a line. -/
inductive Cut where
  | found (content rest : Bytes)
  | full
  | short
  deriving DecidableEq, Repr

def cut (delimiter : UInt8) : Nat → Bytes → Cut
  | 0, _ => .full
  | _ + 1, [] => .short
  | room + 1, b :: bs =>
    if b = delimiter then .found [] bs
    else
      match cut delimiter room bs with
      | .found content rest => .found (b :: content) rest
      | .full => .full
      | .short => .short

/-- Takes bytes as they come until a line is complete, `room` bytes have been seen, the delimiter
among them, or waiting stops. Gives the moment, and what is left on the way. -/
def gather (delimiter : UInt8) (w : Window) (now room : Nat) (taken : Bytes) :
    Schedule Emission → Reading × Nat × Schedule Emission
  | [] =>
    match w.stop with
    | some (moment, reading) => (reading, max now moment, [])
    | none => (.unfinished, now, [])
  | (moment, emission) :: rest =>
    match w.stopBefore moment with
    | some (stop, reading) => (reading, max now stop, (moment, emission) :: rest)
    | none =>
      match emission with
      | .bytes bs =>
        match cut delimiter room bs with
        | .found content left =>
          (.line (taken ++ content), max now moment, (moment, .bytes left) :: rest)
        | .full => (.overlong, max now moment, rest)
        | .short => gather delimiter w (max now moment) (room - bs.length) (taken ++ bs) rest
      | .hangUp => (.ended (!taken.isEmpty), max now moment, (moment, .hangUp) :: rest)
      | .reset => (.reset, max now moment, (moment, .reset) :: rest)

/-- Reads one line of at most `room` bytes, its delimiter among them. Where there is no room at all
nothing is read, and that looks like the end of the stream. -/
def read (room : Nat) (w : Window) (l : Link) : Reading × Link :=
  if room = 0 then (.ended false, l)
  else
    let (reading, clock, inbox) := gather l.delimiter w l.clock room [] l.inbox
    let l := { l with clock, inbox }
    match reading with
    | .line content => (.line content, { l with transcript := l.transcript ++ [.took content] })
    | reading => (reading, l)

/-- The client ends its half of the connection, unless that has broken. -/
def shutDown (l : Link) : Except SystemFault Unit × Link :=
  (if l.isReset then .error .notConnected else .ok (), { l with shut := l.shut || !l.isReset })

end Link

end DocClient
