import DocClient.Channel.Link
import DocClient.Failure
import DocClient.Journal

/-!
The client's end of a connection: it sends and receives lines, tells the journal of each, and is
of no more use after the first fault of the stream.
-/
namespace DocClient

open Text (Bytes)

structure Endpoint where
  peer : String
  maxLineBytes : UInt64
  link : Link
  closed : Bool := false
  journal : Journal := []

inductive ChannelFault where
  | writeFailed (cause : SystemFault)
  | readFailed (cause : SystemFault)
  | closeFailed (cause : SystemFault)
  | closedByPeer
  | closedMidLine
  | overlong
  | notUtf8 (fault : Text.Utf8Fault)
  deriving DecidableEq, Repr

/-- Why an exchange over a channel did not come to its end. -/
inductive Halt where
  | failed (f : Failure)
  | expired
  | unfinished
  deriving DecidableEq, Repr

/-- A conversation over an endpoint, which may halt. -/
abbrev Exchange := ExceptT Halt (StateM Endpoint)

namespace Endpoint

def failure (e : Endpoint) : ChannelFault → Failure
  | .writeFailed cause => .transport ("Write to " ++ e.peer ++ " failed: " ++ cause.message)
  | .readFailed cause => .transport ("Read from " ++ e.peer ++ " failed: " ++ cause.message)
  | .closeFailed cause => .transport ("Shutdown of " ++ e.peer ++ " failed: " ++ cause.message)
  | .closedByPeer => .transport ("Connection closed by " ++ e.peer)
  | .closedMidLine => .transport ("Connection closed by " ++ e.peer ++ " mid-message")
  | .overlong => .protocol ("Response exceeds " ++ toString e.maxLineBytes.toNat ++ " bytes")
  | .notUtf8 fault => .protocol ("Response is not valid UTF-8: " ++ fault.message)

def record (event : Event) (e : Endpoint) : Endpoint :=
  { e with journal := e.journal ++ [.event event] }

def note (n : Note) (e : Endpoint) : Endpoint := { e with journal := e.journal ++ [.note n] }

/-- The frame of a line: its bytes and the delimiter. -/
def frame (e : Endpoint) (line : String) : Bytes := Text.utf8 line ++ [e.link.delimiter]

/-- Sends a line, of which the journal shows `shown`. -/
def send (line shown : String) (e : Endpoint) : Except Halt Unit × Endpoint :=
  if e.closed then (.error (.failed .channelClosed), e)
  else
    match e.link.write (e.frame line) with
    | (.ok (), link) => (.ok (), { e with link }.record (.sent shown))
    | (.error cause, link) =>
      (.error (.failed (e.failure (.writeFailed cause))), { e with link, closed := true })

/-- The text of a line received, unless it is not UTF-8. -/
def accept (content : Bytes) (e : Endpoint) : Except Halt String × Endpoint :=
  match Text.decode (Text.dropReturn content) with
  | .ok line => (.ok line, e.record (.received line))
  | .error fault => (.error (.failed (e.failure (.notUtf8 fault))), e)

/-- Gives the channel up because of a fault of the stream. -/
def giveUp (fault : ChannelFault) (e : Endpoint) : Except Halt String × Endpoint :=
  (.error (.failed (e.failure fault)), { e with closed := true })

/-- What a reading comes to. A line that is not UTF-8 is used up; after any other fault the stream
can no longer be framed. -/
def digest : Reading → Endpoint → Except Halt String × Endpoint
  | .line content, e => e.accept content
  | .overlong, e => e.giveUp .overlong
  | .ended true, e => e.giveUp .closedMidLine
  | .ended false, e => e.giveUp .closedByPeer
  | .reset, e => e.giveUp (.readFailed .connectionReset)
  | .expired, e => (.error .expired, e)
  | .unfinished, e => (.error .unfinished, e)

/-- The room for a line and its delimiter, counted in a word: there is none after the largest
limit. -/
def room (e : Endpoint) : Nat := (e.maxLineBytes + 1).toNat

/-- Waits for one line. -/
def receive (w : Window) (e : Endpoint) : Except Halt String × Endpoint :=
  if e.closed then (.error (.failed .channelClosed), e)
  else
    let (reading, link) := e.link.read e.room w
    { e with link }.digest reading

/-- Shuts the channel down, unless it has been given up already. -/
def close (e : Endpoint) : Except Failure Unit × Endpoint :=
  if e.closed then (.ok (), e)
  else
    let (outcome, link) := e.link.shutDown
    (outcome.mapError fun cause => e.failure (.closeFailed cause),
      { e with link, closed := true }.record (.closed e.peer))

/-- The same, where nobody asks for the outcome but the log. -/
def closeQuietly (source : Source) (message : String) (e : Endpoint) : Endpoint :=
  match e.close with
  | (.ok (), e) => e
  | (.error f, e) => e.note ⟨.debug, source, message, [("error", f.message)]⟩

/-- The channel goes out of use, which ends the connection if nothing has before. -/
def release (e : Endpoint) : Endpoint := { e with link := e.link.shutDown.2 }

end Endpoint

namespace Exchange

def send (line shown : String) : Exchange Unit := fun e => e.send line shown

def receive (w : Window) : Exchange String := fun e => e.receive w

def check {α : Type} (r : Except Failure α) : Exchange α :=
  match r with
  | .ok a => pure a
  | .error f => throw (.failed f)

end Exchange

end DocClient
