import DocClient.Login.Handshake
import DocClient.Statement.Line

/-!
The client of a server. It holds its connection in a slot; a request and its reply are one round
trip, and no second request is written before the reply to the first has been read. A round trip
that ends without its reply leaves the connection of no use, and the slot is emptied.
-/
namespace DocClient

/-- What the client keeps with a connection that it holds. -/
structure Hold where
  /-- The database selected last. -/
  database : Option Name := none
  /-- Set while a reply is owed; still set when the caller of a round trip went away. -/
  replyOwed : Bool := false
  deriving DecidableEq

structure Client where
  session : Session
  wire : WireConventions
  requestLimit : Option Duration
  endpoint : Endpoint
  slot : Option Hold

namespace Client

/-- What a call comes to. -/
inductive Answer where
  | reply (r : Reply)
  | opened
  | done
  | failed (f : Failure)
  /-- The caller went away, or still waits. -/
  | unfinished

def isClosed (c : Client) : Bool := c.slot.isNone

def selectedDatabase (c : Client) : Option Name := c.slot.bind Hold.database

def note (level : Level) (message : String) (fields : List (String × String)) (c : Client) :
    Client :=
  { c with endpoint := c.endpoint.note ⟨level, .client, message, fields⟩ }

/-- Nobody holds the channel any more. -/
def release (c : Client) : Client := { c with endpoint := c.endpoint.release }

def closeEndpoint (c : Client) : Client :=
  release { c with endpoint := c.endpoint.closeQuietly .client "socket shutdown failed" }

/-- Hangs up and empties the slot. -/
def drop (c : Client) : Client := { c.closeEndpoint with slot := none }

/-- How long a round trip that starts now may take. -/
def window (c : Client) (patience : Option Nat) : Window :=
  { timer := c.requestLimit.map fun limit => c.endpoint.link.clock + limit.microseconds
    patience }

/-- One request and its reply. -/
def converse (r : Request) (w : Window) : Exchange Reply := do
  Exchange.send r.line r.line
  Exchange.check (Reply.parse (← Exchange.receive w))

/-- A round trip, on the connection in the slot. -/
def roundTrip (r : Request) (patience : Option Nat) (c : Client) : Answer × Client :=
  match c.slot with
  | none => (.failed .closed, c)
  | some hold =>
    if hold.replyOwed then
      (.failed .channelClosed,
        (c.note .warn "previous call abandoned mid-request, dropping connection"
          [("command", r.keyword.text)]).drop)
    else
      match converse r (c.window patience) c.endpoint with
      | (.ok reply, endpoint) => (.reply reply, { c with endpoint })
      | (.error (.failed f), endpoint) => (.failed f, { c with endpoint })
      | (.error .expired, endpoint) =>
        (.failed .timeout,
          ({ c with endpoint }.note .warn "request timed out, dropping connection"
            [("command", r.keyword.text)]).drop)
      | (.error .unfinished, endpoint) =>
        (.unfinished, { c with endpoint, slot := some { hold with replyOwed := true } })

/-- Remembers a selected database. -/
def select (database : Option Name) (c : Client) : Client :=
  match database with
  | none => c
  | some name => { c with slot := c.slot.map fun hold => { hold with database := some name } }

/-- The fetch that follows a successful query where the conventions ask for it. -/
def followUp (patience : Option Nat) (reply : Reply) (c : Client) : Answer × Client :=
  if c.wire.followWithFetch && reply.succeeded then c.roundTrip .fetch patience
  else (.reply reply, c)

/-- A query, and the selection of a database if it is one and succeeds. -/
def query (line : String) (selects : Option Name) (patience : Option Nat) (c : Client) :
    Answer × Client :=
  match c.roundTrip (.query line) patience with
  | (.reply first, c) =>
    match c.followUp patience first with
    | (.reply reply, c) => (.reply reply, if reply.succeeded then c.select selects else c)
    | other => other
  | other => other

/-- How long the client waits for the reply to its goodbye. -/
def quitWait : Duration := .ofMilliseconds 500

/-- Hangs up, for good. -/
def finish (c : Client) : Answer × Client :=
  (.done, c.closeEndpoint.note .info "disconnected from ProtonDB" [("user", c.session.username)])

/-- Says goodbye over a connection that is no longer in the slot, and hangs up; a caller that goes
away leaves the channel to itself. -/
def goodbye (patience : Option Nat) (c : Client) : Answer × Client :=
  match c.endpoint.send Request.quit.line Request.quit.line with
  | (.error _, endpoint) => finish { c with endpoint }
  | (.ok (), endpoint) =>
    let w : Window := { timer := some (endpoint.link.clock + quitWait.microseconds), patience }
    match endpoint.receive w with
    | (.error .unfinished, endpoint) => (.unfinished, release { c with endpoint })
    | (_, endpoint) => finish { c with endpoint }

/-- Empties the slot and says goodbye. -/
def close (patience : Option Nat) (c : Client) : Answer × Client :=
  match c.slot with
  | none => (.done, c)
  | some _ => goodbye patience { c with slot := none }

end Client

end DocClient
