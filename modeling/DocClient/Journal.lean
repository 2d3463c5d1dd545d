/-!
What a client reports about itself: the traffic events of its channels, handed to a sink, and the
notes of its own log. The journal keeps both in the order in which they arose.
-/
namespace DocClient

inductive Event where
  | connected (peer : String)
  | sent (line : String)
  | received (line : String)
  /-- A line of a console's error output, which is never captured. -/
  | stderr (line : String)
  | closed (peer : String)
  deriving DecidableEq, Repr

inductive Level where
  | trace
  | debug
  | info
  | warn
  deriving DecidableEq, Repr

namespace Level

def text : Level → String
  | trace => "TRACE"
  | debug => "DEBUG"
  | info => "INFO"
  | warn => "WARN"

end Level

/-- The part of the client that writes a note. -/
inductive Source where
  | client
  | login
  | console
  | pipe
  | traffic
  deriving DecidableEq, Repr

namespace Source

def target : Source → String
  | client => "protondb::client"
  | login => "protondb::session"
  | console => "protondb::shell"
  | pipe => "protondb::transport::process"
  | traffic => "protondb::transport"

end Source

structure Note where
  level : Level
  source : Source
  message : String
  fields : List (String × String)
  deriving DecidableEq, Repr

namespace Event

/-- The note that stands for an event when events go to the log. -/
def note : Event → Note
  | connected peer => ⟨.debug, .traffic, "channel opened", [("peer", peer)]⟩
  | sent line => ⟨.trace, .traffic, "sent", [("line", line)]⟩
  | received line => ⟨.trace, .traffic, "received", [("line", line)]⟩
  | stderr line => ⟨.debug, .traffic, "process stderr", [("line", line)]⟩
  | closed peer => ⟨.debug, .traffic, "channel closed", [("peer", peer)]⟩

end Event

inductive Entry where
  | event (e : Event)
  | note (n : Note)
  deriving DecidableEq, Repr

/-- Entries in the order in which they arose. -/
abbrev Journal := List Entry

/-- Where events go. -/
inductive Sink where
  | log
  | discard
  | collect
  deriving DecidableEq, Repr

namespace Sink

/-- The events that the sink keeps for its owner. -/
def events (sink : Sink) (journal : Journal) : List Event :=
  match sink with
  | log | discard => []
  | collect => journal.filterMap fun
    | .event e => some e
    | .note _ => none

/-- The log, to which one sink adds the events. -/
def notes (sink : Sink) (journal : Journal) : List Note :=
  journal.filterMap fun
    | .event e => if sink = log then some e.note else none
    | .note n => some n

end Sink

end DocClient
