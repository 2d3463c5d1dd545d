import DocClient.Client.Basic
import DocClient.Command

/-!
Calls on a client. A call with arguments looks first whether the client is open, then at its
arguments, and only then does its work; other callers may come in between.
-/
namespace DocClient.Client

inductive Call where
  | command (c : Command)
  | execute (s : Statement)
  | raw (line : String)
  | fetch
  | debug (enable : Bool)
  | profile
  | probe
  | close

/-- The work of a call, which it does while it has the client for itself. -/
inductive Work where
  | query (line : String) (selects : Option Name)
  | request (r : Request)
  | probe
  | close

namespace Work

def ofStatement (s : Statement) : Work := query s.line s.selects

def run (w : Work) (patience : Option Nat) (c : Client) : Answer × Client :=
  match w with
  | query line selects => c.query line selects patience
  | request r => c.roundTrip r patience
  | probe => (if c.isClosed then .failed .closed else .opened, c)
  | close => c.close patience

end Work

namespace Call

/-- Whether the call looks first if the client is open. -/
def isGuarded : Call → Bool
  | command c => c.hasArguments
  | _ => false

/-- The work of the call, or what is wrong with its arguments. -/
def work : Call → Except Failure Work
  | command c => .ofStatement <$> c.statement
  | execute s => .ok (.ofStatement s)
  | raw line => .ok (.query line none)
  | fetch => .ok (.request .fetch)
  | debug enable => .ok (.request (.debug enable))
  | profile => .ok (.request .profile)
  | probe => .ok .probe
  | close => .ok .close

end Call

/-- The look at the client, and at the arguments, that comes before a guarded call's work. -/
def prepare (call : Call) (c : Client) : Except Failure Work :=
  if call.isGuarded && c.isClosed then .error .closed else call.work

/-- A call that no other comes between. The caller waits no longer than to the given moment. -/
def call (call : Call) (patience : Option Nat) (c : Client) : Answer × Client :=
  match c.prepare call with
  | .error f => (.failed f, c)
  | .ok work => work.run patience c

end DocClient.Client
