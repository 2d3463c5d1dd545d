import DocClient.Channel.Endpoint
import DocClient.Settings
import DocClient.Wire.Reply
import DocClient.Wire.Request

/-!
The login. The server may greet first; then the client sends its credentials and the reply
decides. Whatever goes wrong counts as a failed login, and the channel is closed.
-/
namespace DocClient

structure Session where
  username : String
  greeting : Option String
  message : Option String
  deriving DecidableEq, Repr

namespace Session

/-- The login line as the journal shows it. -/
def shownLogin : String := (Request.login Credentials.redacted).line

def readGreeting (wire : WireConventions) (w : Window) : Exchange (Option String) :=
  if wire.greeting then some <$> Exchange.receive w else pure none

/-- The session that a reply opens. -/
def ofReply (username : String) (greeting : Option String) (reply : Reply) :
    Except Failure Session :=
  if reply.succeeded then .ok ⟨username, greeting, reply.note⟩
  else .error (.authentication reply.reason)

def handshake (credentials : Credentials) (wire : WireConventions) (w : Window) :
    Exchange Session := do
  let greeting ← readGreeting wire w
  let data ← Exchange.check (wire.loginEncoding.encode credentials)
  Exchange.send (Request.login data).line shownLogin
  let reply ← Exchange.check (Reply.parse (← Exchange.receive w))
  Exchange.check (ofReply credentials.username greeting reply)

/-- A failure of the handshake as a failure of the login. -/
def asAuthentication : Failure → Failure
  | .authentication detail => .authentication detail
  | f => .authentication f.message

/-- The handshake with its notes in the log; a failed one closes the channel. -/
def establish (credentials : Credentials) (wire : WireConventions) (w : Window) :
    Exchange Session := fun e =>
    match handshake credentials wire w e with
    | (.ok session, e) =>
      (.ok session, e.note ⟨.debug, .login, "login accepted",
        [("user", session.username), ("peer", e.peer)]⟩)
    | (.error (.failed f), e) =>
      (.error (.failed (asAuthentication f)),
        (e.closeQuietly .login "close after failed login").note ⟨.warn, .login, "login failed",
          [("user", credentials.username), ("error", f.message)]⟩)
    | (.error halt, e) => (.error halt, e)

end Session

end DocClient
