import DocClient.Client.Basic

/-!
Making a connection. Credentials are checked before anything is dialled; then the address is
dialled, and the login decides whether there is a client.
-/
namespace DocClient.Client

/-- A server that has been reached, and what the system says of the connection to it. -/
structure Reached where
  server : Server
  /-- The address at the other end, where the system can tell it. -/
  peer : Option String := none
  /-- Why lines cannot be sent without delay, if they cannot. -/
  delayFault : Option SystemFault := none

/-- What happens when an address is dialled. -/
inductive Dial where
  /-- It fails without any wait. -/
  | fails (cause : SystemFault)
  /-- It takes some time, and then fails or reaches a server. -/
  | after (delay : Nat) (outcome : Except SystemFault Reached)

/-- What an attempt to connect comes to; where a connection was made its endpoint is kept. -/
inductive Attempt where
  | refused (f : Failure)
  | rejected (f : Failure) (endpoint : Endpoint)
  | ready (c : Client)

/-- Opens the channel to an address. -/
def dial (target : String) (dial : Dial) (settings : ConnectSettings) : Except Failure Endpoint :=
  let failed (cause : SystemFault) : Failure :=
    .connection ("Failed to connect to " ++ target ++ ": " ++ cause.message)
  match dial with
  | .fails cause => .error (failed cause)
  | .after delay outcome =>
    if settings.connectLimit.microseconds ≤ delay then
      .error (.connection ("Timed out connecting to " ++ target))
    else
      match outcome with
      | .error cause => .error (failed cause)
      | .ok reached =>
        match reached.delayFault with
        | some cause => .error (.connection ("Failed to set TCP_NODELAY: " ++ cause.message))
        | none =>
          let peer := reached.peer.getD target
          let endpoint : Endpoint :=
            { peer, maxLineBytes := settings.wire.maxLineBytes
              link := .start reached.server settings.wire.delimiter delay }
          .ok (endpoint.record (.connected peer))

/-- Logs in over a fresh channel. The connect limit bounds the login as a whole; after a login that
failed nobody holds the channel any more. -/
def login (target : String) (settings : ConnectSettings) (e : Endpoint) : Attempt :=
  let limit := e.link.clock + settings.connectLimit.microseconds
  match Session.establish settings.credentials settings.wire { timer := some limit } e with
  | (.ok session, endpoint) =>
    .ready ({ session, wire := settings.wire, requestLimit := settings.requestLimit, endpoint
              slot := some {} : Client }.note .info "connected to ProtonDB"
      [("addr", target), ("user", session.username)])
  | (.error (.failed f), endpoint) => .rejected f endpoint.release
  | (.error _, endpoint) =>
    .rejected
      (.authentication ("No login reply from " ++ target ++ " within "
        ++ settings.connectLimit.render))
      (endpoint.closeQuietly .client "close after login timeout").release

/-- Connects to an address that messages call `target`, and logs in. Credentials that cannot be
sent are refused before anything is dialled. -/
def connectTo (target : String) (network : Dial) (settings : ConnectSettings) : Attempt :=
  match settings.wire.loginEncoding.encode settings.credentials with
  | .error f => .refused f
  | .ok _ =>
    match dial target network settings with
    | .error f => .refused f
    | .ok endpoint => login target settings endpoint

def connect (network : Address → Dial) (settings : ConnectSettings) : Attempt :=
  connectTo settings.address.text (network settings.address) settings

/-- Connects to an address given as text, with the usual settings. -/
def connectAddress (network : Address → Dial) (text username password : String) : Attempt :=
  match Address.parse text with
  | .error f => .refused f
  | .ok address => connect network { address, credentials := ⟨username, password⟩ }

end DocClient.Client
