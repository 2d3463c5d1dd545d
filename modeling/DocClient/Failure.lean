import DocClient.Text.Quoted

/-! The ways in which a call can fail, each with the message that it shows. -/
namespace DocClient

inductive Failure where
  | connection (detail : String)
  | authentication (detail : String)
  | transport (detail : String)
  | protocol (detail : String)
  | invalidName (name : String)
  | invalidArgument (detail : String)
  | serialization (detail : String)
  | server (detail : String)
  | system (detail : String)
  | timeout
  /-- The connection or process on the other side is no longer there. -/
  | channelClosed
  /-- The client itself has been closed. -/
  | closed
  deriving DecidableEq, Repr, Inhabited

namespace Failure

def message : Failure → String
  | connection detail => "Connection error: " ++ detail
  | authentication detail => "Authentication failed: " ++ detail
  | transport detail => "Transport error: " ++ detail
  | protocol detail => "Protocol error: " ++ detail
  | invalidName name => "Invalid name: " ++ Text.quoted name
  | invalidArgument detail => "Invalid argument: " ++ detail
  | serialization detail => "Serialization error: " ++ detail
  | server detail => "Server error: " ++ detail
  | system detail => "IO error: " ++ detail
  | timeout => "Timeout"
  | channelClosed => "Channel closed"
  | closed => "Client closed"

end Failure

end DocClient
