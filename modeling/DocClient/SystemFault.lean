/-! Faults that the operating system reports, with their messages. -/
namespace DocClient

inductive SystemFault where
  | notFound
  | permissionDenied
  | invalidArgument
  | brokenPipe
  | networkUnreachable
  | connectionReset
  | notConnected
  | connectionRefused
  /-- A path that holds a NUL byte is not even looked up. -/
  | nulInPath
  deriving DecidableEq, Repr, Inhabited

namespace SystemFault

def numbered (text : String) (code : Nat) : String :=
  text ++ " (os error " ++ toString code ++ ")"

def message : SystemFault → String
  | notFound => numbered "No such file or directory" 2
  | permissionDenied => numbered "Permission denied" 13
  | invalidArgument => numbered "Invalid argument" 22
  | brokenPipe => numbered "Broken pipe" 32
  | networkUnreachable => numbered "Network is unreachable" 101
  | connectionReset => numbered "Connection reset by peer" 104
  | notConnected => numbered "Transport endpoint is not connected" 107
  | connectionRefused => numbered "Connection refused" 111
  | nulInPath => "nul byte found in provided data"

end SystemFault

end DocClient
