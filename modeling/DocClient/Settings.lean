import DocClient.Duration
import DocClient.Login.Credentials

/-! Addresses, and the settings of both kinds of client. -/
namespace DocClient

structure Address where
  host : String
  port : UInt16
  deriving DecidableEq, Repr

namespace Address

def defaultPort : UInt16 := 9090

def text (a : Address) : String := a.host ++ ":" ++ toString a.port.toNat

/-- A port in decimal digits, with a plus sign or leading zeros if one likes. -/
def port? (cs : List Char) : Option UInt16 :=
  let digits := match cs with
    | '+' :: rest => rest
    | cs => cs
  ((Number.ofDigits? digits).filter (· < UInt16.size)).map Nat.toUInt16

/-- The parts before and after the last colon. -/
def splitLast (cs : List Char) : Option (List Char × List Char) :=
  let back := cs.reverse
  match back.dropWhile (· ≠ ':') with
  | [] => none
  | _ :: front => some (front.reverse, (back.takeWhile (· ≠ ':')).reverse)

/-- An address `host:port`, cut at the last colon; without a colon the port is the usual one. -/
def parse (text : String) : Except Failure Address :=
  match splitLast text.toList with
  | none => .ok ⟨text, defaultPort⟩
  | some (host, port) =>
    match port? port with
    | some port => .ok ⟨String.ofList host, port⟩
    | none => .error (.connection ("Invalid port in address " ++ Text.quoted text))

end Address

/-- How messages are framed and what the server is expected to say. -/
structure WireConventions where
  /-- The byte that ends every message in both directions. -/
  delimiter : UInt8 := 0x0A
  /-- Whether the server sends a greeting line before the login. -/
  greeting : Bool := true
  loginEncoding : LoginEncoding := .comma
  /-- Whether a successful query is followed by a fetch of its result. -/
  followWithFetch : Bool := false
  maxLineBytes : UInt64 := 16 * 1024 * 1024
  deriving DecidableEq, Repr

structure ConnectSettings where
  address : Address := ⟨"127.0.0.1", Address.defaultPort⟩
  credentials : Credentials := ⟨"", ""⟩
  /-- Bounds the opening of the connection, and then again the login. -/
  connectLimit : Duration := .ofSeconds 5
  /-- Bounds one request and its reply. -/
  requestLimit : Option Duration := none
  wire : WireConventions := {}
  deriving DecidableEq, Repr

structure ConsoleSettings where
  executable : String
  arguments : List String := []
  /-- How long output is collected after a command. -/
  settleTime : Duration := .ofSeconds 1
  /-- How long a process may take to end before it is killed. -/
  grace : Duration := .ofMilliseconds 500
  deriving DecidableEq, Repr

end DocClient
