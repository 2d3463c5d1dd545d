import DocClient.Failure
import DocClient.Json.Printer

/-! Credentials, how they are shown without the password, and how they are packed for a login. -/
namespace DocClient

structure Credentials where
  username : String
  password : String
  deriving DecidableEq, Repr

namespace Credentials

/-- What stands for a password wherever it would be seen. -/
def redacted : String := "<redacted>"

def shown (c : Credentials) : String :=
  "Credentials \x7b username: " ++ Text.quoted c.username ++ ", password: "
    ++ Text.quoted redacted ++ " \x7d"

/-- The same on lines of its own, indented. -/
def shownInLines (c : Credentials) : String :=
  "Credentials \x7b\n    username: " ++ Text.quoted c.username ++ ",\n    password: "
    ++ Text.quoted redacted ++ ",\n\x7d"

end Credentials

inductive LoginEncoding where
  /-- `username,password`; the server cuts at the comma. -/
  | comma
  | json
  deriving DecidableEq, Repr

namespace LoginEncoding

def hasComma (text : String) : Bool := text.toList.contains ','

def encode (format : LoginEncoding) (c : Credentials) : Except Failure String :=
  match format with
  | comma =>
    if hasComma c.username || hasComma c.password then
      .error (.invalidArgument "username and password must not contain ','")
    else .ok (c.username ++ "," ++ c.password)
  | json =>
    .ok (Json.object [("password", .string c.password), ("username", .string c.username)]).render

end LoginEncoding

end DocClient
