import DocClient.Statement.Basic

/-!
The command line of a statement: a call with its arguments separated by commas, or one of the
console's short commands.
-/
namespace DocClient

namespace UpdateAction

def keyword : UpdateAction → String
  | add => "add"
  | drop => "drop"
  | alter => "alter"

end UpdateAction

namespace Role

def keyword : Role → String
  | admin => "admin"
  | user => "user"

end Role

namespace Payload

def toJson : Payload → Json
  | one document => .object document
  | many documents => .array (documents.map .object)

end Payload

namespace Statement

def commaSeparated : List String → String
  | [] => ""
  | [x] => x
  | x :: xs => x ++ ", " ++ commaSeparated xs

def call (function : String) (arguments : List String) : String :=
  function ++ "(" ++ commaSeparated arguments ++ ")"

def inQuotes (text : String) : String := "\"" ++ text ++ "\""

/-- A method of a collection. -/
def method (collection : Name) (name : String) : String := collection.text ++ "." ++ name

/-- The changes of an update. Dropping fields names their keys only. -/
def changesText (action : UpdateAction) (changes : Document) : String :=
  match action with
  | .drop =>
    "\x7b" ++ commaSeparated (changes.map fun member => Json.renderString member.1) ++ "\x7d"
  | .add | .alter => (Json.object changes).render

def conditionArgument (condition : Option Condition) : List String :=
  condition.toList.map Condition.text

def line : Statement → String
  | createDatabase name => call "db.create" [inQuotes name.text]
  | useDatabase name => call "db.use" [inQuotes name.text]
  | dropDatabase name => call "db.drop" (name.toList.map fun n => inQuotes n.text)
  | listDatabases => call "db.list" []
  | createCollection name => call "collection.create" [inQuotes name.text]
  | dropCollection name => call "collection.drop" [inQuotes name.text]
  | listCollections => call "collection.list" []
  | insert collection payload => call (method collection "insert") [payload.toJson.render]
  | print collection condition => call (method collection "print") (conditionArgument condition)
  | remove collection condition => call (method collection "remove") (conditionArgument condition)
  | update collection action changes condition =>
    call (method collection "update")
      (action.keyword :: changesText action changes :: conditionArgument condition)
  | createProfile user password role =>
    call "profile.create"
      (inQuotes user.text :: inQuotes password :: role.toList.map fun r => inQuotes r.keyword)
  | deleteProfile user => call "profile.delete" [inQuotes user.text]
  | grant user database => call "profile.grant" [inQuotes user.text, inQuotes database.text]
  | revoke user database => call "profile.revoke" [inQuotes user.text, inQuotes database.text]
  | listProfiles => call "profile.list" []
  | help => ":h"
  | version => ":v"
  | clear => "cls"
  | quit => ":q"

end Statement

end DocClient
