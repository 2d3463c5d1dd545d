import DocClient.Json.Datum
import DocClient.Statement.Line

/-!
Commands as a caller gives them, and the checks that make a statement of one. Of several bad
arguments the first in order is reported: a password before its user, a name before a document,
documents in the order of the list.
-/
namespace DocClient

inductive Command where
  | createDatabase (name : String)
  | useDatabase (name : String)
  | dropDatabase (name : Option String)
  | listDatabases
  | createCollection (name : String)
  | dropCollection (name : String)
  | listCollections
  | insert (collection : String) (document : Datum)
  | insertMany (collection : String) (documents : List Datum)
  | print (collection : String) (condition : Option Condition)
  | remove (collection : String) (condition : Option Condition)
  | update (collection : String) (action : UpdateAction) (changes : Datum)
      (condition : Option Condition)
  | createProfile (user password : String) (role : Option Role)
  | deleteProfile (user : String)
  | grant (user database : String)
  | revoke (user database : String)
  | listProfiles
  | help
  | version
  | clear

/-- The document that a value becomes; only objects are documents. -/
def Datum.document (d : Datum) : Except Failure Document :=
  match d.toJson with
  | .error fault => .error (.serialization fault.message)
  | .ok (.object doc) => .ok doc
  | .ok v => .error (.serialization ("document must be a JSON object, got " ++ v.kind))

/-- The documents of a list, or the first failure in it. -/
def documentsOf : List Datum → Except Failure (List Document)
  | [] => .ok []
  | d :: ds => do
    let doc ← d.document
    let docs ← documentsOf ds
    .ok (doc :: docs)

/-- A password stands in a statement between quotes and is not escaped there. -/
def isPassword (text : String) : Bool :=
  !text.toList.isEmpty && text.toList.all fun c => !(c == '"' || c == ',' || c == '\n' || c == '\r')

def checkPassword (text : String) : Except Failure Unit :=
  if isPassword text then .ok ()
  else .error (.invalidArgument
    "password must be non-empty and free of quotes, commas and line breaks")

namespace Command

def statement : Command → Except Failure Statement
  | createDatabase name => .createDatabase <$> Name.check name
  | useDatabase name => .useDatabase <$> Name.check name
  | dropDatabase none => .ok (.dropDatabase none)
  | dropDatabase (some name) => (fun n => .dropDatabase (some n)) <$> Name.check name
  | listDatabases => .ok .listDatabases
  | createCollection name => .createCollection <$> Name.check name
  | dropCollection name => .dropCollection <$> Name.check name
  | listCollections => .ok .listCollections
  | insert collection document => do
    let collection ← Name.check collection
    let document ← document.document
    .ok (.insert collection (.one document))
  | insertMany collection documents => do
    let collection ← Name.check collection
    let documents ← documentsOf documents
    .ok (.insert collection (.many documents))
  | print collection condition => (.print · condition) <$> Name.check collection
  | remove collection condition => (.remove · condition) <$> Name.check collection
  | update collection action changes condition => do
    let collection ← Name.check collection
    let changes ← changes.document
    .ok (.update collection action changes condition)
  | createProfile user password role => do
    checkPassword password
    let user ← Name.check user
    .ok (.createProfile user password role)
  | deleteProfile user => .deleteProfile <$> Name.check user
  | grant user database => do
    let user ← Name.check user
    let database ← Name.check database
    .ok (.grant user database)
  | revoke user database => do
    let user ← Name.check user
    let database ← Name.check database
    .ok (.revoke user database)
  | listProfiles => .ok .listProfiles
  | help => .ok .help
  | version => .ok .version
  | clear => .ok .clear

/-- Whether the command has arguments to check. -/
def hasArguments : Command → Bool
  | listDatabases | listCollections | listProfiles | help | version | clear => false
  | _ => true

end Command

end DocClient
