import DocClient.Condition

/-! Statements of the database's command language, with arguments that have been checked. -/
namespace DocClient

inductive UpdateAction where
  | add
  | drop
  | alter
  deriving DecidableEq, Repr

inductive Role where
  | admin
  | user
  deriving DecidableEq, Repr

/-- What an insertion carries: one document, or a list of them. -/
inductive Payload where
  | one (document : Document)
  | many (documents : List Document)

inductive Statement where
  | createDatabase (name : Name)
  | useDatabase (name : Name)
  /-- Without a name, the current database is meant. -/
  | dropDatabase (name : Option Name)
  | listDatabases
  | createCollection (name : Name)
  | dropCollection (name : Name)
  | listCollections
  | insert (collection : Name) (payload : Payload)
  | print (collection : Name) (condition : Option Condition)
  | remove (collection : Name) (condition : Option Condition)
  | update (collection : Name) (action : UpdateAction) (changes : Document)
      (condition : Option Condition)
  | createProfile (user : Name) (password : String) (role : Option Role)
  | deleteProfile (user : Name)
  | grant (user database : Name)
  | revoke (user database : Name)
  | listProfiles
  | help
  | version
  | clear
  | quit

namespace Statement

/-- The database that the statement selects. -/
def selects : Statement → Option Name
  | useDatabase name => some name
  | _ => none

end Statement

end DocClient
