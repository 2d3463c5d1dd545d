import DocClient.Proofs.Command

/-!
The checks that a command's arguments go through, in their order. The failure that is reported is
that of the first check which finds one.
-/
namespace DocClient

variable {α β γ : Type} {f : Failure}

/-- What is wrong with a name of a database, a collection or a profile. -/
def nameFault? (text : String) : Option Failure :=
  if isName text then none else some (.invalidName text)

def passwordFault? (text : String) : Option Failure :=
  if isPassword text then none
  else some (.invalidArgument "password must be non-empty and free of quotes, commas and line breaks")

/-- What is wrong with a payload: it has no JSON form, or this is no object. -/
def documentFault? (d : Datum) : Option Failure :=
  match d.toJson with
  | .error fault => some (.serialization fault.message)
  | .ok (.object _) => none
  | .ok v => some (.serialization ("document must be a JSON object, got " ++ v.kind))

namespace Command

/-- What each check of a command's arguments finds, in the order of the checks. -/
def checks : Command → List (Option Failure)
  | createDatabase name | useDatabase name | dropDatabase (some name) | createCollection name
  | dropCollection name | deleteProfile name => [nameFault? name]
  | print collection _ | remove collection _ => [nameFault? collection]
  | insert collection document | update collection _ document _ =>
    [nameFault? collection, documentFault? document]
  | insertMany collection documents => nameFault? collection :: documents.map documentFault?
  | createProfile user password _ => [passwordFault? password, nameFault? user]
  | grant user database | revoke user database => [nameFault? user, nameFault? database]
  | dropDatabase none | listDatabases | listCollections | listProfiles | help | version
  | clear => []

/-- The first fault of a command's arguments. -/
def fault? (c : Command) : Option Failure := c.checks.findSome? id

end Command

/-- The failure of a computation that fails. -/
def failureOf : Except Failure α → Option Failure
  | .ok _ => none
  | .error f => some f

theorem failureOf_eq_some_iff {x : Except Failure α} : failureOf x = some f ↔ x = .error f := by
  cases x <;> simp [failureOf]

theorem failureOf_map (g : α → β) (x : Except Failure α) : failureOf (g <$> x) = failureOf x := by
  cases x <;> rfl

/-- Of two computations the first to fail decides. -/
theorem failureOf_both (x : Except Failure α) (y : Except Failure β) (g : α → β → γ) :
    failureOf (do let a ← x; let b ← y; .ok (g a b)) = (failureOf x).or (failureOf y) := by
  cases x <;> cases y <;> rfl

theorem first_one (x : Option Failure) : [x].findSome? id = x := by
  cases x <;> rfl

theorem first_cons (x : Option Failure) (xs : List (Option Failure)) :
    (x :: xs).findSome? id = x.or (xs.findSome? id) := by
  cases x <;> rfl

theorem failureOf_name (text : String) : failureOf (Name.check text) = nameFault? text := by
  unfold Name.check nameFault?
  split <;> rfl

theorem failureOf_password (text : String) :
    failureOf (checkPassword text) = passwordFault? text := by
  unfold checkPassword passwordFault?
  split <;> rfl

theorem failureOf_document (d : Datum) : failureOf d.document = documentFault? d := by
  unfold Datum.document documentFault?
  cases d.toJson with
  | error fault => rfl
  | ok v => cases v <;> rfl

/-- Documents are checked in the order of the list. -/
theorem failureOf_documents (ds : List Datum) :
    failureOf (documentsOf ds) = (ds.map documentFault?).findSome? id := by
  induction ds with
  | nil => rfl
  | cons d ds ih => rw [documentsOf, failureOf_both, failureOf_document, ih, List.map_cons, first_cons]

namespace Command

/-- A command fails with the first fault of its arguments, and with nothing else. -/
theorem failureOf_statement (c : Command) : failureOf c.statement = c.fault? := by
  cases c with
  | createDatabase name | useDatabase name | createCollection name | dropCollection name
  | deleteProfile name | print name condition | remove name condition =>
    rw [statement, failureOf_map, failureOf_name, fault?, checks, first_one]
  | dropDatabase name =>
    cases name with
    | none => rfl
    | some name => rw [statement, failureOf_map, failureOf_name, fault?, checks, first_one]
  | listDatabases | listCollections | listProfiles | help | version | clear => rfl
  | insert collection document | update collection action document condition =>
    rw [statement, failureOf_both, failureOf_name, failureOf_document, fault?, checks, first_cons,
      first_one]
  | insertMany collection documents =>
    rw [statement, failureOf_both, failureOf_name, failureOf_documents, fault?, checks, first_cons]
  | createProfile user password role =>
    rw [statement, failureOf_both, failureOf_password, failureOf_name, fault?, checks, first_cons,
      first_one]
  | grant user database | revoke user database =>
    rw [statement, failureOf_both, failureOf_name, failureOf_name, fault?, checks, first_cons,
      first_one]

theorem statement_error_iff {c : Command} : c.statement = .error f ↔ c.fault? = some f := by
  rw [← failureOf_statement, failureOf_eq_some_iff]

end Command

end DocClient
