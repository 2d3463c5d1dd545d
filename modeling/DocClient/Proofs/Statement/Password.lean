import DocClient.Proofs.Statement.Constructed
import DocClient.Proofs.Statement.SingleLine

/-!
The password in a statement that creates a profile. It stands in the line of the statement as it
is, and is the only part of the line that another password changes.
-/
namespace DocClient

variable {P : String → String → Prop} {password password' line line' : String}

/-- Passwords of which the one stands in one run where the other stands in another, as `P` relates
them. Both are accepted. -/
structure Exchanged (P : String → String → Prop) (password password' : String) : Prop where
  related : P password password'
  valid : isPassword password = true
  valid' : isPassword password' = true

theorem checkPassword_valid (h : isPassword password = true) : checkPassword password = .ok () := by
  rw [checkPassword, if_pos h]

namespace Statement

variable {s s' : Statement}

/-- Statements that are the same but for the password of a profile that they create. -/
inductive Apart (P : String → String → Prop) : Statement → Statement → Prop
  | same (s : Statement) : Apart P s s
  | created (user : Name) {password password' : String} (role : Option Role)
      (h : Exchanged P password password') :
      Apart P (.createProfile user password role) (.createProfile user password' role)

theorem Apart.selects (h : Apart P s s') : s'.selects = s.selects := by
  cases h <;> rfl

theorem Apart.isSingleLine (h : Apart P s s') :
    ConsoleClient.isSingleLine s'.line = ConsoleClient.isSingleLine s.line := by
  cases h with
  | same => rfl
  | created user role h =>
    simp [isSingleLine_line, freeTexts, isSingleLine_of_password (checkPassword_valid h.valid),
      isSingleLine_of_password (checkPassword_valid h.valid')]

/-- The line of a statement that creates a profile tells its password, and all the rest of it. -/
theorem createProfile_of_line {user user' : Name} {role role' : Option Role}
    (hv : isPassword password = true) (hv' : isPassword password' = true)
    (h : (createProfile user password role).line = (createProfile user' password' role').line) :
    user = user' ∧ password = password' ∧ role = role' := by
  have hsound : (createProfile user password role).Sound :=
    quote_not_mem_password (checkPassword_valid hv)
  have hsound' : (createProfile user' password' role').Sound :=
    quote_not_mem_password (checkPassword_valid hv')
  cases same_of_line hsound hsound' h
  exact ⟨rfl, rfl, rfl⟩

/-- Lines that are the same, or show statements that are so but for the password. -/
inductive Shown (P : String → String → Prop) (shown : Statement → String) : String → String → Prop
  | same (line : String) : Shown P shown line line
  | statement {s s' : Statement} (h : s.Apart P s') : Shown P shown (shown s) (shown s')

end Statement

namespace Command

variable {command command' : Command}

/-- Commands that are the same but for the password of a profile that they create. -/
inductive Apart (P : String → String → Prop) : Command → Command → Prop
  | same (command : Command) : Apart P command command
  | created (user : String) {password password' : String} (role : Option Role)
      (h : Exchanged P password password') :
      Apart P (.createProfile user password role) (.createProfile user password' role)

theorem Apart.hasArguments (h : Apart P command command') :
    command'.hasArguments = command.hasArguments := by
  cases h <;> rfl

/-- Statements that come of such commands, or the same failure. -/
inductive Stated (P : String → String → Prop) :
    Except Failure Statement → Except Failure Statement → Prop
  | refused (f : Failure) : Stated P (.error f) (.error f)
  | stated {s s' : Statement} (h : s.Apart P s') : Stated P (.ok s) (.ok s')

theorem Apart.stated (h : Apart P command command') :
    Stated P command.statement command'.statement := by
  cases h with
  | same =>
    cases command.statement with
    | error f => exact .refused f
    | ok s => exact .stated (.same s)
  | created user role h =>
    simp only [statement, checkPassword_valid h.valid, checkPassword_valid h.valid']
    cases hn : Name.check user with
    | error f => exact .refused f
    | ok n => exact .stated (.created n role h)

end Command

end DocClient
