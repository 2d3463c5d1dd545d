import DocClient.Console.Client
import DocClient.Proofs.Command
import DocClient.Proofs.Json.Printer
import DocClient.Proofs.Statement.Line

/-!
Line breaks in a command line come from nowhere but the texts that stand in it as they were given:
a caller's own conditions, and passwords that were not checked.
-/
namespace DocClient

open ConsoleClient (isSingleLine)

variable {text : String} {s : Statement}

@[simp] theorem isSingleLine_append (text text' : String) :
    isSingleLine (text ++ text') = (isSingleLine text && isSingleLine text') := by
  simp [isSingleLine]

theorem isSingleLine_of_printable (h : Printable text.toList) : isSingleLine text = true := by
  refine List.all_eq_true.mpr fun c hc => ?_
  have hp := h c hc
  have hn : c ≠ '\n' := by rintro rfl; exact absurd hp (by decide)
  have hr : c ≠ '\r' := by rintro rfl; exact absurd hp (by decide)
  simp [hn, hr]

@[simp] theorem isSingleLine_render (v : Json) : isSingleLine v.render = true := by
  apply isSingleLine_of_printable
  rw [Json.render, String.toList_ofList]
  exact Json.chars_printable v

@[simp] theorem isSingleLine_renderString (text : String) :
    isSingleLine (Json.renderString text) = true := by
  apply isSingleLine_of_printable
  rw [Json.renderString, String.toList_ofList]
  exact Json.stringChars_printable text

@[simp] theorem isSingleLine_name (n : Name) : isSingleLine n.text = true := by
  refine List.all_eq_true.mpr fun c hc => ?_
  have hw := Name.isWord_of_mem hc
  have hn : c ≠ '\n' := by rintro rfl; exact absurd hw (by decide)
  have hr : c ≠ '\r' := by rintro rfl; exact absurd hw (by decide)
  simp [hn, hr]

@[simp] theorem isSingleLine_compare (field : Name) (comparison : Comparison) (v : Json) :
    isSingleLine (Condition.compare field comparison v).text = true := by
  have hsymbol : isSingleLine comparison.symbol = true := by cases comparison <;> rfl
  simp [Condition.compare, hsymbol]

theorem isSingleLine_of_password {u : Unit} (h : checkPassword text = .ok u) :
    isSingleLine text = true := by
  unfold checkPassword at h
  split at h
  · next hp =>
    simp only [isPassword, Bool.and_eq_true, List.all_eq_true] at hp
    refine List.all_eq_true.mpr fun c hc => ?_
    have hall := hp.2 c hc
    simp_all
  · exact absurd h nofun

namespace Statement

@[simp] theorem isSingleLine_commaSeparated (xs : List String) :
    isSingleLine (commaSeparated xs) = xs.all isSingleLine := by
  induction xs with
  | nil => rfl
  | cons x xs ih =>
    cases xs with
    | nil => simp [commaSeparated]
    | cons y ys =>
      have hcomma : isSingleLine ", " = true := rfl
      simp [commaSeparated, hcomma, ih]

@[simp] theorem isSingleLine_call (function : String) (arguments : List String) :
    isSingleLine (call function arguments)
      = (isSingleLine function && arguments.all isSingleLine) := by
  have hparens : isSingleLine "(" = true ∧ isSingleLine ")" = true := ⟨rfl, rfl⟩
  simp [call, hparens]

@[simp] theorem isSingleLine_inQuotes (text : String) :
    isSingleLine (inQuotes text) = isSingleLine text := by
  have hquote : isSingleLine "\"" = true := rfl
  simp [inQuotes, hquote]

@[simp] theorem isSingleLine_changesText (action : UpdateAction) (changes : Document) :
    isSingleLine (changesText action changes) = true := by
  have hopen : isSingleLine "\x7b" = true := rfl
  have hclose : isSingleLine "\x7d" = true := rfl
  cases action with
  | drop => simp [changesText, hopen, hclose]
  | add | alter => exact isSingleLine_render _

/-- The texts that go into the line as they are, unescaped and unchecked. -/
def freeTexts : Statement → List String
  | print _ condition | remove _ condition | update _ _ _ condition => conditionArgument condition
  | createProfile _ password _ => [password]
  | _ => []

/-- The line of a statement is a single line exactly if each of its free texts is one. -/
theorem isSingleLine_line (s : Statement) :
    isSingleLine s.line = s.freeTexts.all isSingleLine := by
  have hmethod (n : Name) {name : String} (h : isSingleLine name = true) :
      isSingleLine (method n name) = true := by
    have hdot : isSingleLine "." = true := rfl
    simp [method, hdot, h]
  have hkeyword (action : UpdateAction) : isSingleLine action.keyword = true := by
    cases action <;> rfl
  have hrole (r : Role) : isSingleLine r.keyword = true := by cases r <;> rfl
  cases s with
  | help | version | clear | quit => rfl
  | insert n payload =>
    simp only [line, isSingleLine_call, hmethod n (show isSingleLine "insert" = true from rfl)]
    simp [freeTexts]
  | print n condition =>
    simp only [line, isSingleLine_call, hmethod n (show isSingleLine "print" = true from rfl)]
    rfl
  | remove n condition =>
    simp only [line, isSingleLine_call, hmethod n (show isSingleLine "remove" = true from rfl)]
    rfl
  | update n action changes condition =>
    simp only [line, isSingleLine_call, hmethod n (show isSingleLine "update" = true from rfl)]
    simp [freeTexts, hkeyword]
  | createProfile user password role =>
    have hfunction : isSingleLine "profile.create" = true := rfl
    cases role <;> simp [line, freeTexts, hfunction, hrole]
  | dropDatabase name =>
    have hfunction : isSingleLine "db.drop" = true := rfl
    cases name <;> simp [line, freeTexts, hfunction]
  | createDatabase | useDatabase | listDatabases | createCollection | dropCollection
  | listCollections | deleteProfile | grant | revoke | listProfiles =>
    simp [line, freeTexts]
    decide

end Statement

namespace Command

/-- The conditions in the command. -/
def conditions : Command → List Condition
  | print _ condition | remove _ condition | update _ _ _ condition => condition.toList
  | _ => []

/-- A line break in the line of a command is one of its conditions' own. -/
theorem isSingleLine_of_statement {command : Command} (h : command.statement = .ok s) :
    isSingleLine s.line = command.conditions.all fun c => isSingleLine c.text := by
  have hfree (condition : Option Condition) :
      (Statement.conditionArgument condition).all isSingleLine
        = condition.toList.all fun c => isSingleLine c.text := by
    cases condition <;> rfl
  rw [Statement.isSingleLine_line]
  cases command with
  | createDatabase | useDatabase | createCollection | dropCollection | deleteProfile =>
    obtain ⟨n, -, rfl⟩ := map_ok h
    rfl
  | dropDatabase name =>
    cases name with
    | none =>
      obtain rfl := Except.ok.inj h
      rfl
    | some name =>
      obtain ⟨n, -, rfl⟩ := map_ok h
      rfl
  | listDatabases | listCollections | listProfiles | help | version | clear =>
    obtain rfl := Except.ok.inj h
    rfl
  | insert collection document =>
    obtain ⟨n, -, h⟩ := bind_ok h
    obtain ⟨doc, -, h⟩ := bind_ok h
    obtain rfl := Except.ok.inj h
    rfl
  | insertMany collection documents =>
    obtain ⟨n, -, h⟩ := bind_ok h
    obtain ⟨docs, -, h⟩ := bind_ok h
    obtain rfl := Except.ok.inj h
    rfl
  | print collection condition | remove collection condition =>
    obtain ⟨n, -, rfl⟩ := map_ok h
    exact hfree condition
  | update collection action changes condition =>
    obtain ⟨n, -, h⟩ := bind_ok h
    obtain ⟨doc, -, h⟩ := bind_ok h
    obtain rfl := Except.ok.inj h
    exact hfree condition
  | createProfile user password role =>
    obtain ⟨u, hpassword, h⟩ := bind_ok h
    obtain ⟨n, -, h⟩ := bind_ok h
    obtain rfl := Except.ok.inj h
    simp [Statement.freeTexts, conditions, isSingleLine_of_password hpassword]
  | grant user database | revoke user database =>
    obtain ⟨n, -, h⟩ := bind_ok h
    obtain ⟨m, -, h⟩ := bind_ok h
    obtain rfl := Except.ok.inj h
    rfl

/-- No condition is a text of the caller's own. -/
def Compares (command : Command) : Prop :=
  ∀ condition ∈ command.conditions, ∃ field comparison v,
    condition = Condition.compare field comparison v

theorem Compares.isSingleLine {command : Command} (hc : command.Compares)
    (h : command.statement = .ok s) : isSingleLine s.line = true := by
  rw [isSingleLine_of_statement h, List.all_eq_true]
  intro condition hm
  obtain ⟨field, comparison, v, rfl⟩ := hc condition hm
  exact isSingleLine_compare field comparison v

end Command

end DocClient
