import DocClient.Proofs.Json.Datum
import DocClient.Proofs.Statement.Arguments

/-!
A command line is the line of one statement only, up to the values of the fields that an update
drops: no argument makes another statement of the one it is given to.
-/
namespace DocClient

variable {c : Char} {s t : Statement}

theorem Name.isWord_of_mem {n : Name} (hm : c ∈ n.text.toList) : Text.isWord c = true := by
  have hv := n.valid
  simp only [isName, Bool.and_eq_true, List.all_eq_true] at hv
  exact hv.2 c hm

theorem Name.not_mem (hc : Text.isWord c = false) (n : Name) : c ∉ n.text.toList := by
  intro hm
  exact absurd (isWord_of_mem hm) (by simp [hc])

theorem Name.text_inj {n m : Name} (h : n.text = m.text) : n = m := by
  cases n
  cases m
  simpa using h

theorem Payload.toJson_inj {p p' : Payload} (h : p.toJson = p'.toJson) : p = p' := by
  cases p <;> cases p' <;> simp only [toJson, Json.array.injEq, Json.object.injEq, reduceCtorEq] at h
  · exact congrArg one h
  · exact congrArg many ((List.map_inj_right fun _ _ => Json.object.inj).mp h)

/-- A line that calls a method of an object. -/
structure Call where
  object : String
  method : String
  arguments : List String

namespace Statement

/-- The call that a statement is, unless it is one of the short commands. -/
def call? : Statement → Option Call
  | createDatabase name => some ⟨"db", "create", [inQuotes name.text]⟩
  | useDatabase name => some ⟨"db", "use", [inQuotes name.text]⟩
  | dropDatabase name => some ⟨"db", "drop", name.toList.map fun n => inQuotes n.text⟩
  | listDatabases => some ⟨"db", "list", []⟩
  | createCollection name => some ⟨"collection", "create", [inQuotes name.text]⟩
  | dropCollection name => some ⟨"collection", "drop", [inQuotes name.text]⟩
  | listCollections => some ⟨"collection", "list", []⟩
  | insert collection payload => some ⟨collection.text, "insert", [payload.toJson.render]⟩
  | print collection condition => some ⟨collection.text, "print", conditionArgument condition⟩
  | remove collection condition => some ⟨collection.text, "remove", conditionArgument condition⟩
  | update collection action changes condition =>
    some ⟨collection.text, "update",
      action.keyword :: changesText action changes :: conditionArgument condition⟩
  | createProfile user password role =>
    some ⟨"profile", "create",
      inQuotes user.text :: inQuotes password :: role.toList.map fun r => inQuotes r.keyword⟩
  | deleteProfile user => some ⟨"profile", "delete", [inQuotes user.text]⟩
  | grant user database =>
    some ⟨"profile", "grant", [inQuotes user.text, inQuotes database.text]⟩
  | revoke user database =>
    some ⟨"profile", "revoke", [inQuotes user.text, inQuotes database.text]⟩
  | listProfiles => some ⟨"profile", "list", []⟩
  | help | version | clear | quit => none

theorem line_of_call? {k : Call} (h : s.call? = some k) :
    s.line = call (k.object ++ "." ++ k.method) k.arguments := by
  cases s <;> cases h <;> rfl

theorem call?_object {k : Call} (h : s.call? = some k) : '.' ∉ k.object.toList := by
  have hdot : Text.isWord '.' = false := by decide
  cases s <;> cases h <;> simp [Name.not_mem hdot]

theorem call?_method {k : Call} (h : s.call? = some k) : '(' ∉ k.method.toList := by
  cases s <;> cases h <;> simp

theorem toList_call (k : Call) :
    (call (k.object ++ "." ++ k.method) k.arguments).toList
      = k.object.toList ++ '.' :: (k.method.toList ++ '('
        :: ((commaSeparated k.arguments).toList ++ [')'])) := by
  simp [call]

/-- A call is told from every other by its line: object, method and arguments. -/
theorem call_eq_of_line {k k' : Call} (hs : s.call? = some k) (ht : t.call? = some k')
    (h : s.line = t.line) :
    k.object = k'.object ∧ k.method = k'.method ∧
      commaSeparated k.arguments = commaSeparated k'.arguments := by
  have hlist := congrArg String.toList h
  rw [line_of_call? hs, line_of_call? ht, toList_call, toList_call] at hlist
  obtain ⟨hobject, hlist⟩ := eq_of_append_cons (call?_object hs) (call?_object ht) hlist
  obtain ⟨hmethod, hlist⟩ := eq_of_append_cons (call?_method hs) (call?_method ht) hlist
  exact ⟨String.toList_inj.mp hobject, String.toList_inj.mp hmethod,
    String.toList_inj.mp (List.append_cancel_right hlist)⟩

/-- No short command is a call. -/
theorem line_ne_of_call? {k : Call} (hs : s.call? = none) (ht : t.call? = some k) :
    s.line ≠ t.line := by
  intro h
  have hlast := congrArg (fun l => l.toList.getLast?) h
  simp only [line_of_call? ht, toList_call, ← List.cons_append, ← List.append_assoc,
    List.getLast?_append] at hlast
  cases s <;> simp [call?, line] at hs hlast

/-- The same statement, or two that drop the same fields. -/
inductive Same : Statement → Statement → Prop
  | refl (s : Statement) : Same s s
  | drop {collection : Name} {condition : Option Condition} {changes changes' : Document}
      (h : ∀ key, key ∈ changes.map Prod.fst ↔ key ∈ changes'.map Prod.fst) :
      Same (.update collection .drop changes condition)
        (.update collection .drop changes' condition)

theorem Same.keys {n n' : Name} {condition condition' : Option Condition}
    {changes changes' : Document}
    (h : Same (update n .drop changes condition) (update n' .drop changes' condition'))
    (key : String) : key ∈ changes.map Prod.fst ↔ key ∈ changes'.map Prod.fst := by
  cases h with
  | refl => rfl
  | drop hkeys => exact hkeys key

/-- What is needed of the arguments to tell them apart. -/
def Sound : Statement → Prop
  | insert _ payload => payload.toJson.Ordered ∧ payload.toJson.Numbers Number.Legible
  | print _ condition | remove _ condition => ∀ c ∈ condition, c.text ≠ ""
  | update _ _ changes _ =>
    (Json.object changes).Ordered ∧ (Json.object changes).Numbers Number.Legible
  | createProfile _ password _ => '"' ∉ password.toList
  | _ => True

section Arguments

variable {n n' : Name} {condition condition' : Option Condition}

theorem name_of_inQuotes (h : inQuotes n.text = inQuotes n'.text) : n = n' :=
  Name.text_inj (inQuotes_inj h)

theorem quoted_name (n : Name) : Quoted (inQuotes n.text) :=
  ⟨n.text, Name.not_mem (by decide) n, rfl⟩

theorem inQuotes_ne_empty (text : String) : inQuotes text ≠ "" := by
  intro h
  have hlist := congrArg String.toList h
  simp [toList_inQuotes] at hlist

theorem condition_of_text {c c' : Condition} (h : c.text = c'.text) : c = c' := by
  cases c
  cases c'
  exact congrArg Condition.mk h

theorem names_of_inQuotes {m m' : Name}
    (h : commaSeparated [inQuotes n.text, inQuotes m.text]
      = commaSeparated [inQuotes n'.text, inQuotes m'.text]) : n = n' ∧ m = m' := by
  obtain ⟨hn, h⟩ := separable_quoted.head (quoted_name n) (quoted_name n') h
  exact ⟨name_of_inQuotes hn, name_of_inQuotes (commaSeparated_of_continued h)⟩

theorem role_of_inQuotes {r r' : Role} (h : inQuotes r.keyword = inQuotes r'.keyword) : r = r' := by
  have hkeyword := inQuotes_inj h
  cases r <;> cases r' <;> simp [Role.keyword] at hkeyword ⊢

theorem changesText_drop (changes : Document) :
    changesText .drop changes = braced (changes.map Prod.fst) := by
  simp [changesText, braced, Function.comp_def]

theorem rendered_changes {action : UpdateAction} {changes : Document} (ha : action ≠ .drop)
    (ho : (Json.object changes).Ordered) (hl : (Json.object changes).Numbers Number.Legible) :
    Rendered (changesText action changes) := by
  cases action with
  | drop => exact absurd rfl ha
  | add | alter => exact ⟨⟨.object changes, ho⟩, hl, rfl⟩

/-- An update's arguments tell its action, its changes, as far as they count, and its condition. -/
theorem same_update {n : Name} {action action' : UpdateAction} {changes changes' : Document}
    (hs : (update n action changes condition).Sound)
    (ht : (update n action' changes' condition').Sound)
    (ha : commaSeparated (action.keyword :: changesText action changes
        :: conditionArgument condition)
      = commaSeparated (action'.keyword :: changesText action' changes'
        :: conditionArgument condition')) :
    Same (update n action changes condition) (update n action' changes' condition') := by
  obtain ⟨hkeyword, ha⟩ := separable_keyword.head ⟨action, rfl⟩ ⟨action', rfl⟩ ha
  have ha := commaSeparated_of_continued ha
  obtain rfl : action = action' := by
    cases action <;> cases action' <;> simp [UpdateAction.keyword] at hkeyword ⊢
  by_cases hdrop : action = .drop
  · subst hdrop
    rw [changesText_drop, changesText_drop] at ha
    obtain ⟨hbraced, ha⟩ := separable_braced.head ⟨_, rfl⟩ ⟨_, rfl⟩ ha
    obtain rfl := optional_of_continued condition_of_text ha
    apply Same.drop
    intro key
    rw [braced_inj hbraced]
  · obtain ⟨hchanges, ha⟩ := separable_rendered.head (rendered_changes hdrop hs.1 hs.2)
      (rendered_changes hdrop ht.1 ht.2) ha
    obtain rfl := optional_of_continued condition_of_text ha
    have hrender : (Json.object changes).render = (Json.object changes').render := by
      cases action with
      | drop => exact absurd rfl hdrop
      | add | alter => exact hchanges
    have hequal := OrderedJson.render_inj (v := ⟨_, hs.1⟩) (w := ⟨_, ht.1⟩) hs.2 ht.2 hrender
    obtain rfl := Json.object.inj (OrderedJson.mk.inj hequal)
    exact .refl _

end Arguments

/-- Calls of the same method of the same object are told apart by their arguments. -/
theorem same_of_call? {k k' : Call} (hs : s.call? = some k) (ht : t.call? = some k')
    (hss : s.Sound) (hts : t.Sound) (ho : k.object = k'.object) (hm : k.method = k'.method)
    (ha : commaSeparated k.arguments = commaSeparated k'.arguments) : Same s t := by
  cases s with
  | createDatabase | useDatabase | createCollection | dropCollection | deleteProfile =>
    cases hs
    cases t <;> cases ht <;> simp at ho hm
    obtain rfl := name_of_inQuotes ha
    exact .refl _
  | dropDatabase =>
    cases hs
    cases t <;> cases ht <;> simp at ho hm
    obtain rfl := optional_of_commaSeparated name_of_inQuotes
      (fun n _ => inQuotes_ne_empty n.text) (fun n _ => inQuotes_ne_empty n.text) ha
    exact .refl _
  | listDatabases | listCollections | listProfiles =>
    cases hs
    cases t <;> cases ht <;> simp at ho hm
    exact .refl _
  | insert =>
    cases hs
    cases t <;> cases ht <;> simp at ho hm
    obtain rfl := Name.text_inj ho
    have hequal := OrderedJson.render_inj (v := ⟨_, hss.1⟩) (w := ⟨_, hts.1⟩) hss.2 hts.2 ha
    obtain rfl := Payload.toJson_inj (OrderedJson.mk.inj hequal)
    exact .refl _
  | print | remove =>
    cases hs
    cases t <;> cases ht <;> simp at ho hm
    obtain rfl := Name.text_inj ho
    obtain rfl := optional_of_commaSeparated condition_of_text hss hts ha
    exact .refl _
  | update =>
    cases hs
    cases t <;> cases ht <;> simp at ho hm
    obtain rfl := Name.text_inj ho
    exact same_update hss hts ha
  | createProfile =>
    cases hs
    cases t <;> cases ht <;> simp at ho hm
    obtain ⟨huser, hrest⟩ := separable_quoted.head (quoted_name _) (quoted_name _) ha
    obtain ⟨hpassword, hrole⟩ := separable_quoted.head ⟨_, hss, rfl⟩ ⟨_, hts, rfl⟩
      (commaSeparated_of_continued hrest)
    obtain rfl := name_of_inQuotes huser
    obtain rfl := inQuotes_inj hpassword
    obtain rfl := optional_of_continued role_of_inQuotes hrole
    exact .refl _
  | grant | revoke =>
    cases hs
    cases t <;> cases ht <;> simp at ho hm
    obtain ⟨rfl, rfl⟩ := names_of_inQuotes ha
    exact .refl _
  | help | version | clear | quit => cases hs

theorem same_of_short (hs : s.call? = none) (ht : t.call? = none) (h : s.line = t.line) :
    Same s t := by
  cases s <;> cases hs <;> cases t <;> cases ht <;> first | exact .refl _ | simp [line] at h

/-- A line is that of one statement, up to the values of dropped fields. -/
theorem same_of_line (hs : s.Sound) (ht : t.Sound) (h : s.line = t.line) : Same s t := by
  cases hsc : s.call? with
  | some k =>
    cases htc : t.call? with
    | some k' =>
      obtain ⟨ho, hm, ha⟩ := call_eq_of_line hsc htc h
      exact same_of_call? hsc htc hs ht ho hm ha
    | none => exact absurd h.symm (line_ne_of_call? htc hsc)
  | none =>
    cases htc : t.call? with
    | some k' => exact absurd h (line_ne_of_call? hsc htc)
    | none => exact same_of_short hsc htc h

theorem line_of_same (hs : s.Sound) (ht : t.Sound) (h : Same s t) : s.line = t.line := by
  cases h with
  | refl => rfl
  | drop hkeys =>
    have hmembers := hs.1.ascending.keys_eq ht.1.ascending hkeys
    simp only [line, changesText_drop, hmembers]

end Statement

end DocClient
