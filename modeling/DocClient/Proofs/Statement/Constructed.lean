import DocClient.Proofs.Condition

/-!
The statements that constructors make of a caller's arguments: whatever the arguments say, the
line of one of them is the line of no other.
-/
namespace DocClient

variable {s t : Statement}

namespace Condition

/-- A condition built from an ordered value with whole numbers only. -/
def Built (c : Condition) : Prop :=
  ∃ field comparison, ∃ v : OrderedJson, v.json.Whole ∧ c = compare field comparison v.json

end Condition

/-- The value's JSON is ordered and has whole numbers only. -/
structure Datum.Whole (d : Datum) : Prop where
  ordered : d.Ordered
  whole : ∀ v, d.toJson = .ok v → v.Whole

namespace Command

/-- All numbers in the arguments are whole, and conditions are built, not written. -/
def Whole : Command → Prop
  | insert _ document => document.Whole
  | insertMany _ documents => ∀ d ∈ documents, d.Whole
  | print _ condition | remove _ condition => ∀ c ∈ condition, c.Built
  | update _ _ changes condition => changes.Whole ∧ ∀ c ∈ condition, c.Built
  | _ => True

end Command

section Soundness

variable {d : Datum} {ds : List Datum} {doc : Document} {docs : List Document} {c : Condition}

theorem Datum.Whole.document (hd : d.Whole) (h : d.document = .ok doc) :
    (Json.object doc).Ordered ∧ (Json.object doc).Numbers Number.Legible :=
  ⟨document_ordered hd.ordered h, (hd.whole _ (toJson_of_document h)).legible⟩

theorem Datum.Whole.documents (hd : ∀ d ∈ ds, d.Whole) (h : documentsOf ds = .ok docs) :
    (Payload.many docs).toJson.Ordered ∧ (Payload.many docs).toJson.Numbers Number.Legible := by
  have hall : ∀ v ∈ docs.map Json.object, v.Ordered ∧ v.Numbers Number.Legible := by
    intro v hv
    obtain ⟨doc, hdoc, rfl⟩ := List.mem_map.mp hv
    obtain ⟨d, hm, hdoc⟩ := exists_of_mem_documents (documentsOf_eq_ok_iff.mp h) hdoc
    exact (hd d hm).document hdoc
  exact ⟨Json.ordered_array fun v hv => (hall v hv).1, Json.numbers_array fun v hv => (hall v hv).2⟩

theorem quote_not_mem_password {text : String} {u : Unit} (h : checkPassword text = .ok u) :
    '"' ∉ text.toList := by
  intro hm
  unfold checkPassword at h
  split at h
  · next hp =>
    simp only [isPassword, Bool.and_eq_true, List.all_eq_true] at hp
    exact absurd (hp.2 _ hm) (by decide)
  · exact absurd h nofun

theorem Condition.Built.text_ne_empty (h : c.Built) : c.text ≠ "" := by
  obtain ⟨field, comparison, v, -, rfl⟩ := h
  intro he
  have hlist := congrArg String.toList he
  cases comparison <;> simp [compare, Comparison.symbol] at hlist

end Soundness

namespace Statement

/-- The statements that a caller can make without text of the command language. -/
inductive Constructed : Statement → Prop
  | command {command : Command} {s : Statement} (hw : command.Whole)
      (h : command.statement = .ok s) : Constructed s
  | quit : Constructed .quit

theorem Constructed.sound (h : Constructed s) : s.Sound := by
  cases h with
  | quit => trivial
  | @command command _ hw h =>
    cases command with
    | createDatabase | useDatabase | createCollection | dropCollection | deleteProfile =>
      obtain ⟨n, -, rfl⟩ := map_ok h
      trivial
    | dropDatabase name =>
      cases name with
      | none =>
        obtain rfl := Except.ok.inj h
        trivial
      | some name =>
        obtain ⟨n, -, rfl⟩ := map_ok h
        trivial
    | listDatabases | listCollections | listProfiles | help | version | clear =>
      obtain rfl := Except.ok.inj h
      trivial
    | insert collection document =>
      obtain ⟨n, -, h⟩ := bind_ok h
      obtain ⟨doc, hdoc, h⟩ := bind_ok h
      obtain rfl := Except.ok.inj h
      exact hw.document hdoc
    | insertMany collection documents =>
      obtain ⟨n, -, h⟩ := bind_ok h
      obtain ⟨docs, hdocs, h⟩ := bind_ok h
      obtain rfl := Except.ok.inj h
      exact Datum.Whole.documents hw hdocs
    | print collection condition | remove collection condition =>
      obtain ⟨n, -, rfl⟩ := map_ok h
      exact fun c hc => (hw c hc).text_ne_empty
    | update collection action changes condition =>
      obtain ⟨n, -, h⟩ := bind_ok h
      obtain ⟨doc, hdoc, h⟩ := bind_ok h
      obtain rfl := Except.ok.inj h
      exact hw.1.document hdoc
    | createProfile user password role =>
      obtain ⟨u, hpassword, h⟩ := bind_ok h
      obtain ⟨n, -, h⟩ := bind_ok h
      obtain rfl := Except.ok.inj h
      exact quote_not_mem_password hpassword
    | grant user database | revoke user database =>
      obtain ⟨n, -, h⟩ := bind_ok h
      obtain ⟨m, -, h⟩ := bind_ok h
      obtain rfl := Except.ok.inj h
      trivial

/-- Two statements have the same line only if they are the same, or drop the same fields. -/
theorem line_eq_iff (hs : Constructed s) (ht : Constructed t) : s.line = t.line ↔ Same s t :=
  ⟨same_of_line hs.sound ht.sound, line_of_same hs.sound ht.sound⟩

/-- An update that drops a field can be made with any value for it. -/
theorem constructed_drop {n : Name} {key : String} {v : Json} (ho : v.Ordered) (hw : v.Whole) :
    Constructed (update n .drop [(key, v)] none) := by
  have hdatum : (Datum.json (.object [(key, v)])).Whole := by
    constructor
    · apply Datum.ordered_json
      exact Json.ordered_object (List.pairwise_singleton _ _) (by simpa using ho)
    · intro w hv
      obtain rfl := Except.ok.inj hv
      apply Json.numbers_object
      intro m hm
      obtain rfl := List.mem_singleton.mp hm
      exact hw
  have hstatement : (Command.update n.text .drop (.json (.object [(key, v)])) none).statement
      = .ok (update n .drop [(key, v)] none) := by
    simp only [Command.statement, Name.check_text]
    rfl
  have hcommand : (Command.update n.text .drop (.json (.object [(key, v)])) none).Whole :=
    ⟨hdatum, by simp⟩
  exact .command hcommand hstatement

/-- The values of dropped fields are not in the line, their names are. -/
theorem line_eq_iff_dropped :
    let users : Name := ⟨"users", by decide⟩
    (update users .drop [("age", .bool true)] none).line
        = (update users .drop [("age", .null)] none).line ∧
      (update users .drop [("age", .null)] none).line
        ≠ (update users .drop [("name", .null)] none).line := by
  intro users
  have htrue : Constructed (update users .drop [("age", .bool true)] none) :=
    constructed_drop (by simp [Json.Ordered]) (by simp [Json.Whole, Json.Numbers])
  have hnull (key : String) : Constructed (update users .drop [(key, .null)] none) :=
    constructed_drop (by simp [Json.Ordered]) (by simp [Json.Whole, Json.Numbers])
  constructor
  · exact (line_eq_iff htrue (hnull "age")).mpr (.drop fun key => by simp)
  · intro h
    have hkeys := ((line_eq_iff (hnull "age") (hnull "name")).mp h).keys "age"
    simp at hkeys

end Statement

end DocClient
