import DocClient.Proofs.Statement.Line
import DocClient.Proofs.Wire.RequestStream

/-!
Documents are found again in the requests that carry them, though their texts are escaped twice:
the request's text is decoded, what the statement puts around the document is taken away, and
the rest is the document's JSON.
-/
namespace DocClient

open Json (parse maxDepth)

variable {v : Json} {d : Datum} {ds : List Datum} {doc : Document} {docs : List Document}

/-- The numbers that are not whole are read as they are printed. -/
def Json.RealsLegible (v : Json) : Prop :=
  ∀ x, Part (.number (.real x)) v → (Number.real x).Legible

theorem Json.RealsLegible.numbers (h : v.RealsLegible) : v.Numbers Number.Legible := by
  intro n hp
  cases n with
  | whole m fits => exact Number.legible_whole m fits
  | real x => exact h x hp

/-- A value and the document that it becomes, fit to be read back. -/
structure Datum.Gives (d : Datum) (doc : Document) : Prop where
  ordered : d.Ordered
  document : d.document = .ok doc
  legible : (Json.object doc).RealsLegible

/-- A line that a request carries, in which the JSON of a value stands between two texts: it is
found by taking these away, and also by reading a value after the first of them. -/
def Carries (line front : String) (v : Json) (back : String) : Prop :=
  ∃ body : String, Request.decode (Request.query line).line = .ok (.query (front ++ body ++ back)) ∧
    parse body.toList = .ok v ∧
    Json.value maxDepth (body.toList ++ back.toList) = .ok (v, back.toList)

theorem carries_render {front back : String} (v : OrderedJson) (hl : v.json.RealsLegible)
    (hn : v.json.nesting ≤ maxDepth) (hback : Json.EndsNumber back.toList) :
    Carries (front ++ v.json.render ++ back) front v.json back := by
  have hbody : v.json.render.toList = v.json.chars := String.toList_ofList
  refine ⟨v.json.render, Request.decode_line _, ?_, ?_⟩
  · rw [hbody]
    exact v.parse_chars hl.numbers hn
  · rw [hbody]
    exact Json.inverts_value v.ordered hl.numbers hn _ hback

/-- A line that a request carries, in which there are between two texts the keys of a document,
each once and in the order of their bytes, as JSON strings in braces. -/
structure Names (line front : String) (keys : List String) (back : String) : Prop where
  carried : Request.decode (Request.query line).line
    = .ok (.query (front ++ "\x7b" ++ ", ".intercalate (keys.map Json.renderString) ++ "\x7d" ++ back))
  decoded : ∀ key ∈ keys, parse (Json.renderString key).toList = .ok (.string key)
  ascending : keys.Pairwise fun key key' => Text.utf8 key < Text.utf8 key'

theorem Json.endsNumber_parenthesis : Json.EndsNumber [')'] :=
  Json.endsNumber_cons (by decide) (by decide) (by decide)

/-- The end of an update, after the changes. -/
def ending : Option Condition → String
  | none => ")"
  | some condition => ", " ++ condition.text ++ ")"

theorem endsNumber_ending (condition : Option Condition) :
    Json.EndsNumber (ending condition).toList := by
  cases condition with
  | none => exact Json.endsNumber_parenthesis
  | some condition => simpa [ending] using Json.endsNumber_comma

namespace Statement

theorem commaSeparated_eq_intercalate (xs : List String) :
    commaSeparated xs = ", ".intercalate xs := by
  induction xs with
  | nil => exact String.intercalate_nil.symm
  | cons x xs ih =>
    cases xs with
    | nil => exact String.intercalate_singleton.symm
    | cons y ys =>
      rw [String.intercalate_cons_cons, ← ih]
      rfl

theorem line_update (n : Name) (action : UpdateAction) (changes : Document)
    (condition : Option Condition) :
    (update n action changes condition).line
      = n.text ++ ".update(" ++ action.keyword ++ ", " ++ changesText action changes
        ++ ending condition := by
  cases condition <;>
    simp [line, call, method, conditionArgument, commaSeparated, ending, String.append_assoc]

theorem line_insert (n : Name) (payload : Payload) :
    (insert n payload).line = n.text ++ ".insert(" ++ payload.toJson.render ++ ")" := by
  simp [line, call, method, commaSeparated, String.append_assoc]

theorem carries_insert {n : Name} {payload : Payload} (ho : payload.toJson.Ordered)
    (hl : payload.toJson.RealsLegible) (hn : payload.toJson.nesting ≤ maxDepth) :
    Carries (insert n payload).line (n.text ++ ".insert(") payload.toJson ")" := by
  rw [line_insert]
  exact carries_render ⟨_, ho⟩ hl hn Json.endsNumber_parenthesis

theorem carries_update {n : Name} {action : UpdateAction} {changes : Document}
    {condition : Option Condition} (ha : action ≠ .drop) (ho : (Json.object changes).Ordered)
    (hl : (Json.object changes).RealsLegible) (hn : (Json.object changes).nesting ≤ maxDepth) :
    Carries (update n action changes condition).line
      (n.text ++ ".update(" ++ action.keyword ++ ", ") (.object changes) (ending condition) := by
  have htext : changesText action changes = (Json.object changes).render := by
    cases action with
    | drop => exact absurd rfl ha
    | add | alter => rfl
  rw [line_update, htext]
  exact carries_render ⟨_, ho⟩ hl hn (endsNumber_ending condition)

end Statement

theorem Datum.Gives.object (h : d.Gives doc) :
    (Json.object doc).Ordered ∧ (Json.object doc).RealsLegible :=
  ⟨document_ordered h.ordered h.document, h.legible⟩

theorem Datum.Gives.array (h : List.Forall₂ Datum.Gives ds docs) :
    (Json.array (docs.map .object)).Ordered ∧ (Json.array (docs.map .object)).RealsLegible := by
  have hall : ∀ v ∈ docs.map Json.object, v.Ordered ∧ v.RealsLegible := by
    intro v hv
    obtain ⟨doc, hdoc, rfl⟩ := List.mem_map.mp hv
    obtain ⟨d, -, hd⟩ := exists_of_mem_documents h hdoc
    exact hd.object
  refine ⟨Json.ordered_array fun v hv => (hall v hv).1, ?_⟩
  rintro x (_ | ⟨hm, hp⟩)
  exact (hall _ hm).2 x hp

theorem names_drop {n : Name} {condition : Option Condition} (ho : (Json.object doc).Ordered) :
    Names (Statement.update n .drop doc condition).line (n.text ++ ".update(drop, ")
      (doc.map Prod.fst) (ending condition) where
  carried := by
    have hline : (Statement.update n .drop doc condition).line
        = n.text ++ ".update(drop, " ++ "\x7b"
          ++ ", ".intercalate ((doc.map Prod.fst).map Json.renderString) ++ "\x7d"
          ++ ending condition := by
      rw [Statement.line_update, Statement.changesText_drop, Statement.braced,
        Statement.commaSeparated_eq_intercalate]
      rw [← String.toList_inj]
      simp [UpdateAction.keyword]
    rw [Request.decode_line, hline]
  decoded key _ := by
    have hl : (Json.string key).Numbers Number.Legible := by simp [Json.Numbers]
    rw [Json.renderString, String.toList_ofList]
    exact OrderedJson.parse_chars ⟨.string key, by simp [Json.Ordered]⟩ hl (Nat.zero_le maxDepth)
  ascending := ho.ascending.keys.imp Text.utf8_lt

/-- Documents survive the way out: what is inserted, added or altered is read back from the
request as it was given, whatever the collection and the condition are called, and of what is
dropped the names are read back, in the order of their bytes. -/
theorem documents_delivered (n : Name) (condition : Option Condition) :
    (∀ d doc, Datum.Gives d doc → (Json.object doc).nesting ≤ maxDepth →
      ∃ s, (Command.insert n.text d).statement = .ok s ∧
        Carries s.line (n.text ++ ".insert(") (.object doc) ")") ∧
    (∀ ds docs, List.Forall₂ Datum.Gives ds docs →
      (Json.array (docs.map .object)).nesting ≤ maxDepth →
      ∃ s, (Command.insertMany n.text ds).statement = .ok s ∧
        Carries s.line (n.text ++ ".insert(") (.array (docs.map .object)) ")") ∧
    (∀ action d doc, action ≠ .drop → Datum.Gives d doc → (Json.object doc).nesting ≤ maxDepth →
      ∃ s, (Command.update n.text action d condition).statement = .ok s ∧
        Carries s.line (n.text ++ ".update(" ++ action.keyword ++ ", ") (.object doc)
          (ending condition)) ∧
    ∀ d doc, d.Ordered → d.document = .ok doc →
      ∃ s, (Command.update n.text .drop d condition).statement = .ok s ∧
        Names s.line (n.text ++ ".update(drop, ") (doc.map Prod.fst) (ending condition) ∧
        ∀ d' doc', d'.Ordered → d'.document = .ok doc' →
          (∀ key, key ∈ doc'.map Prod.fst ↔ key ∈ doc.map Prod.fst) →
          (Command.update n.text .drop d' condition).statement.map Statement.line
            = .ok s.line := by
  refine ⟨?_, ?_, ?_, ?_⟩
  · intro d doc hd hn
    refine ⟨.insert n (.one doc), ?_, Statement.carries_insert hd.object.1 hd.object.2 hn⟩
    simp only [Command.statement, Name.check_text, hd.document]
    rfl
  · intro ds docs hds hn
    have hdocs := documentsOf_eq_ok_iff.mpr (hds.imp fun _ _ hd => hd.document)
    have harray := Datum.Gives.array hds
    refine ⟨.insert n (.many docs), ?_, Statement.carries_insert harray.1 harray.2 hn⟩
    simp only [Command.statement, Name.check_text, hdocs]
    rfl
  · intro action d doc ha hd hn
    refine ⟨.update n action doc condition, ?_,
      Statement.carries_update ha hd.object.1 hd.object.2 hn⟩
    simp only [Command.statement, Name.check_text, hd.document]
    rfl
  · intro d doc ho hdoc
    have hstatement {d : Datum} {doc : Document} (h : d.document = .ok doc) :
        (Command.update n.text .drop d condition).statement = .ok (.update n .drop doc condition) := by
      simp only [Command.statement, Name.check_text, h]
      rfl
    have hordered := Datum.document_ordered ho hdoc
    refine ⟨.update n .drop doc condition, hstatement hdoc, names_drop hordered, ?_⟩
    intro d' doc' ho' hdoc' hkeys
    have hordered' := Datum.document_ordered ho' hdoc'
    have hline := hordered'.ascending.keys_eq hordered.ascending hkeys
    rw [hstatement hdoc']
    simp only [Except.map, Statement.line_update, Statement.changesText_drop, hline]

/-- A document in which numbers that are not whole, strings with quotes and lists are nested. -/
def nestedDocument : Document :=
  [("age", .number (.real ⟨false, 4503599627370496, -53⟩)), ("tags", .array [.string "a\"b", .null])]

theorem nestedDocument_gives : (Datum.json (.object nestedDocument)).Gives nestedDocument where
  ordered := by
    have hlt : "age" < "tags" := by decide
    have hascending : nestedDocument.Ascending := List.pairwise_pair.mpr hlt
    refine Datum.ordered_json (Json.ordered_object hascending fun m hm => ?_)
    simp only [nestedDocument, List.mem_cons, List.not_mem_nil, or_false] at hm
    rcases hm with rfl | rfl
    · simp [Json.Ordered]
    · simp [Json.Ordered]
  document := rfl
  legible := by
    have hhalf : (Number.real ⟨false, 4503599627370496, -53⟩).Legible := by
      unfold Number.Legible
      decide +kernel
    intro x hx
    simp [nestedDocument] at hx
    exact hx ▸ hhalf

theorem documents_delivered_nested :
    (∃ s, (Command.insert "users" (.json (.object nestedDocument))).statement = .ok s ∧
      Carries s.line "users.insert(" (.object nestedDocument) ")") ∧
    ∃ s, (Command.update "users" .drop (.json (.object nestedDocument)) none).statement = .ok s ∧
      Names s.line "users.update(drop, " ["age", "tags"] ")" := by
  have hgives := nestedDocument_gives
  obtain ⟨hinsert, -, -, hdrop⟩ := documents_delivered ⟨"users", by decide⟩ none
  obtain ⟨s, hs, hnames, -⟩ := hdrop _ _ hgives.ordered hgives.document
  exact ⟨hinsert _ _ hgives (by decide), s, hs, hnames⟩

end DocClient
