import DocClient.Proofs.Statement.Delivery
import DocClient.Proofs.Validation

/-!
Documents inserted together against documents inserted one at a time: the same checks in the same
order, and the same texts side by side.
-/
namespace DocClient

variable {collection : String} {d : Datum} {ds : List Datum} {f : Failure} {s : Statement}

theorem Json.render_array (vs : List Json) :
    (Json.array vs).render = "[" ++ ",".intercalate (vs.map Json.render) ++ "]" := by
  have hitems : String.ofList (Json.itemsChars vs) = ",".intercalate (vs.map Json.render) := by
    induction vs with
    | nil => exact String.intercalate_nil.symm
    | cons v vs ih =>
      cases vs with
      | nil => exact String.intercalate_singleton.symm
      | cons w vs =>
        rw [Json.itemsChars_cons, List.map_cons, List.map_cons, String.intercalate_cons_cons,
          ← List.map_cons, ← ih, Json.render]
        apply String.toList_inj.mp
        simp
  rw [← hitems, Json.render, Json.chars]
  apply String.toList_inj.mp
  simp

theorem nameFault?_eq_none_iff : nameFault? collection = none ↔ isName collection = true := by
  simp [nameFault?]

namespace Command

/-- A statement is made of a command if none of its checks finds anything. -/
theorem exists_statement_iff {c : Command} :
    (∃ s, c.statement = .ok s) ↔ ∀ x ∈ c.checks, x = none := by
  have hfault : (∃ s, c.statement = .ok s) ↔ c.fault? = none := by
    rw [← failureOf_statement]
    cases c.statement <;> simp [failureOf]
  rw [hfault, fault?, List.findSome?_eq_none_iff]
  rfl

theorem exists_insert_iff : (∃ s, (insert collection d).statement = .ok s) ↔
    isName collection = true ∧ documentFault? d = none := by
  simp [exists_statement_iff, checks, nameFault?_eq_none_iff]

theorem exists_insertMany_iff : (∃ s, (insertMany collection ds).statement = .ok s) ↔
    isName collection = true ∧ ∀ d ∈ ds, documentFault? d = none := by
  simp [exists_statement_iff, checks, nameFault?_eq_none_iff]

theorem insert_error_iff (hn : isName collection = true) :
    (insert collection d).statement = .error f ↔ documentFault? d = some f := by
  rw [statement_error_iff, fault?, checks, nameFault?_eq_none_iff.mpr hn, first_cons, first_one,
    Option.none_or]

/-- The first document that cannot be inserted alone decides, whatever comes after it. -/
theorem insertMany_error_iff (hn : isName collection = true) :
    (insertMany collection ds).statement = .error f ↔
      ∃ front d back, ds = front ++ d :: back ∧
        (∀ d' ∈ front, ∃ s, (insert collection d').statement = .ok s) ∧
        (insert collection d).statement = .error f := by
  have hfirst : (insertMany collection ds).statement = .error f ↔
      ds.findSome? documentFault? = some f := by
    rw [statement_error_iff, fault?, checks, nameFault?_eq_none_iff.mpr hn, first_cons,
      Option.none_or, List.findSome?_map, Function.id_comp]
  rw [hfirst, List.findSome?_eq_some_iff]
  constructor
  · rintro ⟨front, d, back, hds, hd, hfront⟩
    refine ⟨front, d, back, hds, ?_, (insert_error_iff hn).mpr hd⟩
    exact fun d' hd' => exists_insert_iff.mpr ⟨hn, hfront d' hd'⟩
  · rintro ⟨front, d, back, hds, hfront, hd⟩
    refine ⟨front, d, back, hds, (insert_error_iff hn).mp hd, ?_⟩
    exact fun d' hd' => (exists_insert_iff.mp (hfront d' hd')).2

theorem insertMany_invalid (hn : isName collection = false) :
    (insertMany collection ds).statement = .error (.invalidName collection) := by
  rw [statement_error_iff, fault?, checks, first_cons]
  simp [nameFault?, hn]

end Command

/-- What a statement inserts: a value, and the text that stands for it in the line. -/
structure Inserted where
  value : Json
  text : String

namespace Statement

/-- The statement inserts into a collection, and says so in its line. -/
structure Inserts (s : Statement) (collection : String) (i : Inserted) : Prop where
  value : ∃ n payload, n.text = collection ∧ s = insert n payload ∧ payload.toJson = i.value
  line : s.line = collection ++ ".insert(" ++ i.text ++ ")"

theorem inserts_insert (n : Name) (payload : Payload) :
    (insert n payload).Inserts n.text ⟨payload.toJson, payload.toJson.render⟩ where
  value := ⟨n, payload, rfl, rfl, rfl⟩
  line := line_insert n payload

end Statement

/-- What a single value inserts into a collection. -/
def Single (collection : String) (d : Datum) (i : Inserted) : Prop :=
  ∃ s, (Command.insert collection d).statement = .ok s ∧ s.Inserts collection i

/-- Insertions side by side in one list. -/
def Inserted.joined (singles : List Inserted) : Inserted :=
  ⟨.array (singles.map value), "[" ++ ",".intercalate (singles.map text) ++ "]"⟩

theorem singles_of_insertMany (h : (Command.insertMany collection ds).statement = .ok s) :
    ∃ singles, List.Forall₂ (Single collection) ds singles ∧
      s.Inserts collection (.joined singles) := by
  obtain ⟨n, hn, h⟩ := bind_ok h
  obtain ⟨docs, hdocs, h⟩ := bind_ok h
  obtain rfl := Except.ok.inj h
  obtain rfl := Name.check_eq_ok_iff.mp hn
  let inserted (doc : Document) : Inserted := ⟨.object doc, (Json.object doc).render⟩
  have hsingle {d : Datum} {doc : Document} (hd : d.document = .ok doc) :
      Single n.text d (inserted doc) := by
    refine ⟨.insert n (.one doc), ?_, Statement.inserts_insert n (.one doc)⟩
    simp only [Command.statement, Name.check_text, hd]
    rfl
  have hmany : Inserted.joined (docs.map inserted)
      = ⟨(Payload.many docs).toJson, (Payload.many docs).toJson.render⟩ := by
    simp [Inserted.joined, inserted, Payload.toJson, Json.render_array, Function.comp_def]
  refine ⟨docs.map inserted, ?_, hmany ▸ Statement.inserts_insert n (.many docs)⟩
  rw [List.forall₂_map_right_iff]
  exact (documentsOf_eq_ok_iff.mp hdocs).imp fun _ _ hd => hsingle hd

/-- To insert many documents is to insert each of them. It succeeds if every single insertion does,
and then inserts their values side by side; if not, it fails as the first of them that fails. -/
theorem insertMany_by_one (collection : String) (ds : List Datum) :
    ((∃ s, (Command.insertMany collection ds).statement = .ok s) ↔
      isName collection = true ∧
        ∀ d ∈ ds, ∃ s, (Command.insert collection d).statement = .ok s) ∧
    (∀ s, (Command.insertMany collection ds).statement = .ok s →
      ∃ singles, List.Forall₂ (Single collection) ds singles ∧
        s.Inserts collection (.joined singles)) ∧
    ∀ f, (Command.insertMany collection ds).statement = .error f ↔
      isName collection = false ∧ f = .invalidName collection ∨
      isName collection = true ∧ ∃ front d back, ds = front ++ d :: back ∧
        (∀ d' ∈ front, ∃ s, (Command.insert collection d').statement = .ok s) ∧
        (Command.insert collection d).statement = .error f := by
  refine ⟨?_, fun s hs => singles_of_insertMany hs, ?_⟩
  · rw [Command.exists_insertMany_iff]
    refine and_congr_right fun hn => ?_
    exact forall₂_congr fun d _ => by simp [Command.exists_insert_iff, hn]
  · intro f
    cases hn : isName collection with
    | false => simp [Command.insertMany_invalid hn, eq_comm]
    | true => simp [Command.insertMany_error_iff hn]

/-- Two documents that are inserted, and three values of which the second is none and the third
has no JSON form. -/
theorem insertMany_by_one_mixed :
    (∃ s singles, (Command.insertMany "users" [.record [], .record [("b", .unit)]]).statement = .ok s ∧
      List.Forall₂ (Single "users") [.record [], .record [("b", .unit)]] singles ∧
        s.Inserts "users" (.joined singles)) ∧
    (Command.insertMany "users" [.record [], .unit, .refusal "no"]).statement
      = .error (.serialization "document must be a JSON object, got null") := by
  have hn : isName "users" = true := by decide
  constructor
  · obtain ⟨hiff, hmany, -⟩ := insertMany_by_one "users" [.record [], .record [("b", .unit)]]
    have hall : ∀ d ∈ [Datum.record [], .record [("b", .unit)]],
        ∃ s, (Command.insert "users" d).statement = .ok s := by
      intro d hd
      simp only [List.mem_cons, List.not_mem_nil, or_false] at hd
      rcases hd with rfl | rfl <;> exact Command.exists_insert_iff.mpr ⟨hn, rfl⟩
    obtain ⟨s, hs⟩ := hiff.mpr ⟨hn, hall⟩
    obtain ⟨singles, hsingles, hinserts⟩ := hmany s hs
    exact ⟨s, singles, hs, hsingles, hinserts⟩
  · obtain ⟨-, -, herror⟩ := insertMany_by_one "users" [.record [], .unit, .refusal "no"]
    refine (herror _).mpr (Or.inr ⟨hn, [.record []], .unit, [.refusal "no"], rfl, ?_, ?_⟩)
    · intro d hd
      obtain rfl := List.mem_singleton.mp hd
      exact Command.exists_insert_iff.mpr ⟨hn, rfl⟩
    · exact (Command.insert_error_iff hn).mpr rfl

end DocClient
