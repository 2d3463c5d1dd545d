import DocClient.Proofs.Condition
import DocClient.Proofs.Statement.SingleLine
import DocClient.Proofs.Wire.RoundTrip

/-!
Comparisons are read back from the conditions that they make: the name, the operator, and the value
in the JSON on the rest of the line.
-/
namespace DocClient

/-- What a condition says: a name, an operator, and a value in the JSON on the rest of its one
line. -/
structure Condition.Says (condition : Condition) (name : String) (comparison : Comparison)
    (v : Json) : Prop where
  name : beforeSign condition.text = name.toList
  operator : comparison.Leads (fromSign condition.text)
  value : ∃ body : String, fromSign condition.text = comparison.symbol.toList ++ body.toList ∧
    ConsoleClient.isSingleLine body = true ∧ Json.parse body.toList = .ok v

/-- A comparison is read back from the condition that it makes, whatever its value holds. -/
theorem comparisons_read (name : String) (comparison : Comparison) (v : OrderedJson)
    (hname : isName name = true) (hl : v.json.RealsLegible) (hn : v.json.nesting ≤ Json.maxDepth) :
    ∃ field, Name.check name = .ok field ∧
      (Condition.compare field comparison v.json).Says name comparison v.json := by
  refine ⟨⟨name, hname⟩, dif_pos hname, Condition.beforeSign_compare, ?_, ?_⟩
  · rw [Condition.fromSign_compare]
    exact Condition.leads_chars hl.numbers
  · refine ⟨v.json.render, ?_, isSingleLine_render v.json, ?_⟩
    · rw [Condition.fromSign_compare, Json.render, String.toList_ofList]
    · rw [Json.render, String.toList_ofList]
      exact v.parse_chars hl.numbers hn

/-- Texts with operators, quotes, parentheses and commas in them beside a number that is not whole,
to stand after the operator that an equals sign would make longer. -/
def signs : OrderedJson where
  json := .array [.string "=a>=\"b\",(c)", .string "<=", Reply.halves]
  ordered := by
    intro doc hdoc
    simp [Reply.halves] at hdoc

theorem comparisons_read_signs : isName "größe" = true ∧ signs.json.nesting ≤ Json.maxDepth ∧
    ∃ field, Name.check "größe" = .ok field ∧
      (Condition.compare field .gt signs.json).Says "größe" .gt signs.json := by
  have hname : isName "größe" = true := by decide
  have hn : signs.json.nesting ≤ Json.maxDepth := by decide
  have hl : signs.json.RealsLegible := by
    intro x hx
    have hhalves : Json.Part (.number (.real x)) Reply.halves := by simpa [signs] using hx
    exact Reply.halves_legible x hhalves
  exact ⟨hname, hn, comparisons_read "größe" .gt signs hname hl hn⟩

end DocClient
