import DocClient.Proofs.Statement.Line

/-!
Conditions as a reader of comparisons takes them apart: at the first sign of an operator, and after
the longest operator that stands there. What a comparison is made of is found again in its text.
-/
namespace DocClient

variable {c : Char} {cs rest : List Char} {field field' : Name}
  {comparison comparison' : Comparison} {v : Json}

/-- The characters with which operators start. -/
def isSign (c : Char) : Bool := c == '=' || c == '<' || c == '>'

/-- The text before the first sign of an operator. -/
def beforeSign (text : String) : List Char := text.toList.takeWhile fun c => !isSign c

/-- The text from the first sign of an operator on. -/
def fromSign (text : String) : List Char := text.toList.dropWhile fun c => !isSign c

theorem isSign_of_isWord (h : Text.isWord c = true) : isSign c = false := by
  rw [Bool.eq_false_iff]
  intro hs
  simp only [isSign, Bool.or_eq_true, beq_iff_eq] at hs
  rcases hs with (rfl | rfl) | rfl <;> exact absurd h (by decide)

/-- No name holds a sign of an operator. -/
theorem not_isSign_of_mem (h : c ∈ field.text.toList) : (!isSign c) = true := by
  rw [isSign_of_isWord (Name.isWord_of_mem h), Bool.not_false]

namespace Comparison

/-- The operator is the longest of those with which a text starts. -/
structure Leads (comparison : Comparison) (cs : List Char) : Prop where
  stands : comparison.symbol.toList <+: cs
  longest : ∀ other : Comparison, other.symbol.toList <+: cs →
    other = comparison ∨ other.symbol.length < comparison.symbol.length

theorem Leads.unique (h : comparison.Leads cs) (h' : comparison'.Leads cs) :
    comparison = comparison' := by
  rcases h.longest comparison' h'.stands with he | hlt
  · exact he.symm
  rcases h'.longest comparison h.stands with he | hgt
  · exact he
  · omega

theorem isSign_symbol (comparison : Comparison) (rest : List Char) :
    ∃ c cs, comparison.symbol.toList ++ rest = c :: cs ∧ isSign c = true := by
  cases comparison <;> exact ⟨_, _, rfl, rfl⟩

end Comparison

namespace Condition

theorem chars_ne_equals (hl : v.Numbers Number.Legible) : v.chars ≠ '=' :: cs := by
  intro h
  cases v with
  | bool b => cases b <;> simp [Json.chars] at h
  | number n =>
    obtain ⟨c, cs', hcs, hc⟩ := Json.head_of_scanNumber (hl n .self)
    rw [Json.chars, hcs] at h
    obtain rfl := (List.cons.inj h).1
    simp at hc
  | _ => simp [Json.chars, Json.stringChars] at h

/-- No JSON starts with an equals sign, so that none makes an operator longer. -/
theorem leads_chars (hl : v.Numbers Number.Legible) :
    comparison.Leads (comparison.symbol.toList ++ v.chars) where
  stands := List.prefix_append _ _
  longest other hother := by
    have hequals : ¬ ['='] <+: v.chars := by
      rintro ⟨rest, hrest⟩
      exact chars_ne_equals hl hrest.symm
    cases comparison <;> cases other <;>
      simp [Comparison.symbol, List.cons_prefix_cons, hequals] at hother ⊢
    case gte.gt => decide
    case lte.lt => decide

theorem toList_compare : (compare field comparison v).text.toList
    = field.text.toList ++ (comparison.symbol.toList ++ v.chars) := by
  simp [compare, Json.render]

theorem beforeSign_compare :
    beforeSign (compare field comparison v).text = field.text.toList := by
  obtain ⟨c, cs, hcs, hc⟩ := comparison.isSign_symbol v.chars
  rw [beforeSign, toList_compare, List.takeWhile_append_of_pos fun c hm => not_isSign_of_mem hm,
    hcs, List.takeWhile_cons_of_neg (by simp [hc]), List.append_nil]

theorem fromSign_compare :
    fromSign (compare field comparison v).text = comparison.symbol.toList ++ v.chars := by
  obtain ⟨c, cs, hcs, hc⟩ := comparison.isSign_symbol v.chars
  rw [fromSign, toList_compare, List.dropWhile_append_of_pos fun c hm => not_isSign_of_mem hm,
    hcs, List.dropWhile_cons_of_neg (by simp [hc])]

/-- A built condition tells its field, its comparison and its value. -/
theorem compare_inj {v w : OrderedJson} (hv : v.json.Numbers Number.Legible)
    (hw : w.json.Numbers Number.Legible)
    (h : compare field comparison v.json = compare field' comparison' w.json) :
    field = field' ∧ comparison = comparison' ∧ v = w := by
  have hfield := congrArg (fun c => beforeSign c.text) h
  simp only [beforeSign_compare] at hfield
  have hrest := congrArg (fun c => fromSign c.text) h
  simp only [fromSign_compare] at hrest
  have hleads : comparison'.Leads (comparison.symbol.toList ++ v.json.chars) :=
    hrest ▸ leads_chars hw
  obtain rfl := (leads_chars hv).unique hleads
  have hrender : v.json.render = w.json.render :=
    congrArg String.ofList (List.append_cancel_left hrest)
  exact ⟨Name.text_inj (String.toList_inj.mp hfield), rfl, OrderedJson.render_inj hv hw hrender⟩

end Condition

end DocClient
