import DocClient.Command
import DocClient.Proofs.Json.Reader

/-!
Argument lists without any escapes between the arguments: each kind of argument can still be told
from what comes after it.
-/
namespace DocClient

variable {c : Char} {cs cs' rest rest' : List Char} {s s' : String} {v w : Json}

/-- Two texts that both end at the first occurrence of a character are the same. -/
theorem eq_of_append_cons (hc : c ∉ cs) (hc' : c ∉ cs')
    (h : cs ++ c :: rest = cs' ++ c :: rest') : cs = cs' ∧ rest = rest' := by
  induction cs generalizing cs' with
  | nil =>
    cases cs' with
    | nil => exact ⟨rfl, (List.cons.inj h).2⟩
    | cons a cs' => exact absurd ((List.cons.inj h).1 ▸ List.mem_cons_self) hc'
  | cons a cs ih =>
    cases cs' with
    | nil => exact absurd ((List.cons.inj h).1 ▸ List.mem_cons_self) hc
    | cons a' cs' =>
      obtain ⟨rfl, htail⟩ := List.cons.inj h
      obtain ⟨rfl, hrest⟩ := ih (mt (List.mem_cons_of_mem a) hc) (mt (List.mem_cons_of_mem a) hc')
        htail
      exact ⟨rfl, hrest⟩

theorem Json.stringChars_append_inj
    (h : stringChars s ++ rest = stringChars s' ++ rest') : s = s' ∧ rest = rest' := by
  simp only [stringChars, List.cons_append, List.append_assoc, List.nil_append,
    List.cons.injEq, true_and] at h
  have hread := stringRest_chars s rest
  rw [h, stringRest_chars s' rest'] at hread
  exact Prod.mk.inj (Except.ok.inj hread.symm)

namespace Statement

/-- The arguments after another one, with the comma before each. -/
def continued : List String → String
  | [] => ""
  | xs => ", " ++ commaSeparated xs

theorem commaSeparated_cons (x : String) (xs : List String) :
    commaSeparated (x :: xs) = x ++ continued xs := by
  cases xs with
  | nil => simp [commaSeparated, continued]
  | cons y ys => simp [commaSeparated, continued, String.append_assoc]

theorem append_left_cancel {x y y' : String} (h : x ++ y = x ++ y') : y = y' := by
  have hlist := congrArg String.toList h
  simp only [String.toList_append, List.append_cancel_left_eq] at hlist
  exact String.toList_inj.mp hlist

theorem commaSeparated_of_continued {x y : String} {xs ys : List String}
    (h : continued (x :: xs) = continued (y :: ys)) :
    commaSeparated (x :: xs) = commaSeparated (y :: ys) :=
  append_left_cancel h

section Optional

variable {α : Type} {f : α → String} {o o' : Option α}

theorem optional_of_continued (hf : ∀ {a b}, f a = f b → a = b)
    (h : continued (o.toList.map f) = continued (o'.toList.map f)) : o = o' := by
  cases o <;> cases o'
  · rfl
  · simp [continued] at h
  · simp [continued] at h
  · exact congrArg some (hf (append_left_cancel h))

/-- An optional argument that stands alone must not be empty to be seen. -/
theorem optional_of_commaSeparated (hf : ∀ {a b}, f a = f b → a = b) (ho : ∀ a ∈ o, f a ≠ "")
    (ho' : ∀ a ∈ o', f a ≠ "")
    (h : commaSeparated (o.toList.map f) = commaSeparated (o'.toList.map f)) : o = o' := by
  cases o <;> cases o'
  · rfl
  · exact absurd h.symm (ho' _ rfl)
  · exact absurd h (ho _ rfl)
  · exact congrArg some (hf h)

end Optional

/-- What may come after an argument: nothing, or a comma. -/
def Follows (rest : List Char) : Prop := ∀ c ∈ rest.head?, c = ','

theorem follows_continued (xs : List String) : Follows (continued xs).toList := by
  cases xs with
  | nil => nofun
  | cons x xs => simp [Follows, continued]

theorem Follows.endsNumber (h : Follows rest) : Json.EndsNumber rest := by
  cases rest with
  | nil => exact Json.endsNumber_nil
  | cons c rest =>
    obtain rfl := h c rfl
    exact Json.endsNumber_comma

/-- Arguments of a kind are told from what comes after them. -/
def Separable (kind : String → Prop) : Prop :=
  ∀ {x x' : String} {rest rest' : List Char}, kind x → kind x' → Follows rest → Follows rest' →
    x.toList ++ rest = x'.toList ++ rest' → x = x' ∧ rest = rest'

/-- The first argument is told from the others. -/
theorem Separable.head {kind : String → Prop} (hk : Separable kind) {x x' : String}
    {xs xs' : List String} (hx : kind x) (hx' : kind x')
    (h : commaSeparated (x :: xs) = commaSeparated (x' :: xs')) :
    x = x' ∧ continued xs = continued xs' := by
  rw [commaSeparated_cons, commaSeparated_cons, ← String.toList_inj, String.toList_append,
    String.toList_append] at h
  obtain ⟨rfl, hrest⟩ := hk hx hx' (follows_continued xs) (follows_continued xs') h
  exact ⟨rfl, String.toList_inj.mp hrest⟩

theorem toList_inQuotes (text : String) :
    (inQuotes text).toList = '"' :: (text.toList ++ ['"']) := by
  simp [inQuotes]

/-- Texts in quotes, without quotes inside. -/
def Quoted (x : String) : Prop := ∃ text, '"' ∉ text.toList ∧ x = inQuotes text

theorem separable_quoted : Separable Quoted := by
  rintro _ _ rest rest' ⟨text, ht, rfl⟩ ⟨text', ht', rfl⟩ - - h
  simp only [toList_inQuotes, List.cons_append, List.append_assoc, List.nil_append,
    List.cons.injEq, true_and] at h
  obtain ⟨htext, hrest⟩ := eq_of_append_cons ht ht' h
  exact ⟨congrArg inQuotes (String.toList_inj.mp htext), hrest⟩

theorem inQuotes_inj (h : inQuotes s = inQuotes s') : s = s' := by
  have hlist := congrArg String.toList h
  simp only [toList_inQuotes, List.cons.injEq, true_and, List.append_cancel_right_eq] at hlist
  exact String.toList_inj.mp hlist

/-- The text of a value that can be read back. -/
def Rendered (x : String) : Prop :=
  ∃ v : OrderedJson, v.json.Numbers Number.Legible ∧ x = v.json.render

theorem separable_rendered : Separable Rendered := by
  rintro _ _ rest rest' ⟨v, hv, rfl⟩ ⟨w, hw, rfl⟩ hrest hrest' h
  simp only [Json.render, String.toList_ofList] at h
  obtain ⟨rfl, hr⟩ := OrderedJson.chars_append_inj hv hw hrest.endsNumber hrest'.endsNumber h
  exact ⟨rfl, hr⟩

theorem separable_keyword : Separable fun x => ∃ action : UpdateAction, x = action.keyword := by
  rintro _ _ rest rest' ⟨action, rfl⟩ ⟨action', rfl⟩ - - h
  cases action <;> cases action' <;> simp [UpdateAction.keyword] at h ⊢ <;> exact h

/-- A list of strings in braces. -/
def braced (keys : List String) : String :=
  "\x7b" ++ commaSeparated (keys.map Json.renderString) ++ "\x7d"

theorem toList_braced (keys : List String) :
    (braced keys).toList
      = '\x7b' :: ((commaSeparated (keys.map Json.renderString)).toList ++ ['\x7d']) := by
  simp [braced]

theorem keys_append_inj {keys keys' : List String}
    (h : (commaSeparated (keys.map Json.renderString)).toList ++ '\x7d' :: rest
      = (commaSeparated (keys'.map Json.renderString)).toList ++ '\x7d' :: rest') :
    keys = keys' ∧ rest = rest' := by
  induction keys generalizing keys' with
  | nil =>
    cases keys' with
    | nil => exact ⟨rfl, by simpa [commaSeparated] using h⟩
    | cons key' keys' =>
      simp [commaSeparated, commaSeparated_cons, Json.renderString, Json.stringChars] at h
  | cons key keys ih =>
    cases keys' with
    | nil => simp [commaSeparated, commaSeparated_cons, Json.renderString, Json.stringChars] at h
    | cons key' keys' =>
      simp only [List.map_cons, commaSeparated_cons, String.toList_append, Json.renderString,
        String.toList_ofList, List.append_assoc] at h
      obtain ⟨rfl, h⟩ := Json.stringChars_append_inj h
      cases keys with
      | nil =>
        cases keys' with
        | nil => exact ⟨rfl, by simpa [continued] using h⟩
        | cons next' keys' => simp [continued] at h
      | cons next keys =>
        cases keys' with
        | nil => simp [continued] at h
        | cons next' keys' =>
          have htail : next :: keys = next' :: keys' ∧ rest = rest' := by
            apply ih
            simpa [continued] using h
          exact ⟨congrArg (key :: ·) htail.1, htail.2⟩

theorem separable_braced : Separable fun x => ∃ keys, x = braced keys := by
  rintro _ _ rest rest' ⟨keys, rfl⟩ ⟨keys', rfl⟩ - - h
  simp only [toList_braced, List.cons_append, List.append_assoc, List.nil_append,
    List.cons.injEq, true_and] at h
  obtain ⟨rfl, hrest⟩ := keys_append_inj h
  exact ⟨rfl, hrest⟩

theorem braced_inj {keys keys' : List String} (h : braced keys = braced keys') : keys = keys' := by
  have hlist := congrArg String.toList h
  simp only [toList_braced, List.cons.injEq, true_and] at hlist
  exact (keys_append_inj hlist).1

end Statement

end DocClient
