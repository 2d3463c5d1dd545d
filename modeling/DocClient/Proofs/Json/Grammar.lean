import DocClient.Proofs.Command
import DocClient.Proofs.Json.Reader

/-!
The grammar of JSON text. A text is given its value part by part, with nothing said of how it is
read: blanks may stand around every value and every key, a later member takes the place of an
earlier one with the same key, and each bracket uses up a level of the depth allowed. What is
spelled between quotes is here shown to be what the reader takes for it, as numerals were before.
-/
namespace DocClient.Json

variable {α : Type} {cs rest : List Char}

section Grammar

/-- Blanks only. -/
def Gaps (cs : List Char) : Prop := ∀ c ∈ cs, isGap c = true

/-- Four hexadecimal digits and their value. -/
inductive Hex : List Char → Nat → Prop
  | digits {a b c d : Char} {k l m n : Nat} (ha : hexValue? a = some k) (hb : hexValue? b = some l)
      (hc : hexValue? c = some m) (hd : hexValue? d = some n) :
      Hex [a, b, c, d] (k * 4096 + l * 256 + m * 16 + n)

/-- The escapes of one letter, and what each stands for. -/
def letterEscapes : List (Char × Char) :=
  [('"', '"'), ('\\', '\\'), ('/', '/'), ('b', '\x08'), ('f', '\x0c'), ('n', '\n'), ('r', '\r'),
    ('t', '\t')]

/-- The character that two surrogates stand for. -/
def ofSurrogates (high low : Nat) : Char :=
  Char.ofNat (0x10000 + (high - 0xD800) * 0x400 + (low - 0xDC00))

/-- What may follow a backslash, and the character that it stands for: a letter, the number of a
character, or the two numbers of a surrogate pair. -/
inductive Escape : List Char → Char → Prop
  | letter {e c : Char} (h : (e, c) ∈ letterEscapes) : Escape [e] c
  | number {ds : List Char} {n : Nat} (h : Hex ds n) (hlow : isLowSurrogate n = false)
      (hhigh : isHighSurrogate n = false) : Escape ('u' :: ds) (Char.ofNat n)
  | pair {ds ds' : List Char} {n n' : Nat} (h : Hex ds n) (h' : Hex ds' n')
      (hlow : isLowSurrogate n = false) (hhigh : isHighSurrogate n = true)
      (hlow' : isLowSurrogate n' = true) :
      Escape ('u' :: (ds ++ '\\' :: 'u' :: ds')) (ofSurrogates n n')

/-- What stands between the quotes of a string, and the characters of the string. -/
inductive Spells : List Char → List Char → Prop
  | nil : Spells [] []
  | plain {c : Char} {cs s : List Char} (hq : c ≠ '"') (hb : c ≠ '\\') (hc : 0x20 ≤ c.toNat)
      (h : Spells cs s) : Spells (c :: cs) (c :: s)
  | escaped {c : Char} {e cs s : List Char} (he : Escape e c) (h : Spells cs s) :
      Spells ('\\' :: e ++ cs) (c :: s)

/-- Values without brackets. A numeral that stands for no number is not one of them. -/
inductive Plain : List Char → Json → Prop
  | null : Plain ['n', 'u', 'l', 'l'] .null
  | true : Plain ['t', 'r', 'u', 'e'] (.bool true)
  | false : Plain ['f', 'a', 'l', 's', 'e'] (.bool false)
  | number {x : Numeral} {n : Number} (h : x.Means n) : Plain x.chars (.number n)
  | string {body s : List Char} (h : Spells body s) :
      Plain ('"' :: body ++ ['"']) (.string (String.ofList s))

/-- A text with blanks around it. -/
inductive Amid (text : List Char → α → Prop) : List Char → α → Prop
  | mk {front body back : List Char} {a : α} (hf : Gaps front) (h : text body a) (hb : Gaps back) :
      Amid text (front ++ body ++ back) a

/-- One text or more, separated by commas, with blanks around each of them. -/
inductive Series (text : List Char → α → Prop) : List Char → List α → Prop
  | one {cs : List Char} {a : α} (h : Amid text cs a) : Series text cs [a]
  | cons {cs cs' : List Char} {a : α} {as : List α} (h : Amid text cs a) (hs : Series text cs' as) :
      Series text (cs ++ ',' :: cs') (a :: as)

/-- What stands between two brackets. -/
inductive Contents (text : List Char → α → Prop) : List Char → List α → Prop
  | empty {cs : List Char} (h : Gaps cs) : Contents text cs []
  | series {cs : List Char} {as : List α} (h : Series text cs as) : Contents text cs as

/-- A key, a colon and a value. -/
inductive MemberText (value : List Char → Json → Prop) : List Char → String × Json → Prop
  | mk {body key gap gap' cs : List Char} {v : Json} (hk : Spells body key) (hg : Gaps gap)
      (hg' : Gaps gap') (hv : value cs v) :
      MemberText value ('"' :: body ++ '"' :: gap ++ ':' :: gap' ++ cs) (String.ofList key, v)

/-- The members of an object that is written member by member, a key as often as one likes. -/
def gather (ms : List (String × Json)) : Document :=
  ms.foldl (fun doc m => setMember m.1 m.2 doc) []

/-- An object and its members, in the order of the text. -/
inductive ObjectText (value : List Char → Json → Prop) :
    List Char → List (String × Json) → Prop
  | mk {cs : List Char} {ms : List (String × Json)} (h : Contents (MemberText value) cs ms) :
      ObjectText value ('\x7b' :: cs ++ ['\x7d']) ms

/-- Values whose items and members, if they have any, are given by `inner`. -/
inductive Nested (inner : List Char → Json → Prop) : List Char → Json → Prop
  | plain {cs : List Char} {v : Json} (h : Plain cs v) : Nested inner cs v
  | array {cs : List Char} {vs : List Json} (h : Contents inner cs vs) :
      Nested inner ('[' :: cs ++ [']']) (.array vs)
  | object {cs : List Char} {ms : List (String × Json)} (h : ObjectText inner cs ms) :
      Nested inner cs (.object (gather ms))

/-- Values in which brackets nest at most `depth` levels. -/
def Denotes : Nat → List Char → Json → Prop
  | 0 => Plain
  | depth + 1 => Nested (Denotes depth)

/-- A text that is an object, and its members in the order of the text. -/
def Lists : List Char → List (String × Json) → Prop :=
  Amid (ObjectText (Denotes (maxDepth - 1)))

end Grammar

section Strings

theorem fourHex_eq_ok_iff {n : Nat} :
    fourHex cs = .ok (n, rest) ↔ ∃ ds, Hex ds n ∧ cs = ds ++ rest := by
  constructor
  · intro h
    unfold fourHex at h
    split at h
    · simp at h
    · split at h
      · next a b c d tail _ =>
        split at h
        · next ha hb hc hd =>
          obtain ⟨rfl, rfl⟩ := Prod.mk.inj (Except.ok.inj h)
          exact ⟨_, .digits ha hb hc hd, rfl⟩
        · simp at h
      · simp at h
  · rintro ⟨ds, ⟨ha, hb, hc, hd⟩, rfl⟩
    rename_i a b c d _ _ _ _
    have hbytes : ¬ Text.byteLength [a, b, c, d] < 4 := by
      have := a.utf8Size_pos
      have := b.utf8Size_pos
      have := c.utf8Size_pos
      have := d.utf8Size_pos
      simp only [Text.byteLength, List.foldl_cons, List.foldl_nil]
      omega
    simp only [fourHex, List.cons_append, List.nil_append, List.take_succ_cons, List.take_zero,
      if_neg hbytes, ha, hb, hc, hd]

theorem lowSurrogate_eq_ok_iff {n : Nat} {c : Char} :
    lowSurrogate n cs = .ok (c, rest) ↔ ∃ ds n', Hex ds n' ∧ isLowSurrogate n' = true ∧
      cs = '\\' :: 'u' :: ds ++ rest ∧ c = ofSurrogates n n' := by
  constructor
  · intro h
    unfold lowSurrogate at h
    split at h
    case h_3 =>
      obtain ⟨⟨n', tail⟩, hfour, hlow⟩ := bind_ok h
      obtain ⟨ds, hds, rfl⟩ := fourHex_eq_ok_iff.mp hfour
      simp only at hlow
      split at hlow
      · next hlow' =>
        obtain ⟨rfl, rfl⟩ := Prod.mk.inj (Except.ok.inj hlow)
        exact ⟨ds, n', hds, hlow', rfl, rfl⟩
      · simp at hlow
    all_goals simp at h
  · rintro ⟨ds, n', hds, hlow, rfl, hc⟩
    have hfour : fourHex (ds ++ rest) = .ok (n', rest) := fourHex_eq_ok_iff.mpr ⟨ds, hds, rfl⟩
    show (fourHex (ds ++ rest) >>= _) = _
    rw [hfour, hc]
    exact if_pos hlow

theorem hexEscape_sound {c : Char} (h : hexEscape cs = .ok (c, rest)) :
    ∃ e, Escape ('u' :: e) c ∧ cs = e ++ rest := by
  obtain ⟨⟨n, tail⟩, hfour, hscan⟩ := bind_ok h
  obtain ⟨ds, hds, rfl⟩ := fourHex_eq_ok_iff.mp hfour
  simp only at hscan
  cases hlow : isLowSurrogate n with
  | true => simp [hlow] at hscan
  | false =>
    cases hhigh : isHighSurrogate n with
    | false =>
      simp only [hlow, hhigh, Bool.false_eq_true, if_false] at hscan
      obtain ⟨rfl, rfl⟩ := Prod.mk.inj (Except.ok.inj hscan)
      exact ⟨ds, .number hds hlow hhigh, rfl⟩
    | true =>
      simp only [hlow, hhigh, Bool.false_eq_true, if_false, if_true] at hscan
      obtain ⟨ds', n', hds', hlow', rfl, hc⟩ := lowSurrogate_eq_ok_iff.mp hscan
      rw [hc]
      exact ⟨_, .pair hds hds' hlow hhigh hlow', by simp⟩

theorem hexEscape_number {ds : List Char} {n : Nat} (h : Hex ds n) (hlow : isLowSurrogate n = false)
    (hhigh : isHighSurrogate n = false) : hexEscape (ds ++ rest) = .ok (Char.ofNat n, rest) := by
  have hfour : fourHex (ds ++ rest) = .ok (n, rest) := fourHex_eq_ok_iff.mpr ⟨ds, h, rfl⟩
  simp only [hexEscape, hfour, bind, Except.bind, hlow, hhigh, Bool.false_eq_true, if_false]

theorem hexEscape_pair {ds ds' : List Char} {n n' : Nat} (h : Hex ds n) (h' : Hex ds' n')
    (hlow : isLowSurrogate n = false) (hhigh : isHighSurrogate n = true)
    (hlow' : isLowSurrogate n' = true) :
    hexEscape (ds ++ '\\' :: 'u' :: ds' ++ rest) = .ok (ofSurrogates n n', rest) := by
  have hfirst : fourHex (ds ++ '\\' :: 'u' :: ds' ++ rest)
      = .ok (n, '\\' :: 'u' :: ds' ++ rest) := fourHex_eq_ok_iff.mpr ⟨ds, h, by simp⟩
  have hsecond : lowSurrogate n ('\\' :: 'u' :: ds' ++ rest) = .ok (ofSurrogates n n', rest) :=
    lowSurrogate_eq_ok_iff.mpr ⟨ds', n', h', hlow', rfl, rfl⟩
  simp only [hexEscape, hfirst, bind, Except.bind, hlow, hhigh, Bool.false_eq_true, if_false,
    if_true, hsecond]

theorem escape_letter {e c : Char} (h : (e, c) ∈ letterEscapes) :
    escape (e :: cs) = .ok (c, cs) := by
  simp only [letterEscapes, List.mem_cons, Prod.mk.injEq, List.not_mem_nil, or_false] at h
  rcases h with ⟨rfl, rfl⟩ | ⟨rfl, rfl⟩ | ⟨rfl, rfl⟩ | ⟨rfl, rfl⟩ | ⟨rfl, rfl⟩ | ⟨rfl, rfl⟩ |
    ⟨rfl, rfl⟩ | ⟨rfl, rfl⟩ <;> rfl

theorem escape_eq_ok_iff {c : Char} :
    escape cs = .ok (c, rest) ↔ ∃ e, Escape e c ∧ cs = e ++ rest := by
  constructor
  · intro h
    cases cs with
    | nil => simp [escape] at h
    | cons d tail =>
      simp only [escape] at h
      split at h
      case h_9 =>
        obtain ⟨e, he, rfl⟩ := hexEscape_sound h
        exact ⟨'u' :: e, he, rfl⟩
      case h_10 => simp at h
      all_goals
        obtain ⟨rfl, rfl⟩ := Prod.mk.inj (Except.ok.inj h)
        exact ⟨_, .letter (by simp [letterEscapes]), rfl⟩
  · rintro ⟨e, he, rfl⟩
    cases he with
    | letter h => exact escape_letter h
    | number hds hlow hhigh => exact hexEscape_number hds hlow hhigh
    | pair hds hds' hlow hhigh hlow' => exact hexEscape_pair hds hds' hlow hhigh hlow'

/-- What is read up to the closing quote is what the text spells. -/
theorem stringRest_eq_ok_iff {before : List Char} {s : String} :
    stringRest before cs = .ok (s, rest) ↔ ∃ body chars, Spells body chars ∧
      cs = body ++ '"' :: rest ∧ s = String.ofList (before.reverse ++ chars) := by
  constructor
  · intro h
    induction before, cs using stringRest.induct with
    | case1 => simp [stringRest] at h
    | case2 before cs =>
      rw [stringRest_quote] at h
      obtain ⟨rfl, rfl⟩ := Prod.mk.inj (Except.ok.inj h)
      exact ⟨[], [], .nil, rfl, by simp⟩
    | case3 before cs stop he =>
      rw [stringRest] at h
      split at h
      · simp at h
      · next he' => simp [he] at he'
    | case4 before cs c after he _ ih =>
      rw [stringRest_escape he] at h
      obtain ⟨e, hescape, rfl⟩ := escape_eq_ok_iff.mp he
      obtain ⟨body, chars, hbody, rfl, rfl⟩ := ih h
      exact ⟨_, c :: chars, .escaped hescape hbody, by simp, by simp⟩
    | case5 before c cs hq hb hc =>
      rw [stringRest] at h
      · simp [hc] at h
      · exact hq
      · exact hb
    | case6 before c cs hq hb hc ih =>
      rw [stringRest_plain hq hb (Nat.not_lt.mp hc)] at h
      obtain ⟨body, chars, hbody, rfl, rfl⟩ := ih h
      exact ⟨_, c :: chars, .plain hq hb (Nat.not_lt.mp hc) hbody, by simp, by simp⟩
  · rintro ⟨body, chars, hbody, rfl, rfl⟩
    induction hbody generalizing before with
    | nil => simpa using stringRest_quote
    | plain hq hb hc _ ih =>
      rw [List.cons_append, stringRest_plain hq hb hc, ih]
      simp
    | @escaped c e body chars he _ ih =>
      have hescape : escape (e ++ (body ++ '"' :: rest)) = .ok (c, body ++ '"' :: rest) :=
        escape_eq_ok_iff.mpr ⟨e, he, rfl⟩
      rw [List.cons_append, List.cons_append, List.append_assoc, stringRest_escape hescape, ih]
      simp

end Strings

end DocClient.Json
