import DocClient.Json.Reader
import DocClient.Proofs.Json.Escape
import DocClient.Proofs.Json.Numeral
import DocClient.Proofs.Json.Parts

/-!
A printed value is read back, whatever comes after it, and so no value's text is the beginning of
another's.
-/
namespace DocClient.Json

variable {v : Json} {vs before : List Json} {doc front : Document} {rest cs : List Char}
  {depth room : Nat} {item : Scan Json}

/-- A text that starts with neither a blank nor a closing bracket. -/
def Starts (cs : List Char) : Prop := ∃ c cs', cs = c :: cs' ∧ isGap c = false ∧ c ≠ ']'

theorem starts_cons {c : Char} (hg : isGap c = false) (hb : c ≠ ']') : Starts (c :: cs) :=
  ⟨c, cs, rfl, hg, hb⟩

theorem skipGaps_cons {c : Char} (h : isGap c = false) : skipGaps (c :: cs) = c :: cs := by
  simp [skipGaps, h]

/-- Nothing is read as a number but what starts with a sign or a digit. -/
theorem head_of_scanNumber {n : Number} (h : scanNumber cs = .ok (n, rest)) :
    ∃ c cs', cs = c :: cs' ∧ (c = '-' ∨ c.isDigit = true) := by
  obtain ⟨x, rfl, -, -⟩ := scanNumber_eq_ok_iff.mp h
  obtain ⟨c, cs, hchars, hc⟩ := x.head_chars
  exact ⟨c, cs ++ rest, by rw [hchars, List.cons_append], hc⟩

theorem isGap_of_number {c : Char} (h : c = '-' ∨ c.isDigit = true) : isGap c = false := by
  rcases h with rfl | h
  · decide
  · cases hg : isGap c with
    | false => rfl
    | true =>
      simp only [isGap, Bool.or_eq_true, beq_iff_eq] at hg
      rcases hg with ((rfl | rfl) | rfl) | rfl <;> simp at h

/-- The text of a value with readable numbers shows at once that it is one. -/
theorem starts_chars (hl : v.Numbers Number.Legible) : Starts (v.chars ++ rest) := by
  cases v with
  | bool b => cases b <;> exact starts_cons (by decide) (by decide)
  | number n =>
    obtain ⟨c, cs, hcs, hc⟩ := head_of_scanNumber (hl n .self)
    have hb : c ≠ ']' := by
      rintro rfl
      simp at hc
    rw [chars, hcs]
    exact starts_cons (isGap_of_number hc) hb
  | _ => exact starts_cons (by decide) (by decide)

section Leaves

variable {inner : Option (Scan Json)}

theorem valueWith_number {c : Char} (hc : c = '-' ∨ c.isDigit = true) :
    valueWith inner (c :: cs) = (fun r => (.number r.1, r.2)) <$> scanNumber (c :: cs) := by
  unfold valueWith
  rw [skipGaps_cons (isGap_of_number hc)]
  simp only
  split
  all_goals try
    exfalso
    simp at hc
  rw [if_pos hc]

theorem valueWith_legible {n : Number} (hn : n.Legible) (hrest : EndsNumber rest) :
    valueWith inner (n.chars ++ rest) = .ok (.number n, rest) := by
  obtain ⟨c, cs, hcs, hc⟩ := head_of_scanNumber hn
  have hscan := hn.scan hrest
  rw [hcs, List.cons_append] at hscan ⊢
  rw [valueWith_number hc, hscan]
  rfl

theorem valueWith_string (s : String) :
    valueWith inner (stringChars s ++ rest) = .ok (.string s, rest) := by
  have hread : stringRest [] ((s.toList.flatMap escapeChar ++ ['"']) ++ rest) = .ok (s, rest) := by
    simpa using stringRest_chars s rest
  rw [stringChars, List.cons_append, List.cons_append]
  simp only [valueWith, skipGaps_cons (show isGap '"' = false by decide), hread]
  rfl

theorem valueWith_array {item : Scan Json} :
    valueWith (some item) ('[' :: cs) = arrayRest item cs := by
  simp only [valueWith, skipGaps_cons (show isGap '[' = false by decide)]

theorem valueWith_object {item : Scan Json} :
    valueWith (some item) ('\x7b' :: cs) = objectRest item cs := by
  simp only [valueWith, skipGaps_cons (show isGap '\x7b' = false by decide)]

end Leaves

/-- The text after a printed item, which ends a number before it. -/
theorem endsNumber_comma : EndsNumber (',' :: rest) :=
  endsNumber_cons (by decide) (by decide) (by decide)

theorem endsNumber_bracket : EndsNumber (']' :: rest) :=
  endsNumber_cons (by decide) (by decide) (by decide)

theorem endsNumber_brace : EndsNumber ('\x7d' :: rest) :=
  endsNumber_cons (by decide) (by decide) (by decide)

/-- What a reader of values gives for printed values. -/
def Inverts (item : Scan Json) (v : Json) : Prop :=
  ∀ rest, EndsNumber rest → item (v.chars ++ rest) = .ok (v, rest)

theorem nextItem_starts (h : Starts cs) : nextItem cs = .ok cs := by
  obtain ⟨c, cs, rfl, hg, hb⟩ := h
  unfold nextItem
  rw [skipGaps_cons hg]
  split <;> simp_all

theorem itemsChars_cons (v w : Json) (vs : List Json) :
    itemsChars (v :: w :: vs) = v.chars ++ ',' :: itemsChars (w :: vs) := by
  simp [itemsChars]

theorem starts_items (hl : ∀ v ∈ vs, v.Numbers Number.Legible) (hne : vs ≠ []) :
    Starts (itemsChars vs ++ rest) := by
  cases vs with
  | nil => exact absurd rfl hne
  | cons v vs =>
    have hv := hl v List.mem_cons_self
    cases vs with
    | nil => exact starts_chars hv
    | cons w vs =>
      rw [itemsChars_cons, List.append_assoc]
      exact starts_chars hv

theorem items_chars (hitem : ∀ v ∈ vs, Inverts item v)
    (hl : ∀ v ∈ vs, v.Numbers Number.Legible) (hne : vs ≠ []) (hroom : vs.length ≤ room) :
    items item before room (itemsChars vs ++ ']' :: rest) = .ok (before.reverse ++ vs, rest) := by
  induction vs generalizing before room with
  | nil => exact absurd rfl hne
  | cons v vs ih =>
    cases room with
    | zero => simp at hroom
    | succ room =>
      have hv := hitem v List.mem_cons_self
      cases vs with
      | nil =>
        simp [items, itemsChars, hv _ endsNumber_bracket, bind, Except.bind, skipGaps, isGap]
      | cons w vs =>
        have hnext : nextItem (itemsChars (w :: vs) ++ ']' :: rest)
            = .ok (itemsChars (w :: vs) ++ ']' :: rest) :=
          nextItem_starts (starts_items (fun u hu => hl u (List.mem_cons_of_mem v hu)) (by simp))
        have hrest : items item (v :: before) room (itemsChars (w :: vs) ++ ']' :: rest)
            = .ok ((v :: before).reverse ++ w :: vs, rest) :=
          ih (fun u hu => hitem u (List.mem_cons_of_mem v hu))
            (fun u hu => hl u (List.mem_cons_of_mem v hu)) (by simp) (by simpa using hroom)
        have hgap : isGap ',' = false := by decide
        rw [itemsChars_cons, List.append_assoc, List.cons_append, items, hv _ endsNumber_comma]
        simp only [bind, Except.bind, skipGaps_cons hgap, hnext, hrest]
        simp

theorem colon_colon : colon (':' :: cs) = .ok cs := by
  simp [colon, skipGaps, isGap]

theorem nextKey_quote : nextKey ('"' :: cs) = .ok cs := by
  simp [nextKey, skipGaps, isGap]

/-- The text of a member after its opening quote. -/
def memberRest (key : String) (v : Json) : List Char :=
  key.toList.flatMap escapeChar ++ '"' :: ':' :: v.chars

theorem membersChars_singleton (key : String) (v : Json) :
    membersChars [(key, v)] = '"' :: memberRest key v := by
  simp [membersChars, stringChars, memberRest]

theorem membersChars_cons (key : String) (v : Json) (m : String × Json) (doc : Document) :
    membersChars ((key, v) :: m :: doc)
      = '"' :: (memberRest key v ++ ',' :: membersChars (m :: doc)) := by
  simp [membersChars, stringChars, memberRest]

section Members

variable {key : String}

theorem members_last (hv : Inverts item v) (hkey : ∀ m ∈ front, m.1 < key) :
    members item front (room + 1) (memberRest key v ++ '\x7d' :: rest)
      = .ok (front ++ [(key, v)], rest) := by
  have hstring := stringRest_chars key (':' :: (v.chars ++ '\x7d' :: rest))
  have hgap : isGap '\x7d' = false := by decide
  simp only [memberRest, List.append_assoc, List.cons_append, members, hstring, bind, Except.bind,
    colon_colon, hv _ endsNumber_brace, setMember_append hkey, skipGaps_cons hgap]

theorem members_next (hv : Inverts item v) (hkey : ∀ m ∈ front, m.1 < key) :
    members item front (room + 1) (memberRest key v ++ ',' :: '"' :: rest)
      = members item (front ++ [(key, v)]) room rest := by
  have hstring := stringRest_chars key (':' :: (v.chars ++ ',' :: '"' :: rest))
  have hgap : isGap ',' = false := by decide
  simp only [memberRest, List.append_assoc, List.cons_append, members, hstring, bind, Except.bind,
    colon_colon, hv _ endsNumber_comma, setMember_append hkey, skipGaps_cons hgap, nextKey_quote]

end Members

theorem membersChars_quote (m : String × Json) (doc : Document) :
    ∃ cs, membersChars (m :: doc) = '"' :: cs := by
  cases doc with
  | nil => exact ⟨_, membersChars_singleton m.1 m.2⟩
  | cons m' doc => exact ⟨_, membersChars_cons m.1 m.2 m' doc⟩

theorem members_chars (hitem : ∀ m ∈ doc, Inverts item m.2)
    (hasc : Document.Ascending (front ++ doc)) (hne : doc ≠ []) (hroom : doc.length ≤ room)
    (hcs : membersChars doc ++ '\x7d' :: rest = '"' :: cs) :
    members item front room cs = .ok (front ++ doc, rest) := by
  induction doc generalizing front room cs with
  | nil => exact absurd rfl hne
  | cons m doc ih =>
    obtain ⟨key, v⟩ := m
    obtain ⟨room, rfl⟩ : ∃ r, room = r + 1 := ⟨room - 1, by simp at hroom; omega⟩
    have hv : Inverts item v := hitem (key, v) List.mem_cons_self
    have hkey : ∀ m ∈ front, m.1 < key := fun m hm =>
      (List.pairwise_append.mp hasc).2.2 m hm (key, v) List.mem_cons_self
    cases doc with
    | nil =>
      rw [membersChars_singleton, List.cons_append] at hcs
      rw [← (List.cons.inj hcs).2]
      exact members_last hv hkey
    | cons m doc =>
      obtain ⟨tail, htail⟩ := membersChars_quote m doc
      rw [membersChars_cons, htail, List.cons_append, List.append_assoc, List.cons_append,
        List.cons_append] at hcs
      rw [← (List.cons.inj hcs).2, members_next hv hkey]
      have hrest : members item (front ++ [(key, v)]) room (tail ++ '\x7d' :: rest)
          = .ok (front ++ [(key, v)] ++ m :: doc, rest) :=
        ih (fun m' hm => hitem m' (List.mem_cons_of_mem _ hm)) (by simpa using hasc) (by simp)
          (by simpa using hroom) (by rw [htail, List.cons_append])
      simpa using hrest

theorem length_le_items (vs : List Json) : vs.length ≤ (itemsChars vs).length + 1 := by
  induction vs with
  | nil => simp
  | cons v vs ih =>
    cases vs with
    | nil => simp
    | cons w vs =>
      simp only [itemsChars_cons, List.length_append, List.length_cons] at ih ⊢
      omega

theorem length_le_members (doc : Document) : doc.length ≤ (membersChars doc).length := by
  induction doc with
  | nil => simp
  | cons m doc ih =>
    cases doc with
    | nil => simp [membersChars_singleton m.1 m.2]
    | cons m' doc =>
      simp only [membersChars_cons m.1 m.2, List.length_append, List.length_cons] at ih ⊢
      omega

/-- An object has no more members than its text has room for. -/
theorem length_le_room (h : membersChars doc = '"' :: cs) :
    doc.length ≤ (cs ++ '\x7d' :: rest).length + 1 := by
  have hlength := length_le_members doc
  rw [h] at hlength
  rw [List.length_append]
  simp only [List.length_cons] at hlength ⊢
  omega

theorem arrayRest_chars (hitem : ∀ v ∈ vs, Inverts item v)
    (hl : ∀ v ∈ vs, v.Numbers Number.Legible) :
    arrayRest item (itemsChars vs ++ ']' :: rest) = .ok (.array vs, rest) := by
  cases vs with
  | nil => simp [arrayRest, itemsChars, skipGaps, isGap]
  | cons v vs =>
    have hlength := length_le_items (v :: vs)
    have hroom : (v :: vs).length ≤ (itemsChars (v :: vs) ++ ']' :: rest).length + 1 := by
      rw [List.length_append]
      omega
    have hitems : items item [] ((itemsChars (v :: vs) ++ ']' :: rest).length + 1)
        (itemsChars (v :: vs) ++ ']' :: rest) = .ok (v :: vs, rest) :=
      items_chars hitem hl (by simp) hroom
    have hstarts : Starts (itemsChars (v :: vs) ++ ']' :: rest) := starts_items hl (by simp)
    obtain ⟨c, cs, hcs, hg, hb⟩ := hstarts
    rw [hcs] at hitems ⊢
    unfold arrayRest
    rw [skipGaps_cons hg]
    split
    · next heq => exact absurd heq (List.cons_ne_nil c cs)
    · next heq => exact absurd (List.cons.inj heq).1 hb
    · rw [hitems]
      rfl

theorem objectRest_chars (hitem : ∀ m ∈ doc, Inverts item m.2) (hasc : Document.Ascending doc) :
    objectRest item (membersChars doc ++ '\x7d' :: rest) = .ok (.object doc, rest) := by
  cases doc with
  | nil => simp [objectRest, membersChars, skipGaps, isGap]
  | cons m doc =>
    obtain ⟨cs, hcs⟩ := membersChars_quote m doc
    have hmembers : members item [] ((cs ++ '\x7d' :: rest).length + 1) (cs ++ '\x7d' :: rest)
        = .ok (m :: doc, rest) :=
      members_chars hitem hasc (by simp) (length_le_room hcs) (by rw [hcs, List.cons_append])
    have hgap : isGap '"' = false := by decide
    simp only [hcs, List.cons_append, objectRest, skipGaps_cons hgap, hmembers, bind, Except.bind]

/-- Reading what is printed for a value gives the value and leaves what comes after it. -/
theorem inverts_value (ho : v.Ordered) (hl : v.Numbers Number.Legible) (hn : v.nesting ≤ depth) :
    Inverts (value depth) v := by
  have hany (depth : Nat) : ∃ inner, value depth = valueWith inner := by
    cases depth <;> exact ⟨_, rfl⟩
  induction v generalizing depth with
  | null =>
    obtain ⟨inner, hi⟩ := hany depth
    intro rest _
    rw [hi]
    rfl
  | bool b =>
    obtain ⟨inner, hi⟩ := hany depth
    intro rest _
    rw [hi]
    cases b <;> rfl
  | number n =>
    obtain ⟨inner, hi⟩ := hany depth
    intro rest hrest
    rw [hi]
    exact valueWith_legible (hl n .self) hrest
  | string s =>
    obtain ⟨inner, hi⟩ := hany depth
    intro rest _
    rw [hi]
    exact valueWith_string s
  | array items ih =>
    obtain ⟨d, rfl⟩ : ∃ d, depth = d + 1 := ⟨depth - 1, by simp only [nesting] at hn; omega⟩
    have hitem : ∀ v ∈ items, Inverts (value d) v := by
      intro v hm
      have hle := nesting_le_items hm
      exact ih v hm (ho.item hm) (hl.item hm) (by simp only [nesting] at hn; omega)
    intro rest _
    simp only [chars, List.cons_append, List.append_assoc, List.nil_append, value, valueWith_array]
    exact arrayRest_chars hitem fun v hm => hl.item hm
  | object doc ih =>
    obtain ⟨d, rfl⟩ : ∃ d, depth = d + 1 := ⟨depth - 1, by simp only [nesting] at hn; omega⟩
    have hitem : ∀ m ∈ doc, Inverts (value d) m.2 := by
      intro m hm
      have hle := nesting_le_members hm
      exact ih m hm (ho.member hm) (hl.member hm) (by simp only [nesting] at hn; omega)
    intro rest _
    simp only [chars, List.cons_append, List.append_assoc, List.nil_append, value, valueWith_object]
    exact objectRest_chars hitem ho.ascending

theorem Whole.legible (h : v.Whole) : v.Numbers Number.Legible := by
  refine h.mono ?_
  rintro _ ⟨m, fits, rfl⟩
  exact Number.legible_whole m fits

end DocClient.Json

namespace DocClient.OrderedJson

open Json (EndsNumber)

variable {v w : OrderedJson} {rest rest' : List Char}

/-- A text is the JSON of one value at most, followed by one rest at most. -/
theorem chars_append_inj (hv : v.json.Numbers Number.Legible) (hw : w.json.Numbers Number.Legible)
    (hrest : EndsNumber rest) (hrest' : EndsNumber rest')
    (h : v.json.chars ++ rest = w.json.chars ++ rest') : v = w ∧ rest = rest' := by
  have hleft := Json.inverts_value v.ordered hv (Nat.le_max_left _ w.json.nesting) rest hrest
  have hright := Json.inverts_value w.ordered hw (Nat.le_max_right v.json.nesting _) rest' hrest'
  rw [h, hright] at hleft
  obtain ⟨hvalue, hrests⟩ := Prod.mk.inj (Except.ok.inj hleft.symm)
  exact ⟨OrderedJson.ext hvalue, hrests⟩

theorem render_inj (hv : v.json.Numbers Number.Legible) (hw : w.json.Numbers Number.Legible)
    (h : v.json.render = w.json.render) : v = w := by
  have hchars : v.json.chars ++ [] = w.json.chars ++ [] := by
    rw [List.append_nil, List.append_nil]
    exact String.ofList_inj.mp h
  exact (chars_append_inj hv hw Json.endsNumber_nil Json.endsNumber_nil hchars).1

theorem parse_chars (v : OrderedJson) (hl : v.json.Numbers Number.Legible)
    (hn : v.json.nesting ≤ Json.maxDepth) : Json.parse v.json.chars = .ok v.json := by
  have hread := Json.inverts_value v.ordered hl hn [] Json.endsNumber_nil
  rw [List.append_nil] at hread
  simp [Json.parse, Json.readAll, hread, Json.skipGaps]

end DocClient.OrderedJson
