import DocClient.Proofs.Json.Grammar

/-!
The reader of values accepts the texts of the grammar and no others, and gives each its value.
-/
namespace DocClient.Json

variable {α : Type} {cs rest body front : List Char} {v : Json} {vs before : List Json}
  {doc : Document} {ms : List (String × Json)} {as : List α} {room depth : Nat}
  {item : Scan Json} {inner : Option (Scan Json)} {text : List Char → α → Prop}
  {spelled : List Char → Json → Prop}

section Gaps

theorem gaps_nil : Gaps [] := nofun

theorem Gaps.append (h : Gaps cs) (h' : Gaps rest) : Gaps (cs ++ rest) := by
  intro c hc
  rcases List.mem_append.mp hc with hc | hc
  · exact h c hc
  · exact h' c hc

theorem skipGaps_append (h : Gaps front) : skipGaps (front ++ cs) = skipGaps cs :=
  List.dropWhile_append_of_pos h

theorem skipGaps_split (cs : List Char) : ∃ front, Gaps front ∧ cs = front ++ skipGaps cs :=
  ⟨cs.takeWhile isGap, fun _ hc => List.mem_takeWhile_imp hc, List.takeWhile_append_dropWhile.symm⟩

theorem split_of_skipGaps {c : Char} (h : skipGaps cs = c :: rest) :
    ∃ front, Gaps front ∧ cs = front ++ c :: rest := by
  obtain ⟨front, hf, hcs⟩ := skipGaps_split cs
  exact ⟨front, hf, h ▸ hcs⟩

theorem endsNumber_gap {c : Char} (h : isGap c = true) : EndsNumber (c :: rest) := by
  simp only [isGap, Bool.or_eq_true, beq_iff_eq] at h
  rcases h with ((rfl | rfl) | rfl) | rfl <;> exact endsNumber_cons rfl (by decide) rfl

theorem Gaps.endsNumber (h : Gaps cs) (hrest : EndsNumber rest) : EndsNumber (cs ++ rest) := by
  cases cs with
  | nil => exact hrest
  | cons c cs => exact endsNumber_gap (h c List.mem_cons_self)

end Gaps

section Series

theorem Amid.pad (hf : Gaps front) {a : α} (h : Amid text cs a) : Amid text (front ++ cs) a := by
  obtain ⟨hf', h, hb⟩ := h
  rw [← List.append_assoc, ← List.append_assoc]
  exact .mk (hf.append hf') h hb

theorem Series.pad (hf : Gaps front) (h : Series text cs as) : Series text (front ++ cs) as := by
  cases h with
  | one h => exact .one (h.pad hf)
  | cons h hs =>
    rw [← List.append_assoc]
    exact .cons (h.pad hf) hs

/-- Every text of a kind starts with a character of a kind. -/
def Begins (text : List Char → α → Prop) (P : Char → Prop) : Prop :=
  ∀ {cs : List Char} {a : α}, text cs a → ∃ c tail, cs = c :: tail ∧ isGap c = false ∧ P c

/-- Without the blanks in front of it a series is still one. -/
theorem Series.strip {P : Char → Prop} (hbegins : Begins text P) (h : Series text cs as) :
    ∃ c tail, P c ∧ Series text (c :: tail) as ∧
      ∀ rest, skipGaps (cs ++ rest) = c :: tail ++ rest := by
  have hamid {cs : List Char} {a : α} (h : Amid text cs a) : ∃ c tail, P c ∧
      Amid text (c :: tail) a ∧ ∀ rest, skipGaps (cs ++ rest) = c :: tail ++ rest := by
    obtain @⟨front, body, back, a, hf, h, hb⟩ := h
    obtain ⟨c, tail, rfl, hg, hP⟩ := hbegins h
    refine ⟨c, tail ++ back, hP, .mk gaps_nil h hb, fun rest => ?_⟩
    rw [List.append_assoc, List.append_assoc, skipGaps_append hf]
    simp [skipGaps_cons hg]
  cases h with
  | one h =>
    obtain ⟨c, tail, hP, h, hskip⟩ := hamid h
    exact ⟨c, tail, hP, .one h, hskip⟩
  | cons h hs =>
    obtain ⟨c, tail, hP, h, hskip⟩ := hamid h
    refine ⟨c, tail ++ ',' :: _, hP, .cons h hs, fun rest => ?_⟩
    rw [List.append_assoc, hskip]
    simp

theorem Series.length_pos (h : Series text cs as) : 0 < as.length := by
  cases h <;> exact Nat.succ_pos _

theorem Series.length_le (h : Series text cs as) : as.length ≤ cs.length + 1 := by
  induction h with
  | one => simp
  | cons =>
    simp only [List.length_append, List.length_cons]
    omega

end Series

section Plain

theorem word_eq_ok_iff {es : List Char} : word es cs = .ok rest ↔ cs = es ++ rest := by
  induction es generalizing cs with
  | nil => simp [word, eq_comm]
  | cons e es ih =>
    cases cs with
    | nil => simp [word]
    | cons c cs =>
      by_cases hc : c = e
      · simp [word, hc, ih]
      · simp [word, hc]

theorem valueWith_gaps (h : Gaps front) : valueWith inner (front ++ cs) = valueWith inner cs := by
  unfold valueWith
  rw [skipGaps_append h]

/-- A value without brackets is read whatever the reader of items is. -/
theorem valueWith_plain (h : Plain body v) (hrest : EndsNumber rest) :
    valueWith inner (body ++ rest) = .ok (v, rest) := by
  cases h with
  | null | true | false => rfl
  | @number x n h =>
    obtain ⟨c, tail, hchars, hc⟩ := x.head_chars
    have hscan : scanNumber (x.chars ++ rest) = .ok (n, rest) :=
      scanNumber_eq_ok_iff.mpr ⟨x, rfl, hrest.before x, h⟩
    rw [hchars, List.cons_append] at hscan ⊢
    rw [valueWith_number hc, hscan]
    rfl
  | @string body s h =>
    have hgap : isGap '"' = false := by decide
    have hstring : stringRest [] (body ++ '"' :: rest) = .ok (String.ofList s, rest) :=
      stringRest_eq_ok_iff.mpr ⟨body, s, h, rfl, by simp⟩
    simp only [List.cons_append, List.append_assoc, List.nil_append, valueWith, skipGaps_cons hgap,
      hstring]
    rfl

theorem plain_of_word {c : Char} {es : List Char} {w : Json} (hw : Plain (c :: es) w)
    (h : (w, ·) <$> word es cs = .ok (v, rest)) :
    ∃ body, Plain body v ∧ c :: cs = body ++ rest := by
  obtain ⟨rest, hword, hv⟩ := map_ok h
  obtain ⟨rfl, rfl⟩ := Prod.mk.inj hv
  exact ⟨_, hw, by simp [word_eq_ok_iff.mp hword]⟩

/-- What is read as a value has no brackets, or it starts with one and is left to the reader of
what is between brackets. -/
theorem valueWith_cases (h : valueWith inner cs = .ok (v, rest)) :
    ∃ front, Gaps front ∧ ((∃ body, Plain body v ∧ cs = front ++ body ++ rest) ∨
      ∃ item tail, inner = some item ∧
        (cs = front ++ '[' :: tail ∧ arrayRest item tail = .ok (v, rest) ∨
          cs = front ++ '\x7b' :: tail ∧ objectRest item tail = .ok (v, rest))) := by
  obtain ⟨front, hf, hcs⟩ := skipGaps_split cs
  refine ⟨front, hf, ?_⟩
  unfold valueWith at h
  generalize skipGaps cs = tail at h hcs
  subst hcs
  have hplain (h : ∃ body, Plain body v ∧ tail = body ++ rest) :
      ∃ body, Plain body v ∧ front ++ tail = front ++ body ++ rest := by
    obtain ⟨body, hbody, rfl⟩ := h
    exact ⟨body, hbody, (List.append_assoc _ _ _).symm⟩
  cases tail with
  | nil => simp at h
  | cons c tail =>
    simp only at h
    split at h
    case h_1 => exact Or.inl (hplain (plain_of_word .null h))
    case h_2 => exact Or.inl (hplain (plain_of_word .true h))
    case h_3 => exact Or.inl (hplain (plain_of_word .false h))
    case h_4 =>
      obtain ⟨⟨s, rest⟩, hstring, hv⟩ := map_ok h
      obtain ⟨rfl, rfl⟩ := Prod.mk.inj hv
      obtain ⟨body, chars, hbody, rfl, rfl⟩ := stringRest_eq_ok_iff.mp hstring
      exact Or.inl (hplain ⟨_, .string hbody, by simp⟩)
    case h_5 =>
      cases inner with
      | none => simp at h
      | some item => exact Or.inr ⟨item, tail, rfl, Or.inl ⟨rfl, h⟩⟩
    case h_6 =>
      cases inner with
      | none => simp at h
      | some item => exact Or.inr ⟨item, tail, rfl, Or.inr ⟨rfl, h⟩⟩
    case h_7 =>
      split at h
      · obtain ⟨⟨n, rest⟩, hnumber, hv⟩ := map_ok h
        obtain ⟨rfl, rfl⟩ := Prod.mk.inj hv
        obtain ⟨x, hx, -, hmeans⟩ := scanNumber_eq_ok_iff.mp hnumber
        exact Or.inl (hplain ⟨x.chars, .number hmeans, hx⟩)
      · simp at h

end Plain

/-- What a reader takes for a value is the text of that value, and such a text is taken whole. -/
structure Reads (item : Scan Json) (spelled : List Char → Json → Prop) : Prop where
  sound : ∀ {cs v rest}, item cs = .ok (v, rest) →
    ∃ front body, Gaps front ∧ spelled body v ∧ cs = front ++ body ++ rest
  complete : ∀ {front body v rest}, Gaps front → spelled body v → EndsNumber rest →
    item (front ++ body ++ rest) = .ok (v, rest)
  begins : Begins spelled (· ≠ ']')

theorem nextItem_ok {cs rest : List Char} (h : nextItem cs = .ok rest) :
    ∃ front, Gaps front ∧ cs = front ++ rest := by
  obtain ⟨front, hf, hcs⟩ := skipGaps_split cs
  unfold nextItem at h
  split at h
  · simp at h
  · simp at h
  · exact ⟨front, hf, Except.ok.inj h ▸ hcs⟩

section Items

variable (hr : Reads item spelled)
include hr

theorem Reads.amid (h : Amid spelled cs v) (hrest : EndsNumber rest) :
    ∃ back, Gaps back ∧ item (cs ++ rest) = .ok (v, back ++ rest) := by
  obtain ⟨hf, h, hb⟩ := h
  rename_i front body back
  refine ⟨back, hb, ?_⟩
  rw [List.append_assoc]
  exact hr.complete hf h (hb.endsNumber hrest)

theorem items_sound (h : items item before room cs = .ok (vs, rest)) :
    ∃ body as, Series spelled body as ∧ cs = body ++ ']' :: rest ∧ vs = before.reverse ++ as := by
  induction room generalizing before cs with
  | zero => simp [items] at h
  | succ room ih =>
    obtain ⟨⟨v, after⟩, hitem, hnext⟩ := bind_ok h
    obtain ⟨front, body, hf, hv, rfl⟩ := hr.sound hitem
    clear h hitem
    simp only at hnext
    split at hnext
    · simp at hnext
    · next more heq =>
      obtain ⟨gap, hgap, rfl⟩ := split_of_skipGaps heq
      obtain ⟨start, hstart, hitems⟩ := bind_ok hnext
      obtain ⟨gap', hgap', rfl⟩ := nextItem_ok hstart
      obtain ⟨body', as, has, rfl, rfl⟩ := ih hitems
      exact ⟨_, v :: as, .cons (.mk hf hv hgap) (has.pad hgap'), by simp, by simp⟩
    · next heq =>
      obtain ⟨gap, hgap, rfl⟩ := split_of_skipGaps heq
      obtain ⟨rfl, rfl⟩ := Prod.mk.inj (Except.ok.inj hnext)
      exact ⟨_, [v], .one (.mk hf hv hgap), by simp, by simp⟩
    · simp at hnext

theorem items_complete {vs : List Json} (h : Series spelled cs vs) (hroom : vs.length ≤ room) :
    items item before room (cs ++ ']' :: rest) = .ok (before.reverse ++ vs, rest) := by
  -- by induction on the room, since the blanks before each item are passed over beforehand
  induction room generalizing before cs vs with
  | zero => exact absurd h.length_pos (Nat.not_lt.mpr hroom)
  | succ room ih =>
    cases h with
    | one h =>
      have hgap : isGap ']' = false := by decide
      obtain ⟨back, hb, hitem⟩ := hr.amid h (endsNumber_bracket : EndsNumber (']' :: rest))
      simp [items, hitem, bind, Except.bind, skipGaps_append hb, skipGaps_cons hgap]
    | @cons cs cs' v vs h hs =>
      have hgap : isGap ',' = false := by decide
      obtain ⟨back, hb, hitem⟩ :=
        hr.amid h (endsNumber_comma : EndsNumber (',' :: (cs' ++ ']' :: rest)))
      obtain ⟨c, tail, hne, hs, hskip⟩ := hs.strip hr.begins
      have hnext : nextItem (cs' ++ ']' :: rest) = .ok (c :: tail ++ ']' :: rest) := by
        unfold nextItem
        rw [hskip]
        split <;> simp_all
      have hrest : items item (v :: before) room (c :: tail ++ ']' :: rest)
          = .ok ((v :: before).reverse ++ vs, rest) := ih hs (by simpa using hroom)
      simp only [items, List.append_assoc, List.cons_append, hitem, bind, Except.bind,
        skipGaps_append hb, skipGaps_cons hgap, hnext]
      simpa using hrest

theorem arrayRest_sound (h : arrayRest item cs = .ok (v, rest)) :
    ∃ body vs, Contents spelled body vs ∧ cs = body ++ ']' :: rest ∧ v = .array vs := by
  unfold arrayRest at h
  split at h
  · simp at h
  · next heq =>
    obtain ⟨gap, hgap, rfl⟩ := split_of_skipGaps heq
    obtain ⟨rfl, rfl⟩ := Prod.mk.inj (Except.ok.inj h)
    exact ⟨gap, [], .empty hgap, rfl, rfl⟩
  · obtain ⟨gap, hgap, hcs⟩ := skipGaps_split cs
    obtain ⟨⟨vs, after⟩, hitems, hv⟩ := bind_ok h
    obtain ⟨rfl, rfl⟩ := Prod.mk.inj (Except.ok.inj hv)
    obtain ⟨body, vs, hvs, hbody, rfl⟩ := items_sound hr hitems
    refine ⟨gap ++ body, vs, .series (hvs.pad hgap), ?_, rfl⟩
    rw [List.append_assoc, ← hbody]
    exact hcs

theorem arrayRest_complete {vs : List Json} (h : Contents spelled cs vs) :
    arrayRest item (cs ++ ']' :: rest) = .ok (.array vs, rest) := by
  cases h with
  | empty h =>
    have hgap : isGap ']' = false := by decide
    simp only [arrayRest, skipGaps_append h, skipGaps_cons hgap]
  | series h =>
    obtain ⟨c, tail, hne, hs, hskip⟩ := h.strip hr.begins
    have hlength := hs.length_le
    have hitems : items item [] ((c :: tail ++ ']' :: rest).length + 1) (c :: tail ++ ']' :: rest)
        = .ok (vs, rest) :=
      items_complete hr hs (by rw [List.length_append]; omega)
    unfold arrayRest
    rw [hskip]
    split
    · next heq => exact absurd heq (by simp)
    · next heq => exact absurd (List.cons.inj heq).1 hne
    · rw [hitems]
      rfl

end Items

section Members

theorem begins_member : Begins (MemberText spelled) (· = '"') := by
  rintro _ _ ⟨hk, hg, hg', hv⟩
  exact ⟨'"', _, rfl, by decide, rfl⟩

theorem colon_ok (h : colon cs = .ok rest) : ∃ gap, Gaps gap ∧ cs = gap ++ ':' :: rest := by
  unfold colon at h
  split at h
  · simp at h
  · next heq => exact Except.ok.inj h ▸ split_of_skipGaps heq
  · simp at h

theorem colon_gaps (h : Gaps front) : colon (front ++ ':' :: rest) = .ok rest := by
  have hgap : isGap ':' = false := by decide
  simp only [colon, skipGaps_append h, skipGaps_cons hgap]

theorem nextKey_ok (h : nextKey cs = .ok rest) : ∃ gap, Gaps gap ∧ cs = gap ++ '"' :: rest := by
  unfold nextKey at h
  split at h
  · simp at h
  · next heq => exact Except.ok.inj h ▸ split_of_skipGaps heq
  · simp at h
  · simp at h

variable (hr : Reads item spelled)
include hr

theorem members_sound {front : Document} (h : members item front room cs = .ok (doc, rest)) :
    ∃ body ms, Series (MemberText spelled) ('"' :: body) ms ∧ cs = body ++ '\x7d' :: rest ∧
      doc = ms.foldl (fun doc m => setMember m.1 m.2 doc) front := by
  induction room generalizing front cs with
  | zero => simp [members] at h
  | succ room ih =>
    obtain ⟨⟨key, afterKey⟩, hkey, hvalue⟩ := bind_ok h
    obtain ⟨start, hstart, hvalue⟩ := bind_ok hvalue
    obtain ⟨⟨v, after⟩, hitem, hnext⟩ := bind_ok hvalue
    obtain ⟨body, chars, hbody, rfl, rfl⟩ := stringRest_eq_ok_iff.mp hkey
    obtain ⟨gap, hgap, rfl⟩ := colon_ok hstart
    obtain ⟨gap', text, hgap', hv, rfl⟩ := hr.sound hitem
    clear h hkey hvalue hstart hitem
    have hmember : MemberText spelled _ _ := .mk hbody hgap hgap' hv
    simp only [List.reverse_nil, List.nil_append] at hnext
    split at hnext
    · simp at hnext
    · next more heq =>
      obtain ⟨back, hback, rfl⟩ := split_of_skipGaps heq
      obtain ⟨start, hstart, hmembers⟩ := bind_ok hnext
      obtain ⟨gap'', hgap'', rfl⟩ := nextKey_ok hstart
      obtain ⟨body', ms, hms, rfl, rfl⟩ := ih hmembers
      have hseries := Series.cons (.mk gaps_nil hmember hback) (hms.pad hgap'')
      exact ⟨_, _, by simpa using hseries, by simp, rfl⟩
    · next heq =>
      obtain ⟨back, hback, rfl⟩ := split_of_skipGaps heq
      obtain ⟨rfl, rfl⟩ := Prod.mk.inj (Except.ok.inj hnext)
      have hseries := Series.one (.mk gaps_nil hmember hback)
      exact ⟨_, _, by simpa using hseries, by simp, rfl⟩
    · simp at hnext

/-- A member is read from behind its opening quote on. -/
theorem Reads.member {m : String × Json} (h : Amid (MemberText spelled) ('"' :: cs) m)
    (hrest : EndsNumber rest) : ∃ afterKey start back, Gaps back ∧
      stringRest [] (cs ++ rest) = .ok (m.1, afterKey) ∧ colon afterKey = .ok start ∧
        item start = .ok (m.2, back ++ rest) := by
  generalize hcs : '"' :: cs = cs' at h
  obtain @⟨front, _, back, _, hf, ⟨hk, hg, hg', hv⟩, hb⟩ := h
  rename_i body key gap gap' text v
  have hnil : front = [] := by
    cases front with
    | nil => rfl
    | cons c front =>
      obtain ⟨rfl, -⟩ := List.cons.inj hcs
      exact absurd (hf '"' List.mem_cons_self) (by decide)
  subst hnil
  have hcs : cs = body ++ '"' :: (gap ++ ':' :: (gap' ++ text ++ back)) := by
    simpa using hcs
  subst hcs
  have hvalue : item (gap' ++ text ++ (back ++ rest)) = .ok (v, back ++ rest) :=
    hr.complete hg' hv (hb.endsNumber hrest)
  refine ⟨gap ++ ':' :: (gap' ++ text ++ (back ++ rest)), _, back, hb, ?_, colon_gaps hg, hvalue⟩
  exact stringRest_eq_ok_iff.mpr ⟨body, key, hk, by simp, by simp⟩

theorem members_complete {front : Document} (h : Series (MemberText spelled) ('"' :: cs) ms)
    (hroom : ms.length ≤ room) :
    members item front room (cs ++ '\x7d' :: rest)
      = .ok (ms.foldl (fun doc m => setMember m.1 m.2 doc) front, rest) := by
  induction room generalizing front cs ms with
  | zero => exact absurd h.length_pos (Nat.not_lt.mpr hroom)
  | succ room ih =>
    generalize hcs : '"' :: cs = cs' at h
    cases h with
    | one h =>
      subst hcs
      have hgap : isGap '\x7d' = false := by decide
      obtain ⟨afterKey, start, back, hb, hkey, hcolon, hitem⟩ :=
        hr.member h (endsNumber_brace : EndsNumber ('\x7d' :: rest))
      simp only [members, hkey, hcolon, hitem, bind, Except.bind, skipGaps_append hb,
        skipGaps_cons hgap, List.foldl_cons, List.foldl_nil]
    | @cons text text' m ms h hs =>
      cases text with
      | nil => exact absurd hcs (by simp)
      | cons c text =>
        have htext : cs = text ++ ',' :: text' := (List.cons.inj hcs).2
        obtain rfl : '"' = c := (List.cons.inj hcs).1
        have hgap : isGap ',' = false := by decide
        obtain ⟨afterKey, start, back, hb, hkey, hcolon, hitem⟩ :=
          hr.member h (endsNumber_comma : EndsNumber (',' :: (text' ++ '\x7d' :: rest)))
        obtain ⟨c, tail, rfl, hs, hskip⟩ := hs.strip begins_member
        have hnext : nextKey (text' ++ '\x7d' :: rest) = .ok (tail ++ '\x7d' :: rest) := by
          simp only [nextKey, hskip, List.cons_append]
        have hrest : members item (setMember m.1 m.2 front) room (tail ++ '\x7d' :: rest)
            = .ok (ms.foldl (fun doc m => setMember m.1 m.2 doc) (setMember m.1 m.2 front), rest) :=
          ih hs (by simpa using hroom)
        simp only [members, htext, List.append_assoc, List.cons_append, hkey, hcolon, hitem, bind,
          Except.bind, skipGaps_append hb, skipGaps_cons hgap, hnext, hrest, List.foldl_cons]

theorem objectRest_sound (h : objectRest item cs = .ok (v, rest)) :
    ∃ body ms, Contents (MemberText spelled) body ms ∧ cs = body ++ '\x7d' :: rest ∧
      v = .object (gather ms) := by
  unfold objectRest at h
  split at h
  · simp at h
  · next heq =>
    obtain ⟨gap, hgap, rfl⟩ := split_of_skipGaps heq
    obtain ⟨rfl, rfl⟩ := Prod.mk.inj (Except.ok.inj h)
    exact ⟨gap, [], .empty hgap, rfl, rfl⟩
  · next heq =>
    obtain ⟨gap, hgap, rfl⟩ := split_of_skipGaps heq
    obtain ⟨⟨doc, after⟩, hmembers, hv⟩ := bind_ok h
    obtain ⟨rfl, rfl⟩ := Prod.mk.inj (Except.ok.inj hv)
    obtain ⟨body, ms, hms, rfl, rfl⟩ := members_sound hr hmembers
    exact ⟨gap ++ '"' :: body, ms, .series (hms.pad hgap), by simp, rfl⟩
  · simp at h

theorem objectRest_complete (h : Contents (MemberText spelled) cs ms) :
    objectRest item (cs ++ '\x7d' :: rest) = .ok (.object (gather ms), rest) := by
  cases h with
  | empty h =>
    have hgap : isGap '\x7d' = false := by decide
    simp only [objectRest, skipGaps_append h, skipGaps_cons hgap]
    rfl
  | series h =>
    obtain ⟨c, tail, rfl, hs, hskip⟩ := h.strip begins_member
    have hlength := hs.length_le
    have hmembers : members item [] ((tail ++ '\x7d' :: rest).length + 1) (tail ++ '\x7d' :: rest)
        = .ok (gather ms, rest) :=
      members_complete hr hs (by
        simp only [List.length_cons, List.length_append] at hlength ⊢
        omega)
    simp only [objectRest, hskip, List.cons_append, hmembers, bind, Except.bind]

end Members

section Values

theorem begins_plain : Begins Plain (· ≠ ']') := by
  intro cs v h
  cases h with
  | null | true | false | string => exact ⟨_, _, rfl, by decide, by decide⟩
  | @number x =>
    obtain ⟨c, tail, hchars, hc⟩ := x.head_chars
    refine ⟨c, tail, hchars, isGap_of_number hc, ?_⟩
    rintro rfl
    simp at hc

theorem reads_plain : Reads (valueWith none) Plain where
  sound h := by
    obtain ⟨front, hf, ⟨body, hv, rfl⟩ | ⟨item, -, hnone, -⟩⟩ := valueWith_cases h
    · exact ⟨front, body, hf, hv, rfl⟩
    · simp at hnone
  complete hf hv hrest := by
    rw [List.append_assoc, valueWith_gaps hf]
    exact valueWith_plain hv hrest
  begins := begins_plain

theorem reads_nested (hr : Reads item spelled) :
    Reads (valueWith (some item)) (Nested spelled) where
  sound h := by
    obtain ⟨front, hf, ⟨body, hv, rfl⟩ | ⟨item, tail, hitem, ⟨rfl, h⟩ | ⟨rfl, h⟩⟩⟩ :=
      valueWith_cases h
    · exact ⟨front, body, hf, .plain hv, rfl⟩
    · obtain rfl := Option.some.inj hitem
      obtain ⟨body, vs, hvs, rfl, rfl⟩ := arrayRest_sound hr h
      exact ⟨front, _, hf, .array hvs, by simp⟩
    · obtain rfl := Option.some.inj hitem
      obtain ⟨body, ms, hms, rfl, rfl⟩ := objectRest_sound hr h
      exact ⟨front, _, hf, .object (.mk hms), by simp⟩
  complete hf hv hrest := by
    rw [List.append_assoc, valueWith_gaps hf]
    cases hv with
    | plain hv => exact valueWith_plain hv hrest
    | array hvs =>
      simp only [List.cons_append, List.append_assoc, List.nil_append, valueWith_array]
      exact arrayRest_complete hr hvs
    | object hms =>
      obtain ⟨hms⟩ := hms
      simp only [List.cons_append, List.append_assoc, List.nil_append, valueWith_object]
      exact objectRest_complete hr hms
  begins h := by
    cases h with
    | plain h => exact begins_plain h
    | array => exact ⟨_, _, rfl, by decide, by decide⟩
    | object h =>
      obtain ⟨h⟩ := h
      exact ⟨_, _, rfl, by decide, by decide⟩

theorem reads_value (depth : Nat) : Reads (value depth) (Denotes depth) := by
  induction depth with
  | zero => exact reads_plain
  | succ depth ih => exact reads_nested ih

/-- The texts that are read as JSON are those of the grammar. -/
theorem parse_eq_ok_iff : parse cs = .ok v ↔ Amid (Denotes maxDepth) cs v := by
  have hr := reads_value maxDepth
  constructor
  · intro h
    unfold parse readAll at h
    split at h
    · simp at h
    · next hread =>
      obtain ⟨front, body, hf, hv, rfl⟩ := hr.sound hread
      split at h
      · next rest _ hnil =>
        obtain rfl := Except.ok.inj h
        obtain ⟨gap, hgap, hrest⟩ := skipGaps_split rest
        rw [hnil, List.append_nil] at hrest
        exact .mk hf hv (hrest ▸ hgap)
      · simp at h
  · intro h
    obtain ⟨back, hb, hread⟩ := hr.amid h endsNumber_nil
    have hnil : skipGaps back = [] := by
      rw [← List.append_nil back]
      exact skipGaps_append hb
    simp only [List.append_nil] at hread
    simp only [parse, readAll, hread, hnil]

/-- A text is read as an object if it is one, and of members with one key the last one counts. -/
theorem parse_object_iff : parse cs = .ok (.object doc) ↔ ∃ ms, Lists cs ms ∧ doc = gather ms := by
  rw [parse_eq_ok_iff]
  constructor
  · intro h
    generalize hv : Json.object doc = v at h
    obtain ⟨hf, h, hb⟩ := h
    cases h with
    | plain h => cases h <;> simp at hv
    | array => simp at hv
    | object h => exact ⟨_, .mk hf h hb, Json.object.inj hv⟩
  · rintro ⟨ms, ⟨hf, h, hb⟩, rfl⟩
    exact .mk hf (.object h) hb

end Values

end DocClient.Json
