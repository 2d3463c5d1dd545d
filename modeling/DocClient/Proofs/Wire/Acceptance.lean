import DocClient.Proofs.Json.Printed
import DocClient.Proofs.Wire.Reply

/-!
Which lines are replies. A line is taken for a reply if it is the text of an object that has a
status, and each of the three members in one spelling only; of members with one key the last one
counts, and no other member does.
-/
namespace DocClient

open Json (Lists gather setMember)

variable {key : String} {v : Json} {vs : List Json} {doc : Document} {ms : List (String × Json)}

namespace Text

/-- Blanks around a text are trimmed away with those of the text itself. -/
theorem trim_append {front back : List Char} (cs : List Char) (hf : ∀ c ∈ front, isBlank c = true)
    (hb : ∀ c ∈ back, isBlank c = true) : trim (front ++ cs ++ back) = trim cs := by
  have hback : back.dropWhile isBlank = [] := List.dropWhile_eq_nil_iff.mpr hb
  rw [trim, trim, List.append_assoc, List.dropWhile_append_of_pos hf, List.dropWhile_append]
  split
  · next h => rw [hback, List.isEmpty_iff.mp h]
  · rw [List.reverse_append, List.dropWhile_append_of_pos fun c hc => hb c (List.mem_reverse.mp hc)]

/-- A text between characters that are not blank is left as it is. -/
theorem trim_between {c d : Char} (cs : List Char) (hc : isBlank c = false)
    (hd : isBlank d = false) : trim (c :: cs ++ [d]) = c :: cs ++ [d] := by
  simp [trim, hc, hd]

end Text

namespace Json

/-- The value of the last member with a key. -/
def last (key : String) (ms : List (String × Json)) : Option Json := ms.reverse.lookup key

theorem lookup_cons {m : String × Json} :
    (m :: doc : Document).lookup key = if key = m.1 then some m.2 else doc.lookup key := by
  rw [List.lookup_cons]
  by_cases h : key = m.1
  · simp [h]
  · simp [h, beq_false_of_ne h]

theorem mem_of_lookup (h : doc.lookup key = some v) : (key, v) ∈ doc := by
  induction doc with
  | nil => simp at h
  | cons m doc ih =>
    rw [lookup_cons] at h
    split at h
    · next heq =>
      obtain rfl := Option.some.inj h
      exact heq ▸ List.mem_cons_self
    · exact List.mem_cons_of_mem m (ih h)

theorem lookup_setMember {key' : String} :
    (setMember key v doc).lookup key' = if key' = key then some v else doc.lookup key' := by
  induction doc with
  | nil => exact lookup_cons
  | cons m doc ih =>
    unfold setMember
    split
    · exact lookup_cons
    · split
      · next heq =>
        subst heq
        by_cases h : key' = m.1 <;> simp [lookup_cons, h]
      · next hne =>
        by_cases h : key' = key
        · subst h
          simp [lookup_cons, hne, ih]
        · simp [lookup_cons, h, ih]

/-- An object that is written member by member has for every key the last value that it is given. -/
theorem lookup_gather (ms : List (String × Json)) : (gather ms).lookup key = last key ms := by
  induction ms using List.reverseRecOn with
  | nil => rfl
  | append_singleton ms m ih =>
    rw [gather_append, lookup_setMember, ih, last, last, List.reverse_append,
      List.reverse_singleton, List.singleton_append, lookup_cons]

end Json

namespace Reply

open Json (last)

variable {field : Field} {r : Reply} {p q : Parts} {line : String}

/-- The values that the spellings of a field are given. -/
def stated (field : Field) (ms : List (String × Json)) : List Json :=
  field.spellings.filterMap fun key => last key ms

/-- The reply that the members of an object make, if they make one. -/
structure Tells (ms : List (String × Json)) (r : Reply) : Prop where
  status : stated .status ms = [.string r.status]
  message : (stated .message ms = [] ∨ stated .message ms = [.null]) ∧ r.message = none ∨
    ∃ m, stated .message ms = [.string m] ∧ r.message = some m
  result : (stated .result ms = [] ∨ stated .result ms = [.null]) ∧ r.result = none ∨
    ∃ v, v ≠ .null ∧ stated .result ms = [v] ∧ r.result = some v

section Collect

theorem ofKey?_eq_some_iff : Field.ofKey? key = some field ↔ key ∈ field.spellings := by
  constructor
  · intro h
    simpa using List.find?_some h
  · intro h
    have hall : ∀ field : Field, ∀ key ∈ field.spellings, Field.ofKey? key = some field := by
      rintro (_ | _ | _) <;> decide
    exact hall field key h

/-- The values of an object's members that belong to a field, in the order of the object. -/
def given (field : Field) (doc : Document) : List Json :=
  doc.filterMap fun m => if Field.ofKey? m.1 = some field then some m.2 else none

/-- A field is filled by the one value that it is given, or it stays as it was. -/
def Fills {β : Type} (take : Json → Option β) (vs : List Json) (old new : Option β) : Prop :=
  vs = [] ∧ new = old ∨ old = none ∧ ∃ v b, vs = [v] ∧ take v = some b ∧ new = some b

theorem fills_nil {β : Type} {take : Json → Option β} {old new : Option β} :
    Fills take [] old new ↔ new = old := by
  simp [Fills]

theorem fills_cons {β : Type} {take : Json → Option β} {old new : Option β} :
    Fills take (v :: vs) old new ↔
      old = none ∧ ∃ b, take v = some b ∧ Fills take vs (some b) new := by
  constructor
  · rintro (⟨hnil, -⟩ | ⟨hold, w, b, hvs, htake, hnew⟩)
    · simp at hnil
    · obtain ⟨rfl, rfl⟩ := List.cons.inj hvs
      exact ⟨hold, b, htake, Or.inl ⟨rfl, hnew⟩⟩
  · rintro ⟨hold, b, htake, ⟨rfl, hnew⟩ | ⟨hnone, -⟩⟩
    · exact Or.inr ⟨hold, v, b, rfl, htake, hnew⟩
    · simp at hnone

def statusOf : Json → Option String
  | .string s => some s
  | _ => none

def messageOf : Json → Option (Option String)
  | .string s => some (some s)
  | .null => some none
  | _ => none

def resultOf : Json → Option (Option Json)
  | .null => some none
  | v => some (some v)

/-- What the members of an object add to the parts of a reply. -/
structure Parts.Gains (p : Parts) (doc : Document) (q : Parts) : Prop where
  status : Fills statusOf (given .status doc) p.status q.status
  message : Fills messageOf (given .message doc) p.message q.message
  result : Fills resultOf (given .result doc) p.result q.result

theorem put_status :
    p.put .status v = .ok q ↔ ∃ s, statusOf v = some s ∧ q = { p with status := some s } := by
  cases v <;> simp [Parts.put, statusOf, eq_comm]

theorem put_message :
    p.put .message v = .ok q ↔ ∃ m, messageOf v = some m ∧ q = { p with message := some m } := by
  cases v <;> simp [Parts.put, messageOf, eq_comm]

theorem put_result :
    p.put .result v = .ok q ↔ ∃ w, resultOf v = some w ∧ q = { p with result := some w } := by
  cases v <;> simp [Parts.put, resultOf, eq_comm]

theorem given_cons (m : String × Json) : given field (m :: doc)
    = if Field.ofKey? m.1 = some field then m.2 :: given field doc else given field doc := by
  by_cases h : Field.ofKey? m.1 = some field <;> simp [given, h]

theorem gains_iff : p.Gains doc q ↔ Fills statusOf (given .status doc) p.status q.status ∧
    Fills messageOf (given .message doc) p.message q.message ∧
      Fills resultOf (given .result doc) p.result q.result :=
  ⟨fun ⟨hs, hm, hr⟩ => ⟨hs, hm, hr⟩, fun ⟨hs, hm, hr⟩ => ⟨hs, hm, hr⟩⟩

theorem gains_nil : p.Gains [] q ↔ q = p := by
  constructor
  · rintro ⟨hs, hm, hr⟩
    cases q
    simp only [given, List.filterMap_nil, fills_nil] at hs hm hr
    rw [hs, hm, hr]
  · rintro rfl
    exact ⟨fills_nil.mpr rfl, fills_nil.mpr rfl, fills_nil.mpr rfl⟩

/-- A member of another name adds nothing. -/
theorem gains_other {m : String × Json} (h : Field.ofKey? m.1 = none) :
    p.Gains (m :: doc) q ↔ p.Gains doc q := by
  simp [gains_iff, given_cons, h]

/-- A member of a field fills it, if nothing has filled it before. -/
theorem gains_field {m : String × Json} (h : Field.ofKey? m.1 = some field) :
    p.Gains (m :: doc) q ↔
      p.has field = false ∧ ∃ p', p.put field m.2 = .ok p' ∧ p'.Gains doc q := by
  -- the other two fields are given no more than before
  cases field with
  | status =>
    simp only [gains_iff, given_cons, h, if_true, reduceCtorEq, Option.some.injEq, if_false,
      fills_cons, put_status]
    constructor
    · rintro ⟨⟨hold, s, htake, hs⟩, hm, hr⟩
      exact ⟨by simp [Parts.has, hold], _, ⟨s, htake, rfl⟩, hs, hm, hr⟩
    · rintro ⟨hhas, _, ⟨s, htake, rfl⟩, hs, hm, hr⟩
      exact ⟨⟨by simpa [Parts.has] using hhas, s, htake, hs⟩, hm, hr⟩
  | message =>
    simp only [gains_iff, given_cons, h, if_true, reduceCtorEq, Option.some.injEq, if_false,
      fills_cons, put_message]
    constructor
    · rintro ⟨hs, ⟨hold, m, htake, hm⟩, hr⟩
      exact ⟨by simp [Parts.has, hold], _, ⟨m, htake, rfl⟩, hs, hm, hr⟩
    · rintro ⟨hhas, _, ⟨m, htake, rfl⟩, hs, hm, hr⟩
      exact ⟨hs, ⟨by simpa [Parts.has] using hhas, m, htake, hm⟩, hr⟩
  | result =>
    simp only [gains_iff, given_cons, h, if_true, reduceCtorEq, Option.some.injEq, if_false,
      fills_cons, put_result]
    constructor
    · rintro ⟨hs, hm, hold, r, htake, hr⟩
      exact ⟨by simp [Parts.has, hold], _, ⟨r, htake, rfl⟩, hs, hm, hr⟩
    · rintro ⟨hhas, _, ⟨r, htake, rfl⟩, hs, hm, hr⟩
      exact ⟨hs, hm, by simpa [Parts.has] using hhas, r, htake, hr⟩

theorem collect_eq_ok_iff : collect p doc = .ok q ↔ p.Gains doc q := by
  induction doc generalizing p with
  | nil => exact ⟨fun h => gains_nil.mpr (Except.ok.inj h).symm, fun h => gains_nil.mp h ▸ rfl⟩
  | cons m doc ih =>
    cases hfield : Field.ofKey? m.1 with
    | none => rw [gains_other hfield, ← ih, collect, hfield]
    | some field =>
      rw [gains_field hfield, collect, hfield]
      cases hhas : p.has field with
      | true => simp [hhas]
      | false =>
        simp only [hhas, Bool.false_eq_true, if_false, true_and]
        constructor
        · intro h
          obtain ⟨p', hput, hcollect⟩ := bind_ok h
          exact ⟨p', hput, ih.mp hcollect⟩
        · rintro ⟨p', hput, hgains⟩
          rw [hput]
          exact ih.mpr hgains

theorem spellings_ascending (field : Field) : field.spellings.Pairwise (· < ·) := by
  cases field <;> decide

/-- In an object whose keys ascend the values of given keys stand in the order of these. -/
theorem filterMap_lookup {keys : List String} (hkeys : keys.Pairwise (· < ·))
    (hdoc : doc.Ascending) : keys.filterMap (fun key => doc.lookup key)
      = doc.filterMap fun m => if m.1 ∈ keys then some m.2 else none := by
  induction doc with
  | nil => simp
  | cons m doc ih =>
    obtain ⟨hm, hdoc'⟩ := List.pairwise_cons.mp hdoc
    have hnone {key : String} (hle : key ≤ m.1) : doc.lookup key = none := by
      rw [List.lookup_eq_none_iff]
      intro m' hm'
      rw [bne_iff_ne]
      rintro rfl
      exact String.not_lt.mpr hle (hm m' hm')
    have hne {key key' : String} (hlt : key < key') : key ≠ key' := by
      rintro rfl
      exact String.lt_irrefl _ hlt
    by_cases hmem : m.1 ∈ keys
    · obtain ⟨front, back, rfl⟩ := List.append_of_mem hmem
      obtain ⟨-, hback, hfront⟩ := List.pairwise_append.mp hkeys
      have hsmall : ∀ key ∈ front, key < m.1 := fun key hk => hfront key hk m.1 List.mem_cons_self
      have hlarge : ∀ key ∈ back, m.1 < key := (List.pairwise_cons.mp hback).1
      have hleft : front.filterMap (fun key => doc.lookup key) = [] :=
        List.filterMap_eq_nil_iff.mpr fun key hk =>
          hnone (String.not_lt.mp (String.lt_asymm (hsmall key hk)))
      have hleft' : front.filterMap (fun key => (m :: doc).lookup key) = [] := by
        refine List.filterMap_eq_nil_iff.mpr fun key hk => ?_
        rw [Json.lookup_cons, if_neg (hne (hsmall key hk))]
        exact hnone (String.not_lt.mp (String.lt_asymm (hsmall key hk)))
      have hright : back.filterMap (fun key => (m :: doc).lookup key)
          = back.filterMap fun key => doc.lookup key :=
        List.filterMap_congr fun key hk => by
          rw [Json.lookup_cons, if_neg (hne (hlarge key hk)).symm]
      have hrest := ih hdoc'
      rw [List.filterMap_append, hleft, List.filterMap_cons, hnone (String.le_refl m.1)] at hrest
      rw [List.filterMap_append, hleft', List.filterMap_cons, Json.lookup_cons, if_pos rfl, hright,
        List.filterMap_cons, if_pos hmem, ← hrest]
      rfl
    · rw [List.filterMap_cons, if_neg hmem, ← ih hdoc']
      refine List.filterMap_congr fun key hk => ?_
      rw [Json.lookup_cons, if_neg]
      rintro rfl
      exact hmem hk

theorem given_gather : given field (Json.gather ms) = stated field ms := by
  simp only [given, stated, ofKey?_eq_some_iff, ← Json.lookup_gather,
    filterMap_lookup (spellings_ascending field) (Json.ascending_gather ms)]

theorem ofDocument_eq_ok_iff : ofDocument doc = .ok r ↔
    ∃ q, collect .empty doc = .ok q ∧ q.status = some r.status ∧ q.message.join = r.message ∧
      q.result.join = r.result := by
  constructor
  · intro h
    obtain ⟨q, hq, h⟩ := bind_ok h
    refine ⟨q, hq, ?_⟩
    cases hs : q.status with
    | none => simp [Parts.finish, hs] at h
    | some s =>
      simp only [Parts.finish, hs] at h
      obtain rfl := Except.ok.inj h
      exact ⟨rfl, rfl, rfl⟩
  · rintro ⟨q, hq, hs, hm, hr⟩
    simp only [ofDocument, hq, bind, Except.bind, Parts.finish, hs, hm, hr]

end Collect

theorem fills_status {s : String} :
    Fills statusOf vs none (some s) ↔ vs = [.string s] := by
  constructor
  · rintro (⟨-, hnone⟩ | ⟨-, v, s', rfl, htake, hsome⟩)
    · simp at hnone
    · cases v <;> simp_all [statusOf]
  · rintro rfl
    exact Or.inr ⟨rfl, _, s, rfl, rfl, rfl⟩

theorem fills_message {message : Option String} :
    (∃ new, Fills messageOf vs none new ∧ new.join = message) ↔
      (vs = [] ∨ vs = [.null]) ∧ message = none ∨ ∃ m, vs = [.string m] ∧ message = some m := by
  constructor
  · rintro ⟨new, ⟨rfl, rfl⟩ | ⟨-, v, m, rfl, htake, rfl⟩, rfl⟩
    · exact Or.inl ⟨Or.inl rfl, rfl⟩
    · cases v <;> simp_all [messageOf, eq_comm]
  · rintro (⟨rfl | rfl, rfl⟩ | ⟨m, rfl, rfl⟩)
    · exact ⟨none, Or.inl ⟨rfl, rfl⟩, rfl⟩
    · exact ⟨some none, Or.inr ⟨rfl, _, none, rfl, rfl, rfl⟩, rfl⟩
    · exact ⟨some (some m), Or.inr ⟨rfl, _, some m, rfl, rfl, rfl⟩, rfl⟩

theorem fills_result {result : Option Json} :
    (∃ new, Fills resultOf vs none new ∧ new.join = result) ↔
      (vs = [] ∨ vs = [.null]) ∧ result = none ∨
        ∃ v, v ≠ .null ∧ vs = [v] ∧ result = some v := by
  have hsome {v : Json} (hv : v ≠ .null) : resultOf v = some (some v) := by
    cases v <;> first | rfl | exact absurd rfl hv
  constructor
  · rintro ⟨new, ⟨rfl, rfl⟩ | ⟨-, v, m, rfl, htake, rfl⟩, rfl⟩
    · exact Or.inl ⟨Or.inl rfl, rfl⟩
    · by_cases hv : v = .null
      · subst hv
        obtain rfl := Option.some.inj htake
        exact Or.inl ⟨Or.inr rfl, rfl⟩
      · rw [hsome hv] at htake
        obtain rfl := Option.some.inj htake
        exact Or.inr ⟨v, hv, rfl, rfl⟩
  · rintro (⟨rfl | rfl, rfl⟩ | ⟨v, hv, rfl, rfl⟩)
    · exact ⟨none, Or.inl ⟨rfl, rfl⟩, rfl⟩
    · exact ⟨some none, Or.inr ⟨rfl, _, none, rfl, rfl, rfl⟩, rfl⟩
    · exact ⟨some (some v), Or.inr ⟨rfl, _, some v, rfl, hsome hv, rfl⟩, rfl⟩

/-- The members of an object make the reply that they tell of, and no other. -/
theorem ofDocument_gather : ofDocument (Json.gather ms) = .ok r ↔ Tells ms r := by
  rw [ofDocument_eq_ok_iff]
  simp only [collect_eq_ok_iff, gains_iff, given_gather, Parts.empty]
  constructor
  · rintro ⟨q, ⟨hs, hm, hr⟩, hstatus, hmessage, hresult⟩
    rw [hstatus] at hs
    exact ⟨fills_status.mp hs, fills_message.mp ⟨_, hm, hmessage⟩,
      fills_result.mp ⟨_, hr, hresult⟩⟩
  · rintro ⟨hs, hm, hr⟩
    obtain ⟨message, hm, hmessage⟩ := fills_message.mpr hm
    obtain ⟨result, hr, hresult⟩ := fills_result.mpr hr
    exact ⟨⟨some r.status, message, result⟩, ⟨fills_status.mpr hs, hm, hr⟩, rfl, hmessage, hresult⟩

theorem tells_congr {ms' : List (String × Json)}
    (h : ∀ field, stated field ms = stated field ms') : Tells ms r ↔ Tells ms' r := by
  constructor
  · rintro ⟨hs, hm, hr⟩
    rw [h] at hs hm hr
    exact ⟨hs, hm, hr⟩
  · rintro ⟨hs, hm, hr⟩
    rw [← h] at hs hm hr
    exact ⟨hs, hm, hr⟩

theorem parse_eq_ok_iff : parse line = .ok r ↔
    ∃ doc, Json.parse (Text.trim line.toList) = .ok (.object doc) ∧ ofDocument doc = .ok r := by
  unfold parse
  split
  · next hparse => simp [hparse]
  · next doc hparse =>
    rw [hparse]
    split
    · next hdoc => simp [hdoc]
    · next hdoc => simp [hdoc]
  · next v hne hparse =>
    rw [hparse]
    constructor
    · nofun
    · rintro ⟨doc, hv, -⟩
      exact (hne doc (Except.ok.inj hv)).elim

/-- A line gives a reply if it is the text of an object whose members tell of that reply. -/
theorem parse_lists_iff : parse line = .ok r ↔
    ∃ ms, Lists (Text.trim line.toList) ms ∧ Tells ms r := by
  rw [parse_eq_ok_iff]
  constructor
  · rintro ⟨doc, hparse, hdoc⟩
    obtain ⟨ms, hms, rfl⟩ := Json.parse_object_iff.mp hparse
    exact ⟨ms, hms, ofDocument_gather.mp hdoc⟩
  · rintro ⟨ms, hms, htells⟩
    exact ⟨Json.gather ms, Json.parse_object_iff.mpr ⟨ms, hms, rfl⟩, ofDocument_gather.mpr htells⟩

/-- What is printed for an object is taken for one, whatever the order of its members. -/
theorem lists_render (h : ∀ m ∈ ms, m.2.Printable) :
    Lists (Text.trim (Json.object ms).render.toList) ms := by
  have htrim : Text.trim (Json.object ms).chars = (Json.object ms).chars :=
    Text.trim_between (Json.membersChars ms) (by decide) (by decide)
  rw [Json.render, String.toList_ofList, htrim]
  exact Json.lists_chars h

/-- Two ways to read a line as an object agree on the last value of every key. -/
theorem parse_of_lists (h : Lists (Text.trim line.toList) ms) :
    parse line = .ok r ↔ Tells ms r := by
  have hparse := Json.parse_object_iff.mpr ⟨ms, h, rfl⟩
  rw [parse_eq_ok_iff, hparse, ← ofDocument_gather]
  simp

/-- A line is taken for a reply exactly if, blanks around it apart, it is the text of an object
whose members tell of that reply; of any other line it is said that it breaks the protocol. What
is read depends on the last values of the six keys alone, whatever else the text holds. -/
theorem parse_exact (line : String) :
    (∀ r, parse line = .ok r ↔ ∃ ms, Lists (Text.trim line.toList) ms ∧ Tells ms r) ∧
      ((∀ r, parse line ≠ .ok r) → ∃ text, parse line = .error (.protocol text)) ∧
      (∀ line' ms ms', Lists (Text.trim line.toList) ms → Lists (Text.trim line'.toList) ms' →
        (∀ field : Field, ∀ key ∈ field.spellings, last key ms = last key ms') →
          ∀ r, parse line' = .ok r ↔ parse line = .ok r) ∧
      ∀ front back : String, (∀ c ∈ front.toList, Text.isBlank c = true) →
        (∀ c ∈ back.toList, Text.isBlank c = true) →
          ∀ r, parse (front ++ line ++ back) = .ok r ↔ parse line = .ok r := by
  refine ⟨fun r => parse_lists_iff, ?_, ?_, ?_⟩
  · intro hnone
    cases hparse : parse line with
    | ok r => exact absurd hparse (hnone r)
    | error f =>
      obtain ⟨detail, rfl | rfl⟩ := parse_error hparse
      · exact ⟨_, rfl⟩
      · exact ⟨_, rfl⟩
  · intro line' ms ms' hms hms' hlast r
    have hstated (field : Field) : stated field ms' = stated field ms :=
      List.filterMap_congr fun key hkey => (hlast field key hkey).symm
    rw [parse_of_lists hms, parse_of_lists hms']
    exact tells_congr hstated
  · intro front back hf hb r
    rw [parse_eq_ok_iff, parse_eq_ok_iff, String.toList_append, String.toList_append,
      Text.trim_append _ hf hb]

/-- One half. -/
def half : Binary := ⟨false, 4503599627370496, -53⟩

theorem legible_half : (Number.real half).Legible := by
  let x : Json.Numeral := ⟨false, ['0'], ['5'], none, by simp, by simp, by simp, by simp⟩
  have hmeans : x.Means (.real half) :=
    .real (fun h => absurd h.plain.1 (by decide)) (by simp [x])
      (Json.Numeral.scaled_iff.mpr (by rfl : _ = (5, -1)))
      (Binary.ofScaled_eq_some_iff.mp (by decide +kernel))
  exact Number.legible_of_means (by decide +kernel) hmeans

/-- A whole number and one that is not. -/
def numbers : Json := .array [.number (.whole (-12) (by decide)), .number (.real half)]

theorem printable_numbers : numbers.Printable := by
  refine ⟨by simp [numbers, Json.Ordered], ?_, by decide⟩
  intro n hn
  simp only [numbers, Json.part_array, List.mem_cons, List.not_mem_nil, or_false,
    exists_eq_or_imp, exists_eq_left, Json.part_number, reduceCtorEq, false_or,
    Json.number.injEq] at hn
  rcases hn with rfl | rfl
  · exact Number.legible_whole (-12) (by decide)
  · exact legible_half

/-- A status that is given twice, and members that no reply has. -/
def repeated : List (String × Json) :=
  [("status", .string "no"), ("code", .array [.bool true]), ("result", numbers),
    ("status", .string "ok"), ("message", .null)]

/-- A line with a number that is too large for any. -/
def vast : String := "\x7b\"status\": \"ok\", \"code\": 1e309\x7d"

theorem parse_exact_repeated :
    parse (Json.object repeated).render = .ok ⟨"ok", none, some numbers⟩ ∧
      parse ("\t" ++ (Json.object repeated).render ++ "\t") = .ok ⟨"ok", none, some numbers⟩ ∧
      (∃ text, parse (Json.object (("Status", .string "ok") :: repeated)).render
        = .error (.protocol text)) ∧
      ∃ text, parse vast = .error (.protocol text) := by
  have hall : ∀ m ∈ ("Status", .string "ok") :: repeated, m.2.Printable := by
    intro m hm
    simp only [repeated, List.mem_cons, List.not_mem_nil, or_false] at hm
    rcases hm with rfl | rfl | rfl | rfl | rfl | rfl
    case inr.inr.inr.inl => exact printable_numbers
    all_goals exact ⟨by simp [Json.Ordered], by simp [Json.Numbers], by decide⟩
  have hlists : Lists (Text.trim (Json.object repeated).render.toList) repeated :=
    lists_render fun m hm => hall m (List.mem_cons_of_mem _ hm)
  obtain ⟨hiff, -, -, hblank⟩ := parse_exact (Json.object repeated).render
  have hok : parse (Json.object repeated).render = .ok ⟨"ok", none, some numbers⟩ :=
    (hiff _).mpr ⟨repeated, hlists, rfl, Or.inl ⟨Or.inr rfl, rfl⟩,
      Or.inr ⟨numbers, by simp [numbers], rfl, rfl⟩⟩
  have htab : ∀ c ∈ "\t".toList, Text.isBlank c = true := by
    intro c hc
    obtain rfl : c = '\t' := by simpa using hc
    decide
  refine ⟨hok, (hblank "\t" "\t" htab htab _).mpr hok, ?_, ?_⟩
  · obtain ⟨-, herror, -, -⟩ :=
      parse_exact (Json.object (("Status", .string "ok") :: repeated)).render
    refine herror fun r hr => ?_
    have htells := (parse_of_lists (lists_render hall)).mp hr
    have htwo : (stated .status (("Status", .string "ok") :: repeated)).length = 2 := rfl
    simp [htells.status] at htwo
  · obtain ⟨-, herror, -, -⟩ := parse_exact vast
    have hvast : (parse vast).isOk = false := by decide +kernel
    refine herror fun r hr => ?_
    rw [hr] at hvast
    exact Bool.noConfusion hvast

end Reply

end DocClient
