import DocClient.Json.Record
import DocClient.Proofs.Json.Reader

/-! A record is read from the text of an object whose members it knows, one after the other. -/
namespace DocClient.Json

variable {σ α : Type} {key : String} {v : Json} {doc : Document} {cs rest : List Char} {room : Nat}

/-- A member that takes the text of a value, whatever comes after it. -/
def Member.Takes (m : Member σ) (v : Json) (set : σ → σ) : Prop :=
  ∀ rest, m.read (v.chars ++ rest) = .ok (set, rest)

theorem scanString_chars {wanted : String} (s : String) (rest : List Char) :
    scanString wanted (stringChars s ++ rest) = .ok (s, rest) := by
  have hread := stringRest_chars s rest
  have hgap : isGap '"' = false := by decide
  simp only [scanString, stringChars, List.cons_append, List.append_assoc, List.nil_append,
    skipGaps_cons hgap, hread]

theorem scanOption_quote {read : Scan α} {a : α} (h : read ('"' :: cs) = .ok (a, rest)) :
    scanOption read ('"' :: cs) = .ok (some a, rest) := by
  have hgap : isGap '"' = false := by decide
  simp [scanOption, skipGaps_cons hgap, h]

namespace Record

/-- The members of an object are known, each stands once, and their values lead to a state. -/
inductive Accepts (r : Record σ α) : σ → Document → σ → Prop
  | nil {state : σ} : Accepts r state [] state
  | cons {key : String} {v : Json} {doc : Document} {m : Member σ} {set : σ → σ} {state state' : σ}
      (hm : r.member? key = some m) (hset : m.isSet state = false) (hv : m.Takes v set)
      (hdoc : Accepts r (set state) doc state') : Accepts r state ((key, v) :: doc) state'

variable {r : Record σ α} {m : Member σ} {state state' : σ} {set : σ → σ}

section Members

variable (hm : r.member? key = some m) (hset : m.isSet state = false) (hv : m.Takes v set)
include hm hset hv

theorem readMembers_last :
    r.readMembers (room + 1) state (memberRest key v ++ '\x7d' :: rest)
      = r.close (set state) rest := by
  have hkey := stringRest_chars key (':' :: (v.chars ++ '\x7d' :: rest))
  have hgap : isGap '\x7d' = false := by decide
  simp only [memberRest, List.append_assoc, List.cons_append, readMembers, hkey, bind, Except.bind,
    hm, hset, Bool.false_eq_true, if_false, colon_colon, hv _, skipGaps_cons hgap]

theorem readMembers_next :
    r.readMembers (room + 1) state (memberRest key v ++ ',' :: '"' :: rest)
      = r.readMembers room (set state) rest := by
  have hkey := stringRest_chars key (':' :: (v.chars ++ ',' :: '"' :: rest))
  have hgap : isGap ',' = false := by decide
  simp only [memberRest, List.append_assoc, List.cons_append, readMembers, hkey, bind, Except.bind,
    hm, hset, Bool.false_eq_true, if_false, colon_colon, hv _, skipGaps_cons hgap, nextKey_quote]

end Members

theorem readMembers_chars (h : r.Accepts state doc state') (hne : doc ≠ [])
    (hroom : doc.length ≤ room) (hcs : membersChars doc ++ '\x7d' :: rest = '"' :: cs) :
    r.readMembers room state cs = r.close state' rest := by
  induction h generalizing room cs with
  | nil => exact absurd rfl hne
  | @cons key v doc m set state state' hm hset hv hdoc ih =>
    obtain ⟨room, rfl⟩ : ∃ n, room = n + 1 := ⟨room - 1, by simp at hroom; omega⟩
    cases doc with
    | nil =>
      cases hdoc
      rw [membersChars_singleton, List.cons_append] at hcs
      rw [← (List.cons.inj hcs).2]
      exact readMembers_last hm hset hv
    | cons next doc =>
      obtain ⟨tail, htail⟩ := membersChars_quote next doc
      rw [membersChars_cons, htail, List.cons_append, List.append_assoc, List.cons_append,
        List.cons_append] at hcs
      rw [← (List.cons.inj hcs).2, readMembers_next hm hset hv]
      exact ih (by simp) (by simpa using hroom) (by rw [htail, List.cons_append])

/-- The record is closed with what its members have put into it. -/
theorem read_object (h : r.Accepts r.empty doc state') (hne : doc ≠ []) :
    r.read ((Json.object doc).chars ++ rest) = r.close state' rest := by
  cases doc with
  | nil => exact absurd rfl hne
  | cons next doc =>
    obtain ⟨cs, hcs⟩ := membersChars_quote next doc
    have hbrace : isGap '\x7b' = false := by decide
    have hquote : isGap '"' = false := by decide
    have hread : r.readMembers ((cs ++ '\x7d' :: rest).length + 1) r.empty (cs ++ '\x7d' :: rest)
        = r.close state' rest :=
      readMembers_chars h hne (length_le_room hcs) (by rw [hcs, List.cons_append])
    simp only [Json.chars, hcs, List.cons_append, List.append_assoc, List.nil_append, read,
      skipGaps_cons hbrace, skipGaps_cons hquote, hread]

end Record

end DocClient.Json
