import DocClient.Client.Connect
import DocClient.Proofs.Number.Digits
import Mathlib.Data.List.TakeWhile

/-!
Addresses as texts. The last colon parts the host from the port, so that whatever a host is called
its address is read back from its text.
-/
namespace DocClient

namespace Address

variable {a : Address} {text host port : String} {cs front back : List Char} {p : UInt16}

/-- A port as it may be written: in decimal digits, with zeros and a plus sign before them if one
likes. -/
def Spells (text : String) (p : UInt16) : Prop :=
  ∃ (sign : String) (zeros : Nat), (sign = "" ∨ sign = "+") ∧
    text = sign ++ String.ofList (List.replicate zeros '0') ++ toString p.toNat

theorem spells_iff : Spells text p ↔ ∃ zeros,
    text.toList = List.replicate zeros '0' ++ Number.digits p.toNat ∨
      text.toList = '+' :: (List.replicate zeros '0' ++ Number.digits p.toNat) := by
  constructor
  · rintro ⟨sign, zeros, rfl | rfl, rfl⟩
    · exact ⟨zeros, Or.inl (by simp [Number.digits])⟩
    · exact ⟨zeros, Or.inr (by simp [Number.digits])⟩
  · rintro ⟨zeros, h | h⟩
    · refine ⟨"", zeros, Or.inl rfl, String.toList_inj.mp ?_⟩
      simp [h, Number.digits]
    · refine ⟨"+", zeros, Or.inr rfl, String.toList_inj.mp ?_⟩
      simp [h, Number.digits]

/-- The port with a given number, if there is one. -/
def ofNumber? (n : Option Nat) : Option UInt16 :=
  (n.filter (· < UInt16.size)).map Nat.toUInt16

theorem ofNumber?_eq_some_iff {n : Option Nat} : ofNumber? n = some p ↔ n = some p.toNat := by
  have hp : p.toNat < UInt16.size := p.toNat_lt
  cases n with
  | none => simp [ofNumber?]
  | some n =>
    by_cases hn : n < UInt16.size
    · have hvalue : n.toUInt16.toNat = n := Nat.mod_eq_of_lt hn
      have hport : n.toUInt16 = p ↔ n = p.toNat := by rw [← UInt16.toNat_inj, hvalue]
      simp [ofNumber?, hn, hport]
    · have hne : n ≠ p.toNat := fun he => hn (he ▸ hp)
      simp [ofNumber?, hn, hne]

theorem port?_plus (cs : List Char) : port? ('+' :: cs) = ofNumber? (Number.ofDigits? cs) := rfl

theorem port?_plain (h : ∀ rest, cs ≠ '+' :: rest) :
    port? cs = ofNumber? (Number.ofDigits? cs) := by
  unfold port? ofNumber?
  split
  · exact absurd rfl (h _)
  · rfl

/-- A port is read if it can be written so, and only then. -/
theorem port?_eq_some_iff : port? text.toList = some p ↔ Spells text p := by
  have hdigit {zeros : Nat} {rest : List Char} :
      '+' :: rest ≠ List.replicate zeros '0' ++ Number.digits p.toNat := by
    intro h
    have hplus : '+' ∈ List.replicate zeros '0' ++ Number.digits p.toNat := h ▸ List.mem_cons_self
    exact absurd (Number.isDigit_of_mem_zeros hplus) (by decide)
  rw [spells_iff]
  by_cases hplus : ∃ rest, text.toList = '+' :: rest
  · obtain ⟨rest, hrest⟩ := hplus
    rw [hrest, port?_plus, ofNumber?_eq_some_iff, Number.ofDigits?_iff_zeros]
    simp [hdigit]
  · have hplain : ∀ rest, text.toList ≠ '+' :: rest := fun rest hrest => hplus ⟨rest, hrest⟩
    rw [port?_plain hplain, ofNumber?_eq_some_iff, Number.ofDigits?_iff_zeros]
    simp [hplain]

/-- A text cut at its last colon. -/
structure CutLast (text host port : String) : Prop where
  joined : text = host ++ ":" ++ port
  last : ':' ∉ port.toList

theorem ne_colon_of_mem (h : ':' ∉ cs) : ∀ c ∈ cs.reverse, decide (c ≠ ':') = true := by
  intro c hc
  have hne : c ≠ ':' := by
    rintro rfl
    exact h (List.mem_reverse.mp hc)
  exact decide_eq_true hne

theorem splitLast_plain (h : ':' ∉ cs) : splitLast cs = none := by
  have hall : cs.reverse.dropWhile (fun c => decide (c ≠ ':')) = [] :=
    List.dropWhile_eq_nil_iff.mpr (ne_colon_of_mem h)
  rw [splitLast, hall]

theorem splitLast_append (h : ':' ∉ back) :
    splitLast (front ++ ':' :: back) = some (front, back) := by
  have hall := ne_colon_of_mem h
  have hreverse : (front ++ ':' :: back).reverse = back.reverse ++ ':' :: front.reverse := by simp
  have hdrop : (back.reverse ++ ':' :: front.reverse).dropWhile (fun c => decide (c ≠ ':'))
      = ':' :: front.reverse := by
    rw [List.dropWhile_append_of_pos hall]
    simp
  have htake : (back.reverse ++ ':' :: front.reverse).takeWhile (fun c => decide (c ≠ ':'))
      = back.reverse := by
    rw [List.takeWhile_append_of_pos hall]
    simp
  rw [splitLast, hreverse, hdrop, htake]
  simp

theorem exists_cutLast (h : ':' ∈ text.toList) : ∃ host port, CutLast text host port := by
  obtain ⟨back, front, htext, hback⟩ := List.eq_append_cons_of_mem (List.mem_reverse.mpr h)
  refine ⟨String.ofList front.reverse, String.ofList back.reverse, ?_, by simpa using hback⟩
  have hlist := congrArg List.reverse htext
  apply String.toList_inj.mp
  simpa using hlist

theorem parse_plain (h : ':' ∉ text.toList) : parse text = .ok ⟨text, defaultPort⟩ := by
  rw [parse, splitLast_plain h]

theorem CutLast.splitLast_eq (h : CutLast text host port) :
    splitLast text.toList = some (host.toList, port.toList) := by
  have htext : text.toList = host.toList ++ ':' :: port.toList := by simp [h.joined]
  rw [htext, splitLast_append h.last]

theorem CutLast.parse_ok (h : CutLast text host port) (hp : Spells port p) :
    parse text = .ok ⟨host, p⟩ := by
  simp only [parse, h.splitLast_eq, port?_eq_some_iff.mpr hp, String.ofList_toList]

theorem CutLast.parse_error (h : CutLast text host port) (hp : ¬ ∃ p, Spells port p) :
    parse text = .error (.connection ("Invalid port in address " ++ Text.quoted text)) := by
  have hnone : port? port.toList = none :=
    Option.eq_none_iff_forall_ne_some.mpr fun p hsome => hp ⟨p, port?_eq_some_iff.mp hsome⟩
  simp only [parse, h.splitLast_eq, hnone]

theorem cutLast_text (a : Address) : CutLast a.text a.host (toString a.port.toNat) where
  joined := rfl
  last := by
    intro hcolon
    rw [Nat.toString_eq_repr, Nat.toList_repr] at hcolon
    exact absurd (Number.isDigit_of_mem_digits hcolon) (by decide)

/-- An address is read back from its text. -/
theorem parse_text (a : Address) : parse a.text = .ok a :=
  (cutLast_text a).parse_ok ⟨"", 0, Or.inl rfl, by simp⟩

theorem text_inj {b : Address} (h : a.text = b.text) : a = b := by
  have hparse := parse_text a
  rw [h, parse_text b] at hparse
  exact (Except.ok.inj hparse).symm

end Address

namespace Client

variable {text : String} {a b : Address}

/-- Who connects to a text connects to an address, with the usual settings. -/
def Targets (text : String) (a : Address) : Prop :=
  ∀ network username password, connectAddress network text username password
    = connect network { address := a, credentials := ⟨username, password⟩ }

/-- Who connects to a text is told that its port is none, whatever the network is like. -/
def Refuses (text : String) : Prop :=
  ∀ network username password, connectAddress network text username password
    = .refused (.connection ("Invalid port in address " ++ Text.quoted text))

theorem targets_of_parse (h : Address.parse text = .ok a) : Targets text a := by
  intro network username password
  rw [connectAddress, h]

theorem refuses_of_parse
    (h : Address.parse text
      = .error (.connection ("Invalid port in address " ++ Text.quoted text))) :
    Refuses text := by
  intro network username password
  rw [connectAddress, h]

/-- A text that stands for an address is not refused: the credentials are looked at. -/
theorem Targets.not_refuses (h : Targets text a) : ¬ Refuses text := by
  intro hr
  have hcomma : LoginEncoding.hasComma "," = true := by decide
  have hconnect : connect (fun _ => .fails .connectionRefused)
      { address := a, credentials := ⟨",", ""⟩ }
      = .refused (.invalidArgument "username and password must not contain ','") := by
    simp [connect, connectTo, LoginEncoding.encode, hcomma]
  rw [← h, hr] at hconnect
  simp at hconnect

/-- A text stands for one address only. -/
theorem Targets.unique (h : Targets text a) (h' : Targets text b) : a = b := by
  have hdial (x : Address) : connect (fun _ => .fails .connectionRefused)
      { address := x, credentials := ⟨"", ""⟩ }
      = .refused (.connection ("Failed to connect to " ++ x.text ++ ": "
        ++ SystemFault.connectionRefused.message)) := rfl
  have hmessage := hdial a
  rw [← h, h', hdial] at hmessage
  have hlist := congrArg String.toList (Failure.connection.inj (Attempt.refused.inj hmessage))
  simp only [String.toList_append, List.append_cancel_left_eq, List.append_cancel_right_eq] at hlist
  exact (Address.text_inj (String.toList_inj.mp hlist)).symm

end Client

/-- An address is reached by its text, whatever its host is called, and a text without a colon is
a host. Of any other text the part after the last colon must be a port, or it is refused before
anything is dialled. -/
theorem addresses_recovered :
    (∀ a : Address, Client.Targets a.text a) ∧
    (∀ text : String, ':' ∉ text.toList → Client.Targets text ⟨text, 9090⟩) ∧
    (∀ text : String, ':' ∈ text.toList → ∃ host port, Address.CutLast text host port) ∧
    (∀ text host port, Address.CutLast text host port →
      (∀ p, Address.Spells port p → Client.Targets text ⟨host, p⟩) ∧
      (Client.Refuses text ↔ ¬ ∃ p, Address.Spells port p)) ∧
    ∀ text a b, Client.Targets text a → Client.Targets text b → a = b := by
  refine ⟨?_, ?_, ?_, ?_, ?_⟩
  · intro a
    exact Client.targets_of_parse (Address.parse_text a)
  · intro text h
    exact Client.targets_of_parse (Address.parse_plain h)
  · intro text h
    exact Address.exists_cutLast h
  · intro text host port hcut
    have htargets (p : UInt16) (hp : Address.Spells port p) : Client.Targets text ⟨host, p⟩ :=
      Client.targets_of_parse (hcut.parse_ok hp)
    refine ⟨htargets, ?_, ?_⟩
    · rintro hr ⟨p, hp⟩
      exact (htargets p hp).not_refuses hr
    · intro hp
      exact Client.refuses_of_parse (hcut.parse_error hp)
  · intro text a b h h'
    exact h.unique h'

/-- A host with colons before a port with a sign and a zero, no port at all, and one that is too
large by one. -/
theorem addresses_recovered_colons : Client.Targets "::1:+09091" ⟨"::1", 9091⟩ ∧
    Client.Targets "::1" ⟨":", 1⟩ ∧ Client.Refuses "db:" ∧ Client.Refuses "db:65536" := by
  obtain ⟨-, -, -, hcut, -⟩ := addresses_recovered
  have hnone {port : String} (h : Address.port? port.toList = none) :
      ¬ ∃ p, Address.Spells port p := by
    rintro ⟨p, hp⟩
    simp [Address.port?_eq_some_iff.mpr hp] at h
  refine ⟨?_, ?_, ?_, ?_⟩
  · exact (hcut _ "::1" "+09091" ⟨by decide, by decide⟩).1 9091 ⟨"+", 1, Or.inr rfl, by decide⟩
  · exact (hcut _ ":" "1" ⟨by decide, by decide⟩).1 1 ⟨"", 0, Or.inl rfl, by decide⟩
  · exact (hcut _ "db" "" ⟨by decide, by decide⟩).2.mpr (hnone (by decide))
  · exact (hcut _ "db" "65536" ⟨by decide, by decide⟩).2.mpr (hnone (by decide))

end DocClient
