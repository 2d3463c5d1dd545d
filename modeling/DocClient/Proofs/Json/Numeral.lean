import DocClient.Json.Numeral
import DocClient.Proofs.Command
import DocClient.Proofs.Number.Digits
import DocClient.Proofs.Number.Scaling
import Mathlib.Data.List.TakeWhile

/-!
Numbers in a text. A numeral is put together from a sign, digits before and after a point, and an
exponent, and its value is told from these parts. What is read as a number is the numeral that
stands there, as far as it goes; and a printed whole number is read back.
-/
namespace DocClient

namespace Json

open Number (positional)

variable {cs ds rest tail front back : List Char} {negative : Bool} {n : Number} {k : Nat}

section Grammar

/-- An exponent: its letter, a sign if it has one, and digits. -/
structure Exponent where
  letter : Char
  sign : List Char
  digits : List Char
  letter_mem : letter ∈ ['e', 'E']
  sign_mem : sign ∈ [[], ['+'], ['-']]
  digits_ne : digits ≠ []
  digits_all : ∀ c ∈ digits, c.isDigit = true

namespace Exponent

def chars (e : Exponent) : List Char := e.letter :: (e.sign ++ e.digits)

/-- Whether the exponent is negative. -/
def small (e : Exponent) : Prop := e.sign = ['-']

instance (e : Exponent) : Decidable e.small := inferInstanceAs (Decidable (_ = _))

def size (e : Exponent) : Nat := positional e.digits

def power (e : Exponent) : Int := if e.small then -(e.size : Int) else e.size

end Exponent

/-- A number as it is written. Before the point there is a zero alone or digits of which the first
is no zero; the point is there if there are digits after it. -/
structure Numeral where
  negative : Bool
  whole : List Char
  fraction : List Char
  exponent : Option Exponent
  whole_ne : whole ≠ []
  whole_all : ∀ c ∈ whole, c.isDigit = true
  whole_zero : whole.head? = some '0' → whole = ['0']
  fraction_all : ∀ c ∈ fraction, c.isDigit = true

/-- The digits of a row, from the first on, that fit a word together with the number before them. -/
structure Kept (before : Nat) (ds kept : List Char) : Prop where
  front : kept <+: ds
  fits : before * pow10 kept.length + positional kept < UInt64.size
  longest : ∀ more, more <+: ds → before * pow10 more.length + positional more < UInt64.size →
    more <+: kept

namespace Numeral

/-- The digits and what is between and behind them. -/
def body (x : Numeral) : List Char :=
  x.whole ++ (if x.fraction = [] then [] else '.' :: x.fraction) ++
    x.exponent.elim [] Exponent.chars

def chars (x : Numeral) : List Char := (if x.negative then ['-'] else []) ++ x.body

/-- The number before the point, with the sign. -/
def integer (x : Numeral) : Int :=
  if x.negative then -(positional x.whole : Int) else positional x.whole

/-- The numeral stands for a whole number: it has no other parts, it is not `-0`, and it fits. -/
structure IsWhole (x : Numeral) : Prop where
  plain : x.fraction = [] ∧ x.exponent = none
  signed : x.negative = true → positional x.whole ≠ 0
  fits : FitsWord x.integer

/-- The digits as one number, as far as they fit a word, and the power of ten that goes with it. -/
def Scaled (x : Numeral) (significand : Nat) (power : Int) : Prop :=
  ∃ kept kept', Kept 0 x.whole kept ∧ Kept (positional kept) x.fraction kept' ∧
    significand = positional (kept ++ kept') ∧
    power = x.exponent.elim 0 Exponent.power + (x.whole.length - kept.length) - kept'.length

/-- The number that a numeral stands for, if it stands for one: a whole number if it can, and else
one of double precision. An exponent that is too large to count makes zero of a number that it
makes smaller, or that is zero. -/
inductive Means (x : Numeral) : Number → Prop
  | whole (h : x.IsWhole) : Means x (.whole x.integer h.fits)
  | real {significand : Nat} {power : Int} {y : Binary} (hw : ¬ x.IsWhole)
      (he : ∀ e ∈ x.exponent, e.size < 2147483648) (hs : x.Scaled significand power)
      (hy : Binary.MadeFrom x.negative significand power y) : Means x (.real y)
  | vanishing {e : Exponent} {y : Binary} (he : e ∈ x.exponent) (hl : 2147483648 ≤ e.size)
      (hz : e.small ∨ positional (x.whole ++ x.fraction) = 0)
      (hy : Binary.Rounds .double x.negative 0 y) : Means x (.real y)

end Numeral

/-- A text that does not go on with a digit. -/
def NoDigit (rest : List Char) : Prop := ∀ c ∈ rest.head?, c.isDigit = false

/-- The numeral does not go on in the text after it. -/
structure Numeral.Before (x : Numeral) (rest : List Char) : Prop where
  digit : NoDigit rest
  letter : x.exponent = none → ∀ c ∈ rest.head?, isExponentLetter c = false
  point : x.exponent = none → x.fraction = [] → ∀ c ∈ rest.head?, c ≠ '.'

/-- A text that cannot be taken for more of a number before it. -/
def EndsNumber (rest : List Char) : Prop :=
  ∀ c ∈ rest.head?, c.isDigit = false ∧ c ≠ '.' ∧ isExponentLetter c = false

end Grammar

section Endings

theorem noDigit_nil : NoDigit [] := by simp [NoDigit]

theorem noDigit_cons {c : Char} (h : c.isDigit = false) : NoDigit (c :: rest) := by
  simpa [NoDigit] using h

theorem isExponentLetter_iff {c : Char} : isExponentLetter c = true ↔ c ∈ ['e', 'E'] := by
  simp [isExponentLetter]

theorem noDigit_of_letter {c : Char} (h : isExponentLetter c = true) : NoDigit (c :: rest) := by
  apply noDigit_cons
  simp only [isExponentLetter, Bool.or_eq_true, beq_iff_eq] at h
  rcases h with rfl | rfl <;> rfl

theorem endsNumber_nil : EndsNumber [] := by simp [EndsNumber]

theorem endsNumber_cons {c : Char} (h : c.isDigit = false) (hd : c ≠ '.')
    (he : isExponentLetter c = false) : EndsNumber (c :: rest) := by
  simp [EndsNumber, h, hd, he]

theorem EndsNumber.before (h : EndsNumber rest) (x : Numeral) : x.Before rest where
  digit c hc := (h c hc).1
  letter _ c hc := (h c hc).2.2
  point _ _ c hc := (h c hc).2.1

theorem takeWhile_digits (hds : ∀ c ∈ ds, c.isDigit = true) (h : NoDigit rest) :
    (ds ++ rest).takeWhile Char.isDigit = ds := by
  have hrest : rest.takeWhile Char.isDigit = [] := by
    cases rest with
    | nil => rfl
    | cons c rest => simp [h c rfl]
  rw [List.takeWhile_append_of_pos hds, hrest, List.append_nil]

theorem dropWhile_digits (hds : ∀ c ∈ ds, c.isDigit = true) (h : NoDigit rest) :
    (ds ++ rest).dropWhile Char.isDigit = rest := by
  have hrest : rest.dropWhile Char.isDigit = rest := by
    cases rest with
    | nil => rfl
    | cons c rest => simp [h c rfl]
  rw [List.dropWhile_append_of_pos hds, hrest]

/-- Every text starts with a row of digits, which may be empty, and goes on without a digit. -/
theorem digits_split (cs : List Char) : ∃ ds rest, cs = ds ++ rest ∧
    (∀ c ∈ ds, c.isDigit = true) ∧ NoDigit rest := by
  refine ⟨cs.takeWhile Char.isDigit, cs.dropWhile Char.isDigit, by simp,
    fun c hc => List.mem_takeWhile_imp hc, fun c hc => ?_⟩
  have h := List.head?_dropWhile_not Char.isDigit cs
  rw [Option.mem_def.mp hc] at h
  simpa using h

end Endings

section Values

theorem row_cons (k : Nat) (c : Char) (ds : List Char) :
    k * pow10 (c :: ds).length + positional (c :: ds)
      = (k * 10 + Number.digitValue c) * pow10 ds.length + positional ds := by
  rw [Number.positional_cons, List.length_cons, pow10_succ]
  ring

theorem le_row (k : Nat) (ds : List Char) : k ≤ k * pow10 ds.length + positional ds :=
  Nat.le_add_right_of_le (Nat.le_mul_of_pos_right k (pow10_pos _))

theorem Kept.unique {kept kept' : List Char} (h : Kept k ds kept) (h' : Kept k ds kept') :
    kept = kept' := by
  have hle := (h'.longest kept h.front h.fits).length_le
  exact (h.longest kept' h'.front h'.fits).eq_of_length_le hle |>.symm

/-- The digits are taken in that are to be kept. -/
theorem takeIn_kept (ds : List Char) (hk : k < wordSize) :
    ∃ kept, ds = kept ++ (takeIn k ds).2 ∧ Kept k ds kept ∧
      (takeIn k ds).1 = k * pow10 kept.length + positional kept := by
  induction ds generalizing k with
  | nil =>
    refine ⟨[], rfl, ⟨List.prefix_refl [], by simpa [wordSize] using hk, fun more hm _ => hm⟩, ?_⟩
    simp [takeIn]
  | cons c ds ih =>
    by_cases hfits : k * 10 + Number.digitValue c < wordSize
    · obtain ⟨kept, hds, ⟨hfront, hkept, hlongest⟩, hvalue⟩ := ih hfits
      refine ⟨c :: kept, ?_, ⟨List.cons_prefix_cons.mpr ⟨rfl, hfront⟩, ?_, ?_⟩, ?_⟩
      · rw [takeIn, if_pos hfits, List.cons_append, ← hds]
      · rwa [row_cons]
      · intro more hm hmore
        cases more with
        | nil => exact List.nil_prefix
        | cons d more =>
          obtain ⟨rfl, htail⟩ := List.cons_prefix_cons.mp hm
          rw [row_cons] at hmore
          exact List.cons_prefix_cons.mpr ⟨rfl, hlongest more htail hmore⟩
      · rw [takeIn, if_pos hfits, hvalue, row_cons]
    · refine ⟨[], by simp [takeIn, hfits], ⟨List.nil_prefix, by simpa [wordSize] using hk, ?_⟩, ?_⟩
      · intro more hm hmore
        cases more with
        | nil => exact List.nil_prefix
        | cons d more =>
          obtain ⟨rfl, -⟩ := List.cons_prefix_cons.mp hm
          rw [row_cons] at hmore
          exact absurd (Nat.lt_of_le_of_lt (le_row _ _) hmore) hfits
      · simp [takeIn, hfits]

/-- The digits before and after a point are scaled as the numeral says. -/
theorem Numeral.scaled_iff {x : Numeral} {significand : Nat} {power : Int} :
    x.Scaled significand power ↔
      scaled x.whole x.fraction (x.exponent.elim 0 Exponent.power) = (significand, power) := by
  obtain ⟨kept, hwhole, hkept, hvalue⟩ := takeIn_kept x.whole (show 0 < wordSize by decide)
  rw [Nat.zero_mul, Nat.zero_add] at hvalue
  have hword : (takeIn 0 x.whole).1 < wordSize := by
    rw [hvalue]
    simpa [wordSize] using hkept.fits
  obtain ⟨kept', hfraction, hkept', hvalue'⟩ := takeIn_kept x.fraction hword
  have hlength : x.whole.length = kept.length + (takeIn 0 x.whole).2.length := by
    rw [← List.length_append, ← hwhole]
  have hlength' : x.fraction.length
      = kept'.length + (takeIn (takeIn 0 x.whole).1 x.fraction).2.length := by
    rw [← List.length_append, ← hfraction]
  have hscaled : scaled x.whole x.fraction (x.exponent.elim 0 Exponent.power)
      = (positional (kept ++ kept'), x.exponent.elim 0 Exponent.power
          + (x.whole.length - kept.length) - kept'.length) := by
    simp only [scaled, Prod.mk.injEq]
    refine ⟨?_, by omega⟩
    rw [hvalue', hvalue, Number.positional_append]
  rw [hvalue] at hkept'
  rw [hscaled, Prod.mk.injEq]
  constructor
  · rintro ⟨other, other', hother, hother', rfl, rfl⟩
    obtain rfl := hkept.unique hother
    obtain rfl := hkept'.unique hother'
    exact ⟨rfl, rfl⟩
  · rintro ⟨rfl, rfl⟩
    exact ⟨kept, kept', hkept, hkept', rfl, rfl⟩

/-- A numeral is turned into a number of double precision as it is scaled. -/
theorem real_eq_ok_iff (x : Numeral) :
    real x.negative x.whole x.fraction (x.exponent.elim 0 Exponent.power) cs = .ok (n, rest) ↔
      rest = cs ∧ ∃ significand power y, x.Scaled significand power ∧
        Binary.MadeFrom x.negative significand power y ∧ n = .real y := by
  rcases hs : scaled x.whole x.fraction (x.exponent.elim 0 Exponent.power) with ⟨m, p⟩
  have hscaled {m' : Nat} {p' : Int} : x.Scaled m' p' ↔ m = m' ∧ p = p' := by
    rw [Numeral.scaled_iff, hs, Prod.mk.injEq]
  simp only [real, hs, hscaled, ← Binary.ofScaled_eq_some_iff]
  cases hy : Binary.ofScaled x.negative m p with
  | none => simp [hy]
  | some y =>
    simp only [Except.ok.injEq, Prod.mk.injEq]
    constructor
    · rintro ⟨rfl, rfl⟩
      exact ⟨rfl, m, p, y, ⟨rfl, rfl⟩, hy, rfl⟩
    · rintro ⟨rfl, m', p', y', ⟨rfl, rfl⟩, hy', rfl⟩
      rw [hy, Option.some.injEq] at hy'
      exact ⟨congrArg _ hy', rfl⟩

theorem whole?_eq_some_iff {x : Numeral} (hf : x.fraction = []) (he : x.exponent = none) :
    whole? x.negative (Number.ofDigits x.whole) = some n ↔
      ∃ h : x.IsWhole, n = .whole x.integer h.fits := by
  rw [Number.ofDigits_eq_positional, whole?]
  by_cases hz : x.negative = true ∧ positional x.whole = 0
  · have hw : ¬ x.IsWhole := fun hw => hw.signed hz.1 hz.2
    simp [hz, hw]
  · have hint : (if x.negative = true then -(positional x.whole : Int) else positional x.whole)
        = x.integer := rfl
    rw [if_neg hz, hint, Number.ofInt?]
    by_cases hfits : FitsWord x.integer
    · have hw : x.IsWhole := ⟨⟨hf, he⟩, fun hn h0 => hz ⟨hn, h0⟩, hfits⟩
      simp [hfits, hw, eq_comm]
    · have hw : ¬ x.IsWhole := fun hw => hfits hw.fits
      simp [hfits, hw]

/-- A numeral without point and exponent is a whole number, or it is taken for a real one. -/
theorem wholeNumber_eq_ok_iff {x : Numeral} (hf : x.fraction = []) (he : x.exponent = none) :
    wholeNumber x.negative x.whole cs = .ok (n, rest) ↔ rest = cs ∧ x.Means n := by
  have hreal := @real_eq_ok_iff cs rest n x
  rw [hf, he, Option.elim_none] at hreal
  unfold wholeNumber
  cases hw : whole? x.negative (Number.ofDigits x.whole) with
  | some m =>
    obtain ⟨hwhole, rfl⟩ := (whole?_eq_some_iff hf he).mp hw
    simp only [Except.ok.injEq, Prod.mk.injEq]
    constructor
    · rintro ⟨rfl, rfl⟩
      exact ⟨rfl, .whole hwhole⟩
    · rintro ⟨rfl, h⟩
      cases h with
      | whole => exact ⟨rfl, rfl⟩
      | real hw => exact absurd hwhole hw
      | vanishing hexp => simp [he] at hexp
  | none =>
    have hnot : ¬ x.IsWhole := by
      intro hwhole
      have hsome := (whole?_eq_some_iff hf he).mpr ⟨hwhole, rfl⟩
      simp [hw] at hsome
    simp only [hreal]
    refine and_congr_right fun _ => ?_
    constructor
    · rintro ⟨m, p, y, hs, hy, rfl⟩
      exact .real hnot (by simp [he]) hs hy
    · intro h
      cases h with
      | whole hwhole => exact absurd hwhole hnot
      | real _ _ hs hy => exact ⟨_, _, _, hs, hy, rfl⟩
      | vanishing hexp => simp [he] at hexp

end Values

section Exponents

/-- Exponent digits are counted up to the end of their row, or up to one that is too much. -/
theorem exponentDigits_row (hk : k ≤ maxExponent) (hds : ∀ c ∈ ds, c.isDigit = true)
    (hrest : NoDigit rest) :
    k * pow10 ds.length + positional ds ≤ maxExponent ∧
      exponentDigits k (ds ++ rest) = (k * pow10 ds.length + positional ds, rest) ∨
    maxExponent < k * pow10 ds.length + positional ds ∧
      ∃ size left, maxExponent < size ∧ (∀ c ∈ left, c.isDigit = true) ∧
        exponentDigits k (ds ++ rest) = (size, left ++ rest) := by
  induction ds generalizing k with
  | nil =>
    refine Or.inl ⟨by simpa using hk, ?_⟩
    cases rest with
    | nil => simp [exponentDigits]
    | cons c rest => simp [exponentDigits, hrest c rfl]
  | cons c ds ih =>
    have hc : c.isDigit = true := hds c List.mem_cons_self
    have htail : ∀ d ∈ ds, d.isDigit = true := fun d hd => hds d (List.mem_cons_of_mem c hd)
    rw [row_cons, List.cons_append, exponentDigits, if_pos hc]
    by_cases hlarge : maxExponent < k * 10 + Number.digitValue c
    · rw [if_pos hlarge]
      exact Or.inr ⟨Nat.lt_of_lt_of_le hlarge (le_row _ _), _, ds, hlarge, htail, rfl⟩
    · rw [if_neg hlarge]
      exact ih (Nat.not_lt.mp hlarge) htail

/-- What is read as an exponent starts with a sign or none, and digits. -/
theorem exponentPart_split {p : Bool × Nat} (h : exponentPart cs = .ok (p, rest)) :
    ∃ sign ds after, sign ∈ [[], ['+'], ['-']] ∧ ds ≠ [] ∧ (∀ c ∈ ds, c.isDigit = true) ∧
      NoDigit after ∧ cs = sign ++ ds ++ after := by
  have hsign : ∃ sign ∈ [[], ['+'], ['-']], cs = sign ++ (exponentSign cs).2 := by
    unfold exponentSign
    split
    · exact ⟨['+'], by simp, rfl⟩
    · exact ⟨['-'], by simp, rfl⟩
    · exact ⟨[], by simp, rfl⟩
  obtain ⟨sign, hmem, hcs⟩ := hsign
  rcases hs : exponentSign cs with ⟨small, text⟩
  simp only [exponentPart, hs] at h
  obtain ⟨ds, after, rfl, hds, hafter⟩ := digits_split text
  refine ⟨sign, ds, after, hmem, ?_, hds, hafter, by simpa [hs] using hcs⟩
  rintro rfl
  cases after with
  | nil => simp at h
  | cons c after => simp [hafter c rfl] at h

theorem exponentSign_digits (e : Exponent) (rest : List Char) :
    exponentSign (e.sign ++ e.digits ++ rest) = (decide e.small, e.digits ++ rest) := by
  have hsign := e.sign_mem
  simp only [List.mem_cons, List.not_mem_nil, or_false] at hsign
  obtain ⟨d, ds, hd⟩ := List.exists_cons_of_ne_nil e.digits_ne
  have hdigit : d.isDigit = true := e.digits_all d (hd ▸ List.mem_cons_self)
  rcases hsign with h | h | h
  · have hplus : d ≠ '+' := by
      rintro rfl
      simp at hdigit
    have hminus : d ≠ '-' := by
      rintro rfl
      simp at hdigit
    simp [h, hd, exponentSign, Exponent.small, hplus, hminus]
  · simp [h, exponentSign, Exponent.small]
  · simp [h, exponentSign, Exponent.small]

theorem exponentPart_digits (e : Exponent) (rest : List Char) :
    exponentPart (e.sign ++ e.digits ++ rest)
      = .ok ((decide e.small, (exponentDigits 0 (e.digits ++ rest)).1),
          (exponentDigits 0 (e.digits ++ rest)).2) := by
  obtain ⟨d, ds, hd⟩ := List.exists_cons_of_ne_nil e.digits_ne
  have hdigit : d.isDigit = true := e.digits_all d (hd ▸ List.mem_cons_self)
  unfold exponentPart
  rw [exponentSign_digits, hd]
  simp [hdigit]

/-- With an exponent behind it a numeral is read as what it stands for. -/
theorem withExponent_eq_ok_iff {x : Numeral} {e : Exponent} (he : x.exponent = some e)
    (hrest : NoDigit rest) :
    withExponent x.negative x.whole x.fraction (e.sign ++ e.digits ++ rest) = .ok (n, tail) ↔
      tail = rest ∧ x.Means n := by
  have hnot : ¬ x.IsWhole := fun hw => by simpa [he] using hw.plain.2
  have hreal := @real_eq_ok_iff rest tail n x
  rw [he, Option.elim_some] at hreal
  unfold withExponent
  rw [exponentPart_digits]
  simp only [bind, Except.bind]
  have hrow := exponentDigits_row (k := 0) (Nat.zero_le _) e.digits_all hrest
  rw [Nat.zero_mul, Nat.zero_add] at hrow
  rcases hrow with ⟨hle, hdigits⟩ | ⟨hlt, size, left, hsize, hleft, hdigits⟩
  · have hpower : (if decide e.small = true then -(positional e.digits : Int)
        else positional e.digits) = e.power := by simp [Exponent.power, Exponent.size]
    have hcount : e.size < 2147483648 := Nat.lt_succ_of_le hle
    rw [hdigits]
    simp only [if_neg (Nat.not_lt.mpr hle), hpower, hreal]
    refine and_congr_right fun _ => ?_
    constructor
    · rintro ⟨m, p, y, hs, hy, rfl⟩
      exact .real hnot (by simpa [he] using hcount) hs hy
    · intro h
      cases h with
      | whole hwhole => exact absurd hwhole hnot
      | real _ _ hs hy => exact ⟨_, _, _, hs, hy, rfl⟩
      | vanishing hmem hlarge =>
        obtain rfl : e = _ := by simpa [he] using hmem
        exact absurd hcount (Nat.not_lt.mpr hlarge)
  · have hlarge : 2147483648 ≤ e.size := hlt
    have hzero : (decide e.small = true ∨ Number.ofDigits (x.whole ++ x.fraction) = 0) ↔
        (e.small ∨ positional (x.whole ++ x.fraction) = 0) := by
      rw [decide_eq_true_eq, Number.ofDigits_eq_positional]
    rw [hdigits]
    simp only [if_pos hsize, hzero, dropWhile_digits hleft hrest]
    by_cases hz : e.small ∨ positional (x.whole ++ x.fraction) = 0
    · simp only [if_pos hz, Except.ok.injEq, Prod.mk.injEq]
      constructor
      · rintro ⟨rfl, rfl⟩
        exact ⟨rfl, .vanishing he hlarge hz (Binary.rounds_zero_iff.mpr rfl)⟩
      · rintro ⟨rfl, h⟩
        cases h with
        | whole hwhole => exact absurd hwhole hnot
        | real _ hcount => exact absurd (hcount e he) (Nat.not_lt.mpr hlarge)
        | vanishing _ _ _ hy => exact ⟨by rw [Binary.rounds_zero_iff.mp hy], rfl⟩
    · simp only [if_neg hz]
      constructor
      · nofun
      · rintro ⟨-, h⟩
        cases h with
        | whole hwhole => exact absurd hwhole hnot
        | real _ hcount => exact absurd (hcount e he) (Nat.not_lt.mpr hlarge)
        | vanishing hmem _ hzero' =>
          obtain rfl : e = _ := by simpa [he] using hmem
          exact absurd hzero' hz

end Exponents

section Numbers

/-- Digits before a point: a zero alone, or digits of which the first is no zero. -/
structure Front (front : List Char) : Prop where
  ne : front ≠ []
  all : ∀ c ∈ front, c.isDigit = true
  zero : front.head? = some '0' → front = ['0']

theorem wholeDigits_eq_ok_iff : wholeDigits cs = .ok (front, rest) ↔
    Front front ∧ NoDigit rest ∧ cs = front ++ rest := by
  cases cs with
  | nil =>
    simp only [wholeDigits, reduceCtorEq, false_iff]
    rintro ⟨hfront, -, h⟩
    exact hfront.ne (List.append_eq_nil_iff.mp h.symm).1
  | cons c cs =>
    unfold wholeDigits
    by_cases hzero : c = '0'
    · subst hzero
      have hone : Front ['0'] := ⟨by simp, by simp, by simp⟩
      have hfront {rest : List Char} (h : Front front ∧ NoDigit rest ∧ '0' :: cs = front ++ rest) :
          front = ['0'] ∧ rest = cs := by
        obtain ⟨hfront, -, hcs⟩ := h
        obtain ⟨d, ds, rfl⟩ := List.exists_cons_of_ne_nil hfront.ne
        obtain ⟨rfl, htail⟩ := List.cons.inj hcs
        obtain ⟨-, rfl⟩ := List.cons.inj (hfront.zero rfl)
        exact ⟨rfl, htail.symm⟩
      cases cs with
      | nil =>
        simp only [if_true, Except.ok.injEq, Prod.mk.injEq]
        constructor
        · rintro ⟨rfl, rfl⟩
          exact ⟨hone, noDigit_nil, rfl⟩
        · intro h
          obtain ⟨rfl, rfl⟩ := hfront h
          exact ⟨rfl, rfl⟩
      | cons d ds =>
        cases hd : d.isDigit with
        | true =>
          simp only [if_true, hd, reduceCtorEq, false_iff]
          intro h
          obtain ⟨rfl, rfl⟩ := hfront h
          simp [h.2.1 d rfl] at hd
        | false =>
          simp only [if_true, hd, Bool.false_eq_true, if_false, Except.ok.injEq, Prod.mk.injEq]
          constructor
          · rintro ⟨rfl, rfl⟩
            exact ⟨hone, noDigit_cons hd, rfl⟩
          · intro h
            obtain ⟨rfl, rfl⟩ := hfront h
            exact ⟨rfl, rfl⟩
    · cases hc : c.isDigit with
      | false =>
        simp only [if_neg hzero, hc, Bool.false_eq_true, if_false, reduceCtorEq, false_iff]
        rintro ⟨hfront, -, hcs⟩
        obtain ⟨d, ds, rfl⟩ := List.exists_cons_of_ne_nil hfront.ne
        obtain ⟨rfl, -⟩ := List.cons.inj hcs
        simp [hfront.all c List.mem_cons_self] at hc
      | true =>
        obtain ⟨ds, after, rfl, hds, hafter⟩ := digits_split cs
        simp only [if_neg hzero, hc, if_true, takeWhile_digits hds hafter,
          dropWhile_digits hds hafter, Except.ok.injEq, Prod.mk.injEq]
        constructor
        · rintro ⟨rfl, rfl⟩
          exact ⟨⟨by simp, List.forall_mem_cons.mpr ⟨hc, hds⟩, by simp [hzero]⟩, hafter, rfl⟩
        · rintro ⟨hfront, hrest, hcs⟩
          rw [← List.cons_append] at hcs
          have hall : ∀ d ∈ c :: ds, d.isDigit = true := List.forall_mem_cons.mpr ⟨hc, hds⟩
          refine ⟨?_, ?_⟩
          · rw [← takeWhile_digits hall hafter, hcs, takeWhile_digits hfront.all hrest]
          · rw [← dropWhile_digits hall hafter, hcs, dropWhile_digits hfront.all hrest]

/-- The digits after a point that is there. -/
theorem fractionDigits_eq_ok_iff : fractionDigits ('.' :: cs) = .ok (back, rest) ↔
    back ≠ [] ∧ (∀ c ∈ back, c.isDigit = true) ∧ NoDigit rest ∧ cs = back ++ rest := by
  obtain ⟨ds, after, rfl, hds, hafter⟩ := digits_split cs
  have hsame {back rest : List Char} (hback : ∀ c ∈ back, c.isDigit = true) (hrest : NoDigit rest)
      (h : ds ++ after = back ++ rest) : back = ds ∧ rest = after := by
    refine ⟨?_, ?_⟩
    · rw [← takeWhile_digits hback hrest, ← h, takeWhile_digits hds hafter]
    · rw [← dropWhile_digits hback hrest, ← h, dropWhile_digits hds hafter]
  simp only [fractionDigits, takeWhile_digits hds hafter, dropWhile_digits hds hafter]
  cases ds with
  | nil =>
    have hnone : ¬ (back ≠ [] ∧ (∀ c ∈ back, c.isDigit = true) ∧ NoDigit rest ∧
        [] ++ after = back ++ rest) := by
      rintro ⟨hne, hback, hrest, h⟩
      exact hne (hsame hback hrest h).1
    cases after <;> simpa using hnone
  | cons d ds =>
    simp only [List.cons_append, List.isEmpty_cons, Bool.false_eq_true, if_false, Except.ok.injEq,
      Prod.mk.injEq]
    constructor
    · rintro ⟨rfl, rfl⟩
      exact ⟨by simp, hds, hafter, rfl⟩
    · rintro ⟨-, hback, hrest, h⟩
      obtain ⟨rfl, rfl⟩ := hsame hback hrest h
      exact ⟨rfl, rfl⟩

theorem fractionEnd_eq_ok_iff {x : Numeral} (hf : x.fraction ≠ []) (h : x.Before rest) :
    fractionEnd x.negative x.whole x.fraction (x.exponent.elim [] Exponent.chars ++ rest)
        = .ok (n, tail) ↔ tail = rest ∧ x.Means n := by
  have hnot : ¬ x.IsWhole := fun hw => hf hw.plain.1
  cases he : x.exponent with
  | some e =>
    have hletter : isExponentLetter e.letter = true := isExponentLetter_iff.mpr e.letter_mem
    rw [← withExponent_eq_ok_iff he h.digit]
    simp [Exponent.chars, fractionEnd, hletter]
  | none =>
    have hreal := @real_eq_ok_iff rest tail n x
    rw [he, Option.elim_none] at hreal
    have hend : fractionEnd x.negative x.whole x.fraction rest
        = real x.negative x.whole x.fraction 0 rest := by
      cases rest with
      | nil => rfl
      | cons c rest => simp [fractionEnd, h.letter he c rfl]
    rw [Option.elim_none, List.nil_append, hend, hreal]
    refine and_congr_right fun _ => ?_
    constructor
    · rintro ⟨m, p, y, hs, hy, rfl⟩
      exact .real hnot (by simp [he]) hs hy
    · intro hm
      cases hm with
      | whole hwhole => exact absurd hwhole hnot
      | real _ _ hs hy => exact ⟨_, _, _, hs, hy, rfl⟩
      | vanishing hmem => simp [he] at hmem

/-- A numeral is read as what it stands for, if the text does not go on with more of it. -/
theorem unsignedNumber_body {x : Numeral} (h : x.Before rest) :
    unsignedNumber x.negative (x.body ++ rest) = .ok (n, tail) ↔ tail = rest ∧ x.Means n := by
  have hwhole {after : List Char} (hafter : NoDigit after) :
      wholeDigits (x.whole ++ after) = .ok (x.whole, after) :=
    wholeDigits_eq_ok_iff.mpr ⟨⟨x.whole_ne, x.whole_all, x.whole_zero⟩, hafter, rfl⟩
  by_cases hf : x.fraction = []
  · cases he : x.exponent with
    | some e =>
      have hletter : isExponentLetter e.letter = true := isExponentLetter_iff.mpr e.letter_mem
      have hbody : x.body ++ rest
          = x.whole ++ e.letter :: (e.sign ++ e.digits ++ rest) := by
        simp [Numeral.body, hf, he, Exponent.chars]
      rw [hbody, ← withExponent_eq_ok_iff he h.digit, hf]
      simp only [unsignedNumber, hwhole (noDigit_of_letter hletter), bind, Except.bind,
        if_pos hletter]
    | none =>
      have hbody : x.body ++ rest = x.whole ++ rest := by simp [Numeral.body, hf, he]
      rw [hbody, ← wholeNumber_eq_ok_iff hf he]
      simp only [unsignedNumber, hwhole h.digit, bind, Except.bind]
      cases rest with
      | nil => rfl
      | cons c rest =>
        simp only [h.letter he c rfl, Bool.false_eq_true, if_false, if_neg (h.point he hf c rfl)]
  · have hpoint {after : List Char} : NoDigit ('.' :: after) := noDigit_cons rfl
    have hbody : x.body ++ rest
        = x.whole ++ '.' :: (x.fraction ++ (x.exponent.elim [] Exponent.chars ++ rest)) := by
      simp [Numeral.body, hf]
    have hafter : NoDigit (x.exponent.elim [] Exponent.chars ++ rest) := by
      cases he : x.exponent with
      | none => exact h.digit
      | some e => exact noDigit_of_letter (isExponentLetter_iff.mpr e.letter_mem)
    have hfraction : fractionDigits
        ('.' :: (x.fraction ++ (x.exponent.elim [] Exponent.chars ++ rest)))
          = .ok (x.fraction, x.exponent.elim [] Exponent.chars ++ rest) :=
      fractionDigits_eq_ok_iff.mpr ⟨hf, x.fraction_all, hafter, rfl⟩
    rw [hbody, ← fractionEnd_eq_ok_iff hf h]
    simp only [unsignedNumber, hwhole hpoint, bind, Except.bind, if_true, hfraction,
      show isExponentLetter '.' = false from rfl, Bool.false_eq_true, if_false]

/-- What is read as a number without a sign has a numeral in front. -/
theorem exists_body (h : unsignedNumber negative cs = .ok (n, rest)) :
    ∃ x : Numeral, x.negative = negative ∧ ∃ after, cs = x.body ++ after ∧ x.Before after := by
  obtain ⟨⟨front, behind⟩, hwhole, hvalue⟩ := bind_ok h
  obtain ⟨hfront, hbehind, rfl⟩ := wholeDigits_eq_ok_iff.mp hwhole
  -- the numeral ends with the digits, or an exponent follows
  have hplain (back : List Char) (hback : ∀ c ∈ back, c.isDigit = true) : ∃ x : Numeral,
      x.negative = negative ∧ x.whole = front ∧ x.fraction = back ∧ x.exponent = none :=
    ⟨⟨negative, front, back, none, hfront.ne, hfront.all, hfront.zero, hback⟩, rfl, rfl, rfl, rfl⟩
  have hpower {back more : List Char} {c : Char} (hback : ∀ c ∈ back, c.isDigit = true)
      (hletter : isExponentLetter c = true)
      (h : withExponent negative front back more = .ok (n, rest)) : ∃ x : Numeral,
        x.negative = negative ∧ x.whole = front ∧ x.fraction = back ∧
          ∃ after, c :: more = x.exponent.elim [] Exponent.chars ++ after ∧ x.Before after := by
    obtain ⟨p, hpart, -⟩ := bind_ok h
    obtain ⟨sign, ds, after, hsign, hne, hds, hafter, rfl⟩ := exponentPart_split hpart
    refine ⟨⟨negative, front, back, some ⟨c, sign, ds, isExponentLetter_iff.mp hletter, hsign, hne,
      hds⟩, hfront.ne, hfront.all, hfront.zero, hback⟩, rfl, rfl, rfl, after, ?_, ?_⟩
    · simp [Exponent.chars]
    · exact ⟨hafter, by simp, by simp⟩
  cases behind with
  | nil =>
    obtain ⟨x, hn, hw, hf, he⟩ := hplain [] nofun
    exact ⟨x, hn, [], by simp [Numeral.body, hw, hf, he], ⟨noDigit_nil, by simp, by simp⟩⟩
  | cons c more =>
    simp only at hvalue
    by_cases hletter : isExponentLetter c = true
    · rw [if_pos hletter] at hvalue
      obtain ⟨x, hn, hw, hf, after, hafter, hbefore⟩ := hpower (by simp) hletter hvalue
      exact ⟨x, hn, after, by simp [Numeral.body, hw, hf, hafter], hbefore⟩
    · rw [if_neg hletter] at hvalue
      by_cases hpoint : c = '.'
      · subst hpoint
        rw [if_pos rfl] at hvalue
        obtain ⟨⟨back, behind⟩, hfraction, hend⟩ := bind_ok hvalue
        obtain ⟨hne, hback, hrest, rfl⟩ := fractionDigits_eq_ok_iff.mp hfraction
        obtain ⟨x, hn, hw, hf, he⟩ := hplain back hback
        have hbody : front ++ '.' :: (back ++ behind) = x.body ++ behind := by
          simp [Numeral.body, hw, hf, he, hne]
        have hne' : x.fraction ≠ [] := hf ▸ hne
        cases behind with
        | nil => exact ⟨x, hn, [], hbody, ⟨noDigit_nil, by simp, by simp⟩⟩
        | cons d behind =>
          by_cases hd : isExponentLetter d = true
          · simp only [fractionEnd, if_pos hd] at hend
            obtain ⟨y, hn, hw, hf, after, hafter, hbefore⟩ := hpower hback hd hend
            exact ⟨y, hn, after, by simp [Numeral.body, hw, hf, hne, hafter], hbefore⟩
          · refine ⟨x, hn, d :: behind, hbody, ⟨hrest, fun _ => ?_, fun _ h => absurd h hne'⟩⟩
            rintro _ ⟨⟩
            simpa using hd
      · obtain ⟨x, hn, hw, hf, he⟩ := hplain [] nofun
        refine ⟨x, hn, c :: more, by simp [Numeral.body, hw, hf, he], ⟨hbehind, fun _ => ?_, ?_⟩⟩
        · rintro _ ⟨⟩
          simpa using hletter
        · rintro - - _ ⟨⟩
          exact hpoint

/-- The first character of a numeral without its sign is a digit. -/
theorem Numeral.head_body (x : Numeral) : ∃ c cs, x.body = c :: cs ∧ c.isDigit = true := by
  obtain ⟨c, cs, hc⟩ := List.exists_cons_of_ne_nil x.whole_ne
  refine ⟨c, cs ++ (if x.fraction = [] then [] else '.' :: x.fraction) ++
    x.exponent.elim [] Exponent.chars, ?_, x.whole_all c (hc ▸ List.mem_cons_self)⟩
  rw [body, hc, List.cons_append, List.cons_append]

theorem Numeral.head_chars (x : Numeral) :
    ∃ c cs, x.chars = c :: cs ∧ (c = '-' ∨ c.isDigit = true) := by
  obtain ⟨c, cs, hbody, hc⟩ := x.head_body
  cases hn : x.negative with
  | true => exact ⟨'-', x.body, by simp [chars, hn], Or.inl rfl⟩
  | false => exact ⟨c, cs, by simp [chars, hn, hbody], Or.inr hc⟩

theorem scanNumber_unsigned {c : Char} (h : c ≠ '-') :
    scanNumber (c :: cs) = unsignedNumber false (c :: cs) := by
  simp [scanNumber, h]

theorem scanNumber_chars (x : Numeral) (rest : List Char) :
    scanNumber (x.chars ++ rest) = unsignedNumber x.negative (x.body ++ rest) := by
  cases hn : x.negative with
  | true => simp [Numeral.chars, hn, scanNumber]
  | false =>
    obtain ⟨c, cs, hbody, hc⟩ := x.head_body
    have hne : c ≠ '-' := by
      rintro rfl
      simp at hc
    simp [Numeral.chars, hn, hbody, scanNumber_unsigned hne]

/-- What is read as a number is the numeral that stands there, as far as it goes, and the number
that it stands for. -/
theorem scanNumber_eq_ok_iff : scanNumber cs = .ok (n, rest) ↔
    ∃ x : Numeral, cs = x.chars ++ rest ∧ x.Before rest ∧ x.Means n := by
  constructor
  · intro h
    have hfront : ∃ x : Numeral, ∃ after, cs = x.chars ++ after ∧ x.Before after := by
      by_cases hc : ∃ tail, cs = '-' :: tail
      · obtain ⟨tail, rfl⟩ := hc
        have hunsigned : unsignedNumber true tail = .ok (n, rest) := h
        obtain ⟨x, hn, after, rfl, hbefore⟩ := exists_body hunsigned
        exact ⟨x, after, by simp [Numeral.chars, hn], hbefore⟩
      · have hunsigned : unsignedNumber false cs = .ok (n, rest) := by
          rw [← h]
          cases cs with
          | nil => rfl
          | cons c cs => exact (scanNumber_unsigned fun hminus => hc ⟨cs, hminus ▸ rfl⟩).symm
        obtain ⟨x, hn, after, hcs, hbefore⟩ := exists_body hunsigned
        exact ⟨x, after, by simp [Numeral.chars, hn, hcs], hbefore⟩
    obtain ⟨x, after, rfl, hbefore⟩ := hfront
    rw [scanNumber_chars, unsignedNumber_body hbefore] at h
    obtain ⟨rfl, hmeans⟩ := h
    exact ⟨x, rfl, hbefore, hmeans⟩
  · rintro ⟨x, rfl, hbefore, hmeans⟩
    rw [scanNumber_chars, unsignedNumber_body hbefore]
    exact ⟨rfl, hmeans⟩

/-- The numeral of a whole number. -/
theorem exists_means_whole (m : Int) (fits : FitsWord m) : ∃ x : Numeral,
    x.chars = (Number.whole m fits).chars ∧ x.Means (.whole m fits) := by
  have hzero : (Number.digits m.natAbs).head? = some '0' → Number.digits m.natAbs = ['0'] := by
    intro hhead
    by_cases hm : m.natAbs = 0
    · rw [hm, Number.digits_zero]
    · obtain ⟨d, ds, hd, hne⟩ := Number.digits_head hm
      simp [hd, hne] at hhead
  let x : Numeral := ⟨decide (m < 0), Number.digits m.natAbs, [], none,
    Nat.toDigits_ne_nil, fun _ => Number.isDigit_of_mem_digits, hzero, nofun⟩
  have hvalue : positional x.whole = m.natAbs := by
    rw [← Number.ofDigits_eq_positional, Number.ofDigits_digits]
  have hint : x.integer = m := by
    rw [Numeral.integer, hvalue]
    by_cases hm : m < 0
    · simp only [x, hm, decide_true, if_true]
      omega
    · simp only [x, hm, decide_false, Bool.false_eq_true, if_false]
      omega
  have hwhole : x.IsWhole := by
    refine ⟨⟨rfl, rfl⟩, fun hneg => ?_, hint ▸ fits⟩
    have hm : m < 0 := of_decide_eq_true hneg
    rw [hvalue]
    omega
  have hnumber : Number.whole x.integer hwhole.fits = .whole m fits := by simp only [hint]
  refine ⟨x, ?_, hnumber ▸ .whole hwhole⟩
  by_cases hm : m < 0 <;> simp [x, Numeral.chars, Numeral.body, Number.chars, Number.intChars, hm]

end Numbers

end Json

/-- The number is what its text says. -/
def Number.Legible (n : Number) : Prop := Json.scanNumber n.chars = .ok (n, [])

theorem Number.legible_of_means {x : Json.Numeral} {n : Number} (hchars : x.chars = n.chars)
    (h : x.Means n) : n.Legible :=
  Json.scanNumber_eq_ok_iff.mpr
    ⟨x, by rw [hchars, List.append_nil], Json.endsNumber_nil.before x, h⟩

/-- A whole number is read back from its digits. -/
theorem Number.legible_whole (m : Int) (fits : FitsWord m) : (whole m fits).Legible := by
  obtain ⟨x, hchars, hmeans⟩ := Json.exists_means_whole m fits
  exact legible_of_means hchars hmeans

theorem Number.Legible.scan {n : Number} {rest : List Char} (h : n.Legible)
    (hrest : Json.EndsNumber rest) : Json.scanNumber (n.chars ++ rest) = .ok (n, rest) := by
  obtain ⟨x, hchars, -, hmeans⟩ := Json.scanNumber_eq_ok_iff.mp h
  rw [List.append_nil] at hchars
  exact Json.scanNumber_eq_ok_iff.mpr ⟨x, by rw [hchars], hrest.before x, hmeans⟩

end DocClient
