import DocClient.Number.Digits
import DocClient.Number.Power
import Mathlib.Data.List.Induction
import Mathlib.Data.Nat.Digits.Defs

/-!
Rows of digits and the numbers that they stand for. The value of a row is given by the place of
each digit; reading the row from the front comes to the same.
-/
namespace DocClient.Number

variable {c : Char} {cs ds : List Char} {n d : Nat}

/-- The number that a row of digits stands for: the last digit counts ones, the one before it tens,
and so on. -/
def positional (cs : List Char) : Nat :=
  Nat.ofDigits 10 (cs.reverse.map fun c => c.toNat - '0'.toNat)

@[simp] theorem positional_nil : positional [] = 0 := rfl

theorem positional_concat (cs : List Char) (c : Char) :
    positional (cs ++ [c]) = positional cs * 10 + digitValue c := by
  simp [positional, Nat.ofDigits_cons, digitValue, Nat.mul_comm, Nat.add_comm]

theorem positional_append (cs ds : List Char) :
    positional (cs ++ ds) = positional cs * pow10 ds.length + positional ds := by
  induction ds using List.reverseRecOn with
  | nil => simp [positional_nil]
  | append_singleton ds c ih =>
    rw [← List.append_assoc, positional_concat, positional_concat, ih, List.length_append,
      List.length_singleton, pow10_succ]
    ring

theorem positional_cons (c : Char) (cs : List Char) :
    positional (c :: cs) = digitValue c * pow10 cs.length + positional cs := by
  have hone : positional [c] = digitValue c := by simp [positional, digitValue]
  rw [← List.singleton_append, positional_append, hone]

/-- A row of digits is read from the front as what its places say. -/
theorem ofDigits_eq_positional (cs : List Char) : ofDigits cs = positional cs := by
  induction cs using List.reverseRecOn with
  | nil => rfl
  | append_singleton cs c ih =>
    rw [ofDigits_append, List.foldl_cons, List.foldl_nil, ih, positional_concat]

theorem isDigit_of_mem_digits (h : c ∈ digits n) : c.isDigit = true :=
  Nat.isDigit_of_mem_toDigits (by decide) (by decide) h

theorem ofDigits_digits (n : Nat) : ofDigits (digits n) = n := by
  have h := Nat.ofDigitChars_ten_toDigits (n := n)
  rw [Nat.ofDigitChars_eq_foldl] at h
  simp only [Nat.mul_comm 10] at h
  exact h

theorem digits_zero : digits 0 = ['0'] := Nat.toDigits_zero 10

/-- Only zero is written with a zero in front. -/
theorem digits_head (hn : n ≠ 0) : ∃ d ds, digits n = d :: ds ∧ d ≠ '0' := by
  induction n using Nat.strongRecOn with
  | _ n ih =>
    by_cases hlt : n < 10
    · have hall : ∀ n < 10, n ≠ 0 → Nat.digitChar n ≠ '0' := by decide
      exact ⟨_, _, Nat.toDigits_of_lt_base hlt, hall n hlt hn⟩
    · obtain ⟨d, ds, hd, hne⟩ := ih (n / 10) (by omega) (by omega)
      refine ⟨d, ds ++ [Nat.digitChar (n % 10)], ?_, hne⟩
      rw [digits, Nat.toDigits_of_base_le (by decide) (by omega)]
      rw [digits] at hd
      rw [hd, List.cons_append]

theorem ofDigits_concat (cs : List Char) (c : Char) :
    ofDigits (cs ++ [c]) = ofDigits cs * 10 + digitValue c := by
  rw [ofDigits_append, List.foldl_cons, List.foldl_nil]

theorem digitValue_lt (h : c.isDigit = true) : digitValue c < 10 := by
  simp only [Char.isDigit, Bool.and_eq_true, decide_eq_true_eq, UInt32.le_iff_toNat_le] at h
  have hc : c.toNat = c.val.toNat := rfl
  have hnine : '9'.val.toNat = 57 := rfl
  rw [digitValue]
  omega

theorem digitChar_digitValue (h : c.isDigit = true) : Nat.digitChar (digitValue c) = c := by
  have hall : ∀ n < 10, Nat.digitChar n = Char.ofNat (48 + n) := by decide
  have hlow : 48 ≤ c.toNat := by
    simp only [Char.isDigit, Bool.and_eq_true, decide_eq_true_eq, UInt32.le_iff_toNat_le] at h
    exact h.1
  rw [hall _ (digitValue_lt h), digitValue, Nat.add_sub_cancel' hlow, Char.ofNat_toNat]

theorem digits_concat (hn : n ≠ 0) (hd : d < 10) :
    digits (n * 10 + d) = digits n ++ [Nat.digitChar d] := by
  rw [Nat.mul_comm, digits, digits, ← Nat.toDigits_of_lt_base hd]
  exact (Nat.toDigits_append_toDigits (by decide) (Nat.pos_of_ne_zero hn) hd).symm

theorem ofDigits_zeros (zeros : Nat) (cs : List Char) :
    ofDigits (List.replicate zeros '0' ++ cs) = ofDigits cs := by
  induction zeros with
  | zero => rfl
  | succ zeros ih => exact ih

/-- A row of digits is the numeral of its value behind some zeros. -/
theorem exists_zeros (hne : cs ≠ []) (h : ∀ c ∈ cs, c.isDigit = true) :
    ∃ zeros, cs = List.replicate zeros '0' ++ digits (ofDigits cs) := by
  induction cs using List.reverseRecOn with
  | nil => exact absurd rfl hne
  | append_singleton cs c ih =>
    have hc : c.isDigit = true := h c (by simp)
    have hone : digits (digitValue c) = [c] := by
      rw [digits, Nat.toDigits_of_lt_base (digitValue_lt hc), digitChar_digitValue hc]
    rw [ofDigits_concat]
    by_cases hcs : cs = []
    · subst hcs
      refine ⟨0, ?_⟩
      simpa [ofDigits] using hone.symm
    obtain ⟨zeros, hzeros⟩ := ih hcs fun c' hc' => h c' (by simp [hc'])
    by_cases hvalue : ofDigits cs = 0
    · refine ⟨zeros + 1, ?_⟩
      rw [hvalue, digits_zero, ← List.replicate_succ'] at hzeros
      rw [hvalue, Nat.zero_mul, Nat.zero_add, hone, ← hzeros]
    · refine ⟨zeros, ?_⟩
      rw [digits_concat hvalue (digitValue_lt hc), digitChar_digitValue hc, ← List.append_assoc,
        ← hzeros]

theorem isDigit_of_mem_zeros {zeros : Nat} (h : c ∈ List.replicate zeros '0' ++ digits n) :
    c.isDigit = true := by
  rcases List.mem_append.mp h with hc | hc
  · obtain rfl := List.eq_of_mem_replicate hc
    decide
  · exact isDigit_of_mem_digits hc

theorem ofDigits?_iff_zeros :
    ofDigits? cs = some n ↔ ∃ zeros, cs = List.replicate zeros '0' ++ digits n := by
  rw [ofDigits?_eq_some_iff]
  constructor
  · rintro ⟨hne, hall, rfl⟩
    exact exists_zeros hne hall
  · rintro ⟨zeros, rfl⟩
    refine ⟨?_, ?_, ?_⟩
    · simp [digits, Nat.toDigits_ne_nil]
    · intro c hc
      exact isDigit_of_mem_zeros hc
    · rw [ofDigits_zeros, ofDigits_digits]

end DocClient.Number
