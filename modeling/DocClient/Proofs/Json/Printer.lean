import DocClient.Json.Printer
import DocClient.Proofs.Json.Numeral
import DocClient.Proofs.Json.Parts

/-! Printed values hold no control characters. -/
namespace DocClient

/-- A text without control characters. -/
def Printable (cs : List Char) : Prop := ∀ c ∈ cs, 32 ≤ c.toNat

@[simp] theorem printable_nil : Printable [] := by simp [Printable]

@[simp] theorem printable_cons {c : Char} {cs : List Char} :
    Printable (c :: cs) ↔ 32 ≤ c.toNat ∧ Printable cs :=
  List.forall_mem_cons

@[simp] theorem printable_append {cs cs' : List Char} :
    Printable (cs ++ cs') ↔ Printable cs ∧ Printable cs' :=
  List.forall_mem_append

theorem Printable.subset {cs cs' : List Char} (h : Printable cs) (hs : cs' ⊆ cs) : Printable cs' :=
  fun _ hc => h _ (hs hc)

section Numbers

open Number

theorem printable_digits (n : Nat) : Printable (digits n) := by
  intro c hc
  have hd := isDigit_of_mem_digits hc
  simp only [Char.isDigit, Bool.and_eq_true, decide_eq_true_eq, UInt32.le_iff_toNat_le] at hd
  exact Nat.le_trans (by decide) hd.1

theorem printable_zeros (n : Nat) : Printable (List.replicate n '0') := by
  intro c hc
  obtain rfl := List.eq_of_mem_replicate hc
  decide

theorem printable_significant (d : Decimal) : Printable d.significant := by
  apply (printable_digits d.digits).subset
  intro c hc
  have hmem := List.dropWhile_subset _ (List.mem_reverse.mp hc)
  exact List.mem_reverse.mp hmem

variable {cs : List Char}

theorem printable_positional (h : Printable cs) (leading : Int) :
    Printable (DecimalLayout.positional cs leading) := by
  unfold DecimalLayout.positional
  split
  · simp [h, printable_zeros]
  · have hfilled (n : Nat) : Printable (cs ++ List.replicate n '0') := by
      simp [h, printable_zeros]
    simp only [printable_append, printable_cons]
    refine ⟨(hfilled _).subset (List.take_subset _ _), by decide, ?_⟩
    split
    · simp
    · exact (hfilled _).subset (List.drop_subset _ _)

theorem printable_scientific (h : Printable cs) (leading : Int) :
    Printable (DecimalLayout.scientific cs leading) := by
  have hsign : 32 ≤ (if leading < 0 then '-' else '+').toNat := by split <;> decide
  have hexponent : Printable ('e' :: (if leading < 0 then '-' else '+') :: digits leading.natAbs) := by
    simp only [printable_cons]
    exact ⟨by decide, hsign, printable_digits _⟩
  unfold DecimalLayout.scientific
  cases cs with
  | nil => exact hexponent
  | cons d ds =>
    cases ds with
    | nil => exact printable_append.mpr ⟨h, hexponent⟩
    | cons d' ds =>
      obtain ⟨hd, hds⟩ := printable_cons.mp h
      have hmantissa : Printable (d :: '.' :: d' :: ds) :=
        printable_cons.mpr ⟨hd, printable_cons.mpr ⟨by decide, hds⟩⟩
      exact printable_append.mpr ⟨hmantissa, hexponent⟩

theorem printable_number (n : Number) : Printable n.chars := by
  cases n with
  | whole n fits =>
    simp only [Number.chars, intChars]
    split <;> simp [printable_digits]
  | real x =>
    have hmagnitude : Printable (x.magnitudeChars .double) := by
      unfold Binary.magnitudeChars
      split
      · simp
      · dsimp only
        split
        · exact printable_positional (printable_significant _) _
        · exact printable_scientific (printable_significant _) _
    simp only [Number.chars, Binary.chars, printable_append]
    exact ⟨by split <;> simp, hmagnitude⟩

end Numbers

namespace Json

variable {c c' : Char} {s : String}

theorem hexDigit_printable {n : Nat} (h : n < 16) : 32 ≤ (hexDigit n).toNat := by
  have hall : ∀ n < 16, 32 ≤ (hexDigit n).toNat := by decide
  exact hall n h

theorem escapeChar_printable (h : c' ∈ escapeChar c) : 32 ≤ c'.toNat := by
  unfold escapeChar at h
  split at h
  all_goals try
    simp only [List.mem_cons, List.not_mem_nil, or_false] at h
    rcases h with rfl | rfl <;> decide
  split at h
  · next hlow =>
    simp only [List.mem_cons, List.not_mem_nil, or_false] at h
    rcases h with rfl | rfl | rfl | rfl | rfl | rfl
    · decide
    · decide
    · decide
    · decide
    · exact hexDigit_printable (by omega)
    · exact hexDigit_printable (by omega)
  · next hhigh =>
    obtain rfl := List.mem_singleton.mp h
    omega

theorem stringChars_printable (s : String) : Printable (stringChars s) := by
  intro c h
  simp only [stringChars, List.cons_append, List.mem_cons, List.mem_append, List.mem_flatMap,
    List.not_mem_nil, or_false] at h
  rcases h with rfl | ⟨c', -, hc⟩ | rfl
  · decide
  · exact escapeChar_printable hc
  · decide

theorem itemsChars_printable {items : List Json} (h : ∀ v ∈ items, Printable v.chars) :
    Printable (itemsChars items) := by
  induction items with
  | nil => simp [itemsChars]
  | cons v vs ih =>
    obtain ⟨hv, hvs⟩ := List.forall_mem_cons.mp h
    cases vs with
    | nil => exact hv
    | cons w vs =>
      simp only [itemsChars, printable_append, printable_cons]
      exact ⟨hv, by decide, ih hvs⟩

theorem membersChars_printable {doc : Document} (h : ∀ m ∈ doc, Printable m.2.chars) :
    Printable (membersChars doc) := by
  induction doc with
  | nil => simp [membersChars]
  | cons m ms ih =>
    obtain ⟨hm, hms⟩ := List.forall_mem_cons.mp h
    have hmember : Printable (stringChars m.1 ++ ':' :: chars m.2) := by
      simp only [printable_append, printable_cons]
      exact ⟨stringChars_printable _, by decide, hm⟩
    cases ms with
    | nil => exact hmember
    | cons m' ms =>
      simp only [membersChars]
      rw [printable_append, printable_cons]
      exact ⟨hmember, by decide, ih hms⟩

/-- Whatever its strings say, a value is printed without control characters. -/
theorem chars_printable (v : Json) : Printable v.chars := by
  induction v with
  | null => simp [chars]
  | bool b => cases b <;> simp [chars]
  | number n => exact printable_number n
  | string s => exact stringChars_printable s
  | array items ih =>
    simp only [chars, List.cons_append, printable_cons, printable_append]
    exact ⟨by decide, itemsChars_printable ih, by simp⟩
  | object doc ih =>
    simp only [chars, List.cons_append, printable_cons, printable_append]
    exact ⟨by decide, membersChars_printable ih, by simp⟩

end Json

end DocClient
