import DocClient.Json.Escape
import DocClient.Proofs.Json.Printer

/-! A printed string is read back, whatever comes after its closing quote. -/
namespace DocClient.Json

variable {c : Char} {before cs rest : List Char} {s : String}

theorem hexValue?_hexDigit {n : Nat} (h : n < 16) : hexValue? (hexDigit n) = some n := by
  have hall : ∀ n < 16, hexValue? (hexDigit n) = some n := by decide
  exact hall n h

theorem byteLength_ascii {a b c d : Char} (ha : a.utf8Size = 1) (hb : b.utf8Size = 1)
    (hc : c.utf8Size = 1) (hd : d.utf8Size = 1) : Text.byteLength [a, b, c, d] = 4 := by
  simp [Text.byteLength, ha, hb, hc, hd]

theorem utf8Size_hexDigit {n : Nat} (h : n < 16) : (hexDigit n).utf8Size = 1 := by
  have hall : ∀ n < 16, (hexDigit n).utf8Size = 1 := by decide
  exact hall n h

/-- The four digits that stand for a control character. -/
theorem fourHex_control (h : c.toNat < 0x20) :
    fourHex ('0' :: '0' :: hexDigit (c.toNat / 16) :: hexDigit (c.toNat % 16) :: cs)
      = .ok (c.toNat, cs) := by
  have hhigh : c.toNat / 16 < 16 := by omega
  have hlow : c.toNat % 16 < 16 := by omega
  have hbytes : Text.byteLength
      (('0' :: '0' :: hexDigit (c.toNat / 16) :: hexDigit (c.toNat % 16) :: cs).take 4) = 4 :=
    byteLength_ascii rfl rfl (utf8Size_hexDigit hhigh) (utf8Size_hexDigit hlow)
  have hzero : hexValue? '0' = some 0 := by decide
  simp only [fourHex, hbytes, hzero, hexValue?_hexDigit hhigh, hexValue?_hexDigit hlow]
  simp
  omega

theorem escape_control (h : c.toNat < 0x20) :
    escape ('u' :: '0' :: '0' :: hexDigit (c.toNat / 16) :: hexDigit (c.toNat % 16) :: cs)
      = .ok (c, cs) := by
  have hlow : isLowSurrogate c.toNat = false := by simp [isLowSurrogate]; omega
  have hhigh : isHighSurrogate c.toNat = false := by simp [isHighSurrogate]; omega
  simp [escape, hexEscape, fourHex_control h, bind, Except.bind, hlow, hhigh]

theorem stringRest_quote :
    stringRest before ('"' :: rest) = .ok (String.ofList before.reverse, rest) := by
  rw [stringRest]

theorem stringRest_escape (h : escape cs = .ok (c, rest)) :
    stringRest before ('\\' :: cs) = stringRest (c :: before) rest := by
  rw [stringRest]
  split
  · next e he => simp [h] at he
  · next c' rest' he =>
    rw [h] at he
    obtain ⟨rfl, rfl⟩ := Prod.mk.inj (Except.ok.inj he)
    rfl

theorem stringRest_plain (hq : c ≠ '"') (hb : c ≠ '\\') (h : 0x20 ≤ c.toNat) :
    stringRest before (c :: cs) = stringRest (c :: before) cs := by
  rw [stringRest]
  · simp; omega
  · simpa using hq
  · simpa using hb

/-- Reading what is printed for a character gives the character. -/
theorem stringRest_escapeChar :
    stringRest before (escapeChar c ++ cs) = stringRest (c :: before) cs := by
  unfold escapeChar
  split
  all_goals try exact stringRest_escape rfl
  next hq hb _ _ _ _ _ =>
    split
    · next h => exact stringRest_escape (escape_control h)
    · next h => exact stringRest_plain hq hb (by omega)

theorem stringRest_flatMap (cs : List Char) :
    stringRest before (cs.flatMap escapeChar ++ '"' :: rest)
      = .ok (String.ofList (before.reverse ++ cs), rest) := by
  induction cs generalizing before with
  | nil => simpa using stringRest_quote
  | cons c cs ih =>
    rw [List.flatMap_cons, List.append_assoc, stringRest_escapeChar, ih]
    simp

/-- A printed string, after its opening quote. -/
theorem stringRest_chars (s : String) (rest : List Char) :
    stringRest [] (s.toList.flatMap escapeChar ++ '"' :: rest) = .ok (s, rest) := by
  rw [stringRest_flatMap]
  simp

end DocClient.Json
