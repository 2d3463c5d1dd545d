/-! Natural numbers and their digits in base ten. -/
namespace DocClient.Number

def digitValue (c : Char) : Nat := c.toNat - 48

/-- The number that a row of digits stands for; no digits stand for zero. -/
def ofDigits (cs : List Char) : Nat := cs.foldl (fun n c => n * 10 + digitValue c) 0

/-- The number that a text stands for if it is made of digits, one at least. -/
def ofDigits? (cs : List Char) : Option Nat :=
  if cs.isEmpty || !cs.all Char.isDigit then none else some (ofDigits cs)

/-- The digits of a number, without leading zeros; zero has one digit. -/
def digits (n : Nat) : List Char := Nat.toDigits 10 n

/-- The digits without zeros at the end. -/
def dropTrailingZeros (cs : List Char) : List Char := (cs.reverse.dropWhile (· == '0')).reverse

theorem ofDigits_append (cs ds : List Char) :
    ofDigits (cs ++ ds) = ds.foldl (fun n c => n * 10 + digitValue c) (ofDigits cs) := by
  simp [ofDigits]

theorem ofDigits?_eq_some_iff {cs : List Char} {n : Nat} :
    ofDigits? cs = some n ↔ cs ≠ [] ∧ (∀ c ∈ cs, c.isDigit = true) ∧ ofDigits cs = n := by
  simp [ofDigits?, not_or, and_assoc]

end DocClient.Number
