/-! Powers of two and of ten, the units of binary and of decimal fractions. -/
namespace DocClient

/-- Two to the power of `n`. -/
abbrev pow2 (n : Nat) : Nat := Nat.pow 2 n

/-- Ten to the power of `n`. -/
abbrev pow10 (n : Nat) : Nat := Nat.pow 10 n

theorem pow10_succ (n : Nat) : pow10 (n + 1) = pow10 n * 10 := rfl

theorem pow10_pos (n : Nat) : 0 < pow10 n := Nat.pow_pos (by decide)

end DocClient
