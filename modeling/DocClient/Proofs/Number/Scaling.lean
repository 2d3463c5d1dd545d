import DocClient.Number.Scaling
import DocClient.Proofs.Number.Rounding

/-!
What becomes of digits and a power of ten. A number is multiplied by the number nearest to the
power, or divided by it; a power that is too small to divide by is taken in steps, and each of them
rounds. So the result may differ from the number nearest to what was written, but it is told by
what each step rounds.
-/
namespace DocClient.Binary

variable {x y t : Binary} {q : ℚ} {k left times : Nat} {e : Int} {negative : Bool}

/-- What a number becomes with a power of ten. Up to the power 308 it is multiplied or divided once;
beyond that a zero stays, nothing else is large enough to be multiplied, and a division by that
power brings one step nearer. -/
inductive Makes : Binary → Int → Binary → Prop
  | product {x y t : Binary} {e : Int} (he : 0 ≤ e) (hle : e ≤ 308)
      (ht : Rounds .double false (pow10 e.toNat) t)
      (hy : Rounds .double x.negative (x.size * t.size) y) : Makes x e y
  | quotient {x y t : Binary} {e : Int} (he : e < 0) (hle : -308 ≤ e)
      (ht : Rounds .double false (pow10 (-e).toNat) t)
      (hy : Rounds .double x.negative (x.size / t.size) y) : Makes x e y
  | zero {x : Binary} {e : Int} (he : e < -308 ∨ 308 < e) (hx : x.significand = 0) : Makes x e x
  | step {x y z t : Binary} {e : Int} (he : e < -308) (hx : x.significand ≠ 0)
      (ht : Rounds .double false (pow10 308) t)
      (hz : Rounds .double x.negative (x.size / t.size) z) (hy : Makes z (e + 308) y) : Makes x e y

/-- The number that digits with a sign and a power of ten become. The digits are rounded first. -/
def MadeFrom (negative : Bool) (significand : Nat) (power : Int) (y : Binary) : Prop :=
  ∃ x, Rounds .double negative significand x ∧ Makes x power y

section Cases

theorem makes_product_iff (he : 0 ≤ e) (hle : e ≤ 308) : Makes x e y ↔
    ∃ t, Rounds .double false (pow10 e.toNat) t ∧
      Rounds .double x.negative (x.size * t.size) y := by
  constructor
  · intro h
    cases h with
    | product _ _ ht hy => exact ⟨_, ht, hy⟩
    | quotient => omega
    | zero => omega
    | step => omega
  · rintro ⟨t, ht, hy⟩
    exact .product he hle ht hy

theorem makes_quotient_iff (he : e < 0) (hle : -308 ≤ e) : Makes x e y ↔
    ∃ t, Rounds .double false (pow10 (-e).toNat) t ∧
      Rounds .double x.negative (x.size / t.size) y := by
  constructor
  · intro h
    cases h with
    | product => omega
    | quotient _ _ ht hy => exact ⟨_, ht, hy⟩
    | zero => omega
    | step => omega
  · rintro ⟨t, ht, hy⟩
    exact .quotient he hle ht hy

theorem makes_zero_iff (he : e < -308 ∨ 308 < e) (hx : x.significand = 0) :
    Makes x e y ↔ x = y := by
  constructor
  · intro h
    cases h with
    | product => omega
    | quotient => omega
    | zero => rfl
    | step _ hne => exact absurd hx hne
  · rintro rfl
    exact .zero he hx

theorem makes_step_iff (he : e < -308) (hx : x.significand ≠ 0) : Makes x e y ↔
    ∃ t z, Rounds .double false (pow10 308) t ∧ Rounds .double x.negative (x.size / t.size) z ∧
      Makes z (e + 308) y := by
  constructor
  · intro h
    cases h with
    | product => omega
    | quotient => omega
    | zero _ hzero => exact absurd hzero hx
    | step _ _ ht hz hy => exact ⟨_, _, ht, hz, hy⟩
  · rintro ⟨t, z, ht, hz, hy⟩
    exact .step he hx ht hz hy

/-- No power beyond the largest makes anything of a number that is not zero. -/
theorem not_makes (he : 308 < e) (hx : x.significand ≠ 0) : ¬ Makes x e y := by
  intro h
  cases h with
  | product => omega
  | quotient => omega
  | zero _ hzero => exact hx hzero
  | step => omega

end Cases

section Parts

theorem denominator_pos (x : Binary) : 0 < x.denominator := pow2_pos _

theorem numerator_pos (h : x.significand ≠ 0) : 0 < x.numerator :=
  Nat.mul_pos (Nat.pos_of_ne_zero h) (pow2_pos _)

theorem size_eq_div (x : Binary) : x.size = x.numerator / x.denominator := by
  rw [size, unit_eq, numerator, denominator, Nat.cast_mul, mul_div_assoc]

/-- The number one, as it is written in double precision. -/
def one : Binary := ⟨false, 4503599627370496, -52⟩

theorem fits_one : one.Fits .double := ⟨by decide, by decide, fun _ => by decide⟩

theorem size_one : one.size = 1 := by
  rw [size_eq_div]
  exact div_self (Nat.cast_ne_zero.mpr (denominator_pos one).ne')

/-- What is one or more does not become zero. -/
theorem Rounds.significand_ne (h : Rounds .double negative q t) (hq : 1 ≤ q) :
    t.significand ≠ 0 := by
  intro hzero
  have hsize : t.size = 0 := by rw [size, hzero, Nat.cast_zero, zero_mul]
  have hnear := h.isNearest.nearest one fits_one
  rw [hsize, size_one, abs_of_nonpos (by linarith), abs_of_nonpos (by linarith)] at hnear
  linarith

theorem one_le_pow10 (k : Nat) : (1 : ℚ) ≤ pow10 k := by
  exact_mod_cast pow10_pos k

end Parts

section Operations

theorem ofDouble_eq_some_iff {a b : Nat} (hb : 0 < b) :
    ofFraction .double negative a b = some x ↔ Rounds .double negative (a / b) x :=
  ofFraction_eq_some_iff (by decide) (by decide) hb

theorem rounds_zero_iff : Rounds .double negative 0 x ↔ x = zero .double negative := by
  have hzero : ofFraction .double negative 0 1 = some x ↔
      Rounds .double negative ((0 : Nat) / (1 : Nat)) x := ofDouble_eq_some_iff Nat.one_pos
  rw [ofFraction, if_pos rfl, Option.some.injEq, Nat.cast_zero, zero_div] at hzero
  rw [← hzero, eq_comm]

theorem powerOfTen_eq_some_iff : powerOfTen k = some t ↔ Rounds .double false (pow10 k) t := by
  rw [powerOfTen, ofDouble_eq_some_iff Nat.one_pos, Nat.cast_one, div_one]

/-- A product with a positive number is the exact one, rounded. -/
theorem times_eq_some_iff (ht : t.negative = false) :
    x.times t = some y ↔ Rounds .double x.negative (x.size * t.size) y := by
  rw [times, ofDouble_eq_some_iff (Nat.mul_pos x.denominator_pos t.denominator_pos), ht,
    Bool.bne_false, Nat.cast_mul, Nat.cast_mul, ← div_mul_div_comm, ← size_eq_div, ← size_eq_div]

/-- A quotient by a positive number is the exact one, rounded. -/
theorem dividedBy_eq_some_iff (ht : t.negative = false) (hne : t.significand ≠ 0) :
    x.dividedBy t = some y ↔ Rounds .double x.negative (x.size / t.size) y := by
  rw [dividedBy, ofDouble_eq_some_iff (Nat.mul_pos x.denominator_pos (numerator_pos hne)), ht,
    Bool.bne_false, Nat.cast_mul, Nat.cast_mul, ← div_div_div_eq, ← size_eq_div, ← size_eq_div]

theorem product_eq_some_iff : (do x.times (← powerOfTen k)) = some y ↔
    ∃ t, Rounds .double false (pow10 k) t ∧ Rounds .double x.negative (x.size * t.size) y := by
  simp only [Option.bind_eq_bind, Option.bind_eq_some_iff, powerOfTen_eq_some_iff]
  exact exists_congr fun t => and_congr_right fun ht => times_eq_some_iff ht.sign

theorem quotient_eq_some_iff : (do x.dividedBy (← powerOfTen k)) = some y ↔
    ∃ t, Rounds .double false (pow10 k) t ∧ Rounds .double x.negative (x.size / t.size) y := by
  simp only [Option.bind_eq_bind, Option.bind_eq_some_iff, powerOfTen_eq_some_iff]
  exact exists_congr fun t => and_congr_right fun ht =>
    dividedBy_eq_some_iff ht.sign (ht.significand_ne (one_le_pow10 k))

end Operations

section Scaling

theorem scaleDown_succ (hx : x.significand ≠ 0) : x.scaleDown left (times + 1) = some y ↔
    ∃ t z, Rounds .double false (pow10 308) t ∧ Rounds .double x.negative (x.size / t.size) z ∧
      z.scaleDown left times = some y := by
  rw [scaleDown, if_neg hx, maxPower]
  simp only [Option.bind_eq_bind, Option.bind_eq_some_iff, powerOfTen_eq_some_iff,
    ← exists_and_left]
  refine exists_congr fun t => exists_congr fun z => and_congr_right fun ht => and_congr_left' ?_
  exact dividedBy_eq_some_iff ht.sign (ht.significand_ne (one_le_pow10 _))

/-- Dividing again and again comes to what the steps make. -/
theorem scaleDown_eq_some_iff (hpos : 0 < left) (hle : left ≤ maxPower) :
    x.scaleDown left times = some y ↔ Makes x (-(left + maxPower * times : Nat)) y := by
  simp only [maxPower] at hle ⊢
  induction times generalizing x with
  | zero =>
    have hleft : (- -((left + 308 * 0 : Nat) : Int)).toNat = left := by omega
    rw [scaleDown, quotient_eq_some_iff, makes_quotient_iff (by omega) (by omega), hleft]
  | succ times ih =>
    have hnext : -((left + 308 * (times + 1) : Nat) : Int) + 308
        = -((left + 308 * times : Nat) : Int) := by omega
    by_cases hx : x.significand = 0
    · rw [scaleDown, if_pos hx, Option.some.injEq, makes_zero_iff (by omega) hx]
    · rw [scaleDown_succ hx, makes_step_iff (by omega) hx, hnext]
      simp only [ih]

theorem step_counts (he : e < 0) : 0 < (-e).toNat - maxPower * (((-e).toNat - 1) / maxPower) ∧
    (-e).toNat - maxPower * (((-e).toNat - 1) / maxPower) ≤ maxPower ∧
    -((((-e).toNat - maxPower * (((-e).toNat - 1) / maxPower))
      + maxPower * (((-e).toNat - 1) / maxPower) : Nat) : Int) = e := by
  simp only [maxPower]
  omega

theorem ofScaled_eq_some_iff : ofScaled negative k e = some y ↔ MadeFrom negative k e y := by
  have hdigits (x : Binary) : ofFraction .double negative k 1 = some x ↔
      Rounds .double negative k x := by
    rw [ofDouble_eq_some_iff Nat.one_pos, Nat.cast_one, div_one]
  simp only [ofScaled, Option.bind_eq_bind, Option.bind_eq_some_iff]
  refine exists_congr fun x => and_congr (hdigits x) ?_
  by_cases hneg : e < 0
  · obtain ⟨hpos, hle, hplaces⟩ := step_counts hneg
    rw [if_neg (not_le.mpr hneg), scaleDown_eq_some_iff hpos hle, hplaces]
  rw [if_pos (not_lt.mp hneg)]
  by_cases hle : e ≤ maxPower
  · rw [if_pos hle, makes_product_iff (not_lt.mp hneg) hle]
    exact product_eq_some_iff
  rw [if_neg hle]
  by_cases hx : x.significand = 0
  · rw [if_pos hx, Option.some.injEq, makes_zero_iff (Or.inr (not_le.mp hle)) hx]
  · rw [if_neg hx]
    exact iff_of_false nofun (not_makes (not_le.mp hle) hx)

end Scaling

end DocClient.Binary
