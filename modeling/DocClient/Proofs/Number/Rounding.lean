import DocClient.Number.Binary
import Mathlib.Algebra.Order.Field.Basic
import Mathlib.Algebra.Order.Field.Power
import Mathlib.Algebra.Order.Field.Rat
import Mathlib.Tactic.FieldSimp
import Mathlib.Tactic.Linarith
import Mathlib.Tactic.Ring

/-!
What a fraction is rounded to in a binary format: the nearest of all numbers that have the
precision of the format and no exponent below its least one, and of two that are equally near the
one with the even significand. If the exponent of that number is too large for the format, the
fraction is too large for it.
-/
namespace DocClient

namespace Binary

/-- The number without its sign. -/
def size (x : Binary) : ℚ := x.significand * 2 ^ x.exponent

/-- The number has the precision of the format and no exponent below its least one, and is written
in the only way that the format allows. -/
structure Fits (f : BinaryFormat) (x : Binary) : Prop where
  short : x.significand < pow2 f.precision
  least : f.minExponent ≤ x.exponent
  full : f.minExponent < x.exponent → pow2 (f.precision - 1) ≤ x.significand

/-- No other number is nearer to the fraction, and if one is as near this one is even. -/
structure IsNearest (f : BinaryFormat) (q : ℚ) (x : Binary) : Prop where
  fits : x.Fits f
  nearest : ∀ y : Binary, y.Fits f → |x.size - q| ≤ |y.size - q|
  even : ∀ y : Binary, y.Fits f → y.size ≠ x.size → |y.size - q| = |x.size - q| →
    x.significand % 2 = 0

/-- The fraction with a sign is rounded to this number of the format. -/
structure Rounds (f : BinaryFormat) (negative : Bool) (q : ℚ) (x : Binary) : Prop where
  sign : x.negative = negative
  isNearest : x.IsNearest f q
  bounded : x.exponent ≤ f.maxExponent

end Binary

variable {f : BinaryFormat} {x y : Binary} {q t : ℚ} {a b k m : Nat} {e : Int}

section Units

theorem unit_pos (e : Int) : (0 : ℚ) < 2 ^ e := zpow_pos two_pos e

theorem unit_succ (e : Int) : (2 : ℚ) ^ (e + 1) = 2 * 2 ^ e := by
  rw [zpow_add_one₀ two_ne_zero, mul_comm]

theorem unit_mono {e e' : Int} (h : e ≤ e') : (2 : ℚ) ^ e ≤ 2 ^ e' :=
  zpow_le_zpow_right₀ one_le_two h

theorem pow2_pos (n : Nat) : 0 < pow2 n := Nat.pow_pos two_pos

theorem cast_pow2 (n : Nat) : ((pow2 n : Nat) : ℚ) = 2 ^ (n : Int) := by
  rw [zpow_natCast]
  exact Nat.cast_pow 2 n

/-- A power of two as a fraction of two whole ones. -/
theorem unit_eq (e : Int) : (2 : ℚ) ^ e = pow2 e.toNat / pow2 (-e).toNat := by
  rw [cast_pow2, cast_pow2, ← zpow_sub₀ two_ne_zero]
  congr 1
  omega

end Units

namespace Binary

section Grid

/-- A number with no smaller exponent is a multiple of the unit. -/
theorem exists_multiple (h : e ≤ x.exponent) : ∃ k : Nat, x.size = k * 2 ^ e := by
  refine ⟨x.significand * pow2 (x.exponent - e).toNat, ?_⟩
  have hexp : ((x.exponent - e).toNat : Int) + e = x.exponent := by omega
  rw [Nat.cast_mul, cast_pow2, mul_assoc, ← zpow_add₀ two_ne_zero, hexp, size]

theorem half_add_half (hf : 2 ≤ f.precision) :
    pow2 f.precision = 2 * pow2 (f.precision - 1) := by
  obtain ⟨p, hp⟩ : ∃ p, f.precision = p + 1 := ⟨f.precision - 1, by omega⟩
  rw [hp, Nat.add_sub_cancel, Nat.mul_comm]
  rfl

/-- A number with a smaller exponent is below all numbers that are full with the greater one. -/
theorem Fits.below (hx : x.Fits f) (hf : 2 ≤ f.precision) (h : x.exponent < e) :
    x.size < pow2 (f.precision - 1) * 2 ^ e := by
  have hshort : (x.significand : ℚ) < 2 * pow2 (f.precision - 1) := by
    exact_mod_cast half_add_half hf ▸ hx.short
  have hunit : 2 * (2 : ℚ) ^ x.exponent ≤ 2 ^ e := by
    rw [← unit_succ]
    exact unit_mono h
  calc x.size < 2 * pow2 (f.precision - 1) * 2 ^ x.exponent :=
        mul_lt_mul_of_pos_right hshort (unit_pos _)
    _ = pow2 (f.precision - 1) * (2 * 2 ^ x.exponent) := by ring
    _ ≤ pow2 (f.precision - 1) * 2 ^ e :=
        mul_le_mul_of_nonneg_left hunit (Nat.cast_nonneg _)

theorem Fits.above (hx : x.Fits f) (h : f.minExponent < x.exponent) :
    (pow2 (f.precision - 1) : ℚ) * 2 ^ x.exponent ≤ x.size :=
  mul_le_mul_of_nonneg_right (Nat.cast_le.mpr (hx.full h)) (unit_pos _).le

/-- Greater exponents make greater numbers. -/
theorem Fits.lt_of_exponent (hx : x.Fits f) (hy : y.Fits f) (hf : 2 ≤ f.precision)
    (h : x.exponent < y.exponent) : x.size < y.size :=
  (hx.below hf h).trans_le (hy.above (hx.least.trans_lt h))

/-- A number is written in one way only. -/
theorem Fits.eq_of_size (hx : x.Fits f) (hy : y.Fits f) (hf : 2 ≤ f.precision)
    (hs : x.negative = y.negative) (h : x.size = y.size) : x = y := by
  have he : x.exponent = y.exponent := by
    rcases lt_trichotomy x.exponent y.exponent with hlt | heq | hgt
    · exact absurd h (hx.lt_of_exponent hy hf hlt).ne
    · exact heq
    · exact absurd h (hy.lt_of_exponent hx hf hgt).ne'
  rw [size, size, he] at h
  have hm : x.significand = y.significand :=
    Nat.cast_injective (mul_right_cancel₀ (unit_pos _).ne' h)
  cases x
  cases y
  simp_all

end Grid

section Unique

/-- Greater numbers are greater by the unit of the smaller one at least. -/
theorem Fits.succ_le (hx : x.Fits f) (hy : y.Fits f) (hf : 2 ≤ f.precision)
    (h : x.size < y.size) : (x.significand + 1 : Nat) * 2 ^ x.exponent ≤ y.size := by
  rcases lt_or_ge y.exponent x.exponent with he | he
  · exact absurd h (hy.lt_of_exponent hx hf he).not_gt
  · obtain ⟨k, hk⟩ := exists_multiple he
    rw [hk] at h ⊢
    have hlt : x.significand < k := by
      exact_mod_cast lt_of_mul_lt_mul_right h (unit_pos _).le
    exact mul_le_mul_of_nonneg_right (by exact_mod_cast hlt) (unit_pos _).le

/-- Of two different numbers only one is nearest. -/
theorem IsNearest.size_le (hx : x.IsNearest f q) (hy : y.IsNearest f q) (hf : 2 ≤ f.precision) :
    y.size ≤ x.size := by
  refine le_of_not_gt fun hlt => ?_
  have htie : |y.size - q| = |x.size - q| :=
    le_antisymm (hy.nearest x hx.fits) (hx.nearest y hy.fits)
  have hmid : y.size - q = q - x.size := by
    rcases abs_eq_abs.mp htie with h | h <;> linarith
  have heven := hx.even y hy.fits hlt.ne' htie
  have heven' := hy.even x hx.fits hlt.ne htie.symm
  -- the number after `x` is no nearer than `x`, so it is `y`, whose significand is odd
  have hpow := half_add_half hf
  let z : Binary := ⟨y.negative, x.significand + 1, x.exponent⟩
  have hshort := hx.fits.short
  have hz : z.Fits f := by
    refine ⟨?_, hx.fits.least, fun h => (hx.fits.full h).trans (Nat.le_succ _)⟩
    change x.significand + 1 < pow2 f.precision
    omega
  have hsucc : z.size = x.size + 2 ^ x.exponent := by
    change ((x.significand + 1 : Nat) : ℚ) * 2 ^ x.exponent = x.significand * 2 ^ x.exponent + _
    push_cast
    ring
  have hunit := unit_pos x.exponent
  have hle : z.size ≤ y.size := hx.fits.succ_le hy.fits hf hlt
  have heq : y = z := by
    refine hy.fits.eq_of_size hz hf rfl (le_antisymm ?_ hle)
    by_contra hgt
    have hfar := hx.nearest z hz
    have hnear : |z.size - q| < |x.size - q| := by
      rw [abs_of_nonpos (by linarith : x.size - q ≤ 0), abs_lt]
      constructor <;> linarith
    exact hfar.not_gt hnear
  rw [heq] at heven'
  change (x.significand + 1) % 2 = 0 at heven'
  omega

theorem IsNearest.unique (hx : x.IsNearest f q) (hy : y.IsNearest f q)
    (hf : 2 ≤ f.precision) (hs : x.negative = y.negative) : x = y :=
  hx.fits.eq_of_size hy.fits hf hs
    (le_antisymm (hy.size_le hx hf) (hx.size_le hy hf))

end Unique

end Binary

section Whole

/-- A whole number no more than a half from a fraction, the even one of two. -/
structure NearestWhole (t : ℚ) (m : Nat) : Prop where
  near : |(m : ℚ) - t| ≤ 1 / 2
  even : |(m : ℚ) - t| = 1 / 2 → m % 2 = 0

theorem NearestWhole.far (h : NearestWhole t m) (hk : k ≠ m) : 1 / 2 ≤ |(k : ℚ) - t| := by
  have hone : (1 : ℚ) ≤ |(k : ℚ) - m| := by
    have hne : (k : Int) - m ≠ 0 := by omega
    have hint := Int.one_le_abs hne
    exact_mod_cast hint
  have htriangle : |(k : ℚ) - m| ≤ |(k : ℚ) - t| + |(m : ℚ) - t| := by
    rw [abs_sub_comm (m : ℚ) t]
    exact abs_sub_le _ _ _
  linarith [h.near]

theorem NearestWhole.le (h : NearestWhole t m) (k : Nat) : |(m : ℚ) - t| ≤ |(k : ℚ) - t| := by
  by_cases hk : k = m
  · rw [hk]
  · exact h.near.trans (h.far hk)

theorem NearestWhole.even_of_tie (h : NearestWhole t m) (hk : k ≠ m)
    (htie : |(k : ℚ) - t| = |(m : ℚ) - t|) : m % 2 = 0 :=
  h.even (le_antisymm h.near (htie ▸ h.far hk))

/-- A bound that the fraction keeps its nearest whole number keeps too. -/
theorem NearestWhole.le_of_le (h : NearestWhole t m) (hk : (k : ℚ) ≤ t) : k ≤ m := by
  have hm := (abs_le.mp h.near).1
  have hlt : (k : ℚ) < (m + 1 : Nat) := by
    push_cast
    linarith
  exact Nat.lt_succ_iff.mp (by exact_mod_cast hlt)

theorem NearestWhole.le_of_lt (h : NearestWhole t m) (hk : t < k) : m ≤ k := by
  have hm := (abs_le.mp h.near).2
  have hlt : (m : ℚ) < (k + 1 : Nat) := by
    push_cast
    linarith
  exact Nat.lt_succ_iff.mp (by exact_mod_cast hlt)

theorem nearestWhole_roundDiv (hb : 0 < b) :
    NearestWhole (a / b) (BinaryFormat.roundDiv a b) := by
  have hb' : (0 : ℚ) < b := by exact_mod_cast hb
  obtain ⟨r, hr⟩ : ∃ r : ℚ, r = (a % b : Nat) / b := ⟨_, rfl⟩
  have hfraction : (a : ℚ) / b = (a / b : Nat) + r := by
    have hdivision : (a : ℚ) = b * (a / b : Nat) + (a % b : Nat) := by
      exact_mod_cast (Nat.div_add_mod a b).symm
    rw [hr, hdivision]
    field_simp
  have hpos : 0 ≤ r := hr ▸ div_nonneg (Nat.cast_nonneg _) hb'.le
  have hbelow : 2 * (a % b) < b ↔ r < 1 / 2 := by
    rw [hr, div_lt_div_iff₀ hb' two_pos, ← Nat.cast_lt (α := ℚ)]
    push_cast
    rw [mul_comm, one_mul]
  have habove : 2 * (a % b) > b ↔ 1 / 2 < r := by
    rw [hr, div_lt_div_iff₀ two_pos hb', gt_iff_lt, ← Nat.cast_lt (α := ℚ)]
    push_cast
    rw [mul_comm (2 : ℚ), one_mul]
  have hlt : r < 1 := by
    rw [hr, div_lt_one hb']
    exact_mod_cast Nat.mod_lt a hb
  rw [hfraction]
  -- down where less than a half is left, up where it is more, and else to the even one
  have hdown : |((a / b : Nat) : ℚ) - ((a / b : Nat) + r)| = r := by
    rw [sub_add_cancel_left, abs_neg, abs_of_nonneg hpos]
  have hup : |((a / b + 1 : Nat) : ℚ) - ((a / b : Nat) + r)| = 1 - r := by
    push_cast
    rw [add_sub_add_left_eq_sub, abs_of_nonneg (by linarith)]
  unfold BinaryFormat.roundDiv
  dsimp only
  split
  · next h =>
    have hhalf := hbelow.mp h
    exact ⟨by rw [hdown]; exact hhalf.le, by rw [hdown]; exact fun heq => absurd heq hhalf.ne⟩
  · next h =>
    have hge : 1 / 2 ≤ r := not_lt.mp (mt hbelow.mpr h)
    split
    · next h' =>
      have hhalf := habove.mp h'
      exact ⟨by rw [hup]; linarith, by rw [hup]; exact fun heq => absurd heq (by linarith)⟩
    · next h' =>
      have hle : r ≤ 1 / 2 := not_lt.mp (mt habove.mpr h')
      split
      · next heven => exact ⟨by rw [hdown]; exact hle, fun _ => heven⟩
      · next hodd => exact ⟨by rw [hup]; linarith, fun _ => by omega⟩

end Whole

namespace Binary

section Exponents

/-- The least exponent at which a fraction has no more digits before the point than the precision
allows. -/
structure Places (f : BinaryFormat) (q : ℚ) (e : Int) : Prop where
  least : f.minExponent ≤ e
  fits : q < pow2 f.precision * 2 ^ e
  full : f.minExponent < e → pow2 (f.precision - 1) * 2 ^ e ≤ q

theorem scaled_eq (hb : 0 < b) (e : Int) :
    0 < (BinaryFormat.scaled a b e).2 ∧
      ((BinaryFormat.scaled a b e).1 : ℚ) / (BinaryFormat.scaled a b e).2 = a / b / 2 ^ e := by
  have hb' : (b : ℚ) ≠ 0 := by exact_mod_cast hb.ne'
  have hup : ((pow2 e.toNat : Nat) : ℚ) ≠ 0 := by exact_mod_cast (pow2_pos _).ne'
  have hdown : ((pow2 (-e).toNat : Nat) : ℚ) ≠ 0 := by exact_mod_cast (pow2_pos _).ne'
  refine ⟨Nat.mul_pos hb (pow2_pos _), ?_⟩
  rw [unit_eq e]
  simp only [BinaryFormat.scaled]
  push_cast
  field_simp

/-- A positive fraction lies between two powers of two that the lengths of its parts tell. -/
theorem between_units (ha : 0 < a) (hb : 0 < b) :
    (2 : ℚ) ^ ((Nat.log2 a : Int) - Nat.log2 b - 1) ≤ a / b ∧
      (a : ℚ) / b < 2 ^ ((Nat.log2 a : Int) - Nat.log2 b + 1) := by
  have hlow {n : Nat} (hn : 0 < n) : (2 : ℚ) ^ (Nat.log2 n : Int) ≤ n := by
    rw [← cast_pow2]
    exact Nat.cast_le.mpr (Nat.log2_self_le hn.ne')
  have hhigh (n : Nat) : (n : ℚ) < 2 ^ ((Nat.log2 n : Int) + 1) := by
    have hlt : n < pow2 (Nat.log2 n + 1) := Nat.lt_log2_self
    calc (n : ℚ) < (pow2 (Nat.log2 n + 1) : Nat) := Nat.cast_lt.mpr hlt
      _ = 2 ^ ((Nat.log2 n : Int) + 1) := by rw [cast_pow2]; rfl
  have hb' : (0 : ℚ) < b := by exact_mod_cast hb
  constructor
  · rw [le_div_iff₀ hb']
    calc (2 : ℚ) ^ ((Nat.log2 a : Int) - Nat.log2 b - 1) * b
        ≤ 2 ^ ((Nat.log2 a : Int) - Nat.log2 b - 1) * 2 ^ ((Nat.log2 b : Int) + 1) :=
          mul_le_mul_of_nonneg_left (hhigh b).le (unit_pos _).le
      _ = 2 ^ (Nat.log2 a : Int) := by rw [← zpow_add₀ two_ne_zero]; congr 1; omega
      _ ≤ a := hlow ha
  · rw [div_lt_iff₀ hb']
    calc (a : ℚ) < 2 ^ ((Nat.log2 a : Int) + 1) := hhigh a
      _ = 2 ^ ((Nat.log2 a : Int) - Nat.log2 b + 1) * 2 ^ (Nat.log2 b : Int) := by
          rw [← zpow_add₀ two_ne_zero]; congr 1; omega
      _ ≤ 2 ^ ((Nat.log2 a : Int) - Nat.log2 b + 1) * b :=
          mul_le_mul_of_nonneg_left (hlow hb) (unit_pos _).le

theorem whole_lt_iff (hb : 0 < b) (n : Nat) (e : Int) :
    (BinaryFormat.scaled a b e).1 / (BinaryFormat.scaled a b e).2 < n ↔
      (a : ℚ) / b < n * 2 ^ e := by
  obtain ⟨hpos, heq⟩ := scaled_eq (a := a) hb e
  have hpos' : (0 : ℚ) < (BinaryFormat.scaled a b e).2 := by exact_mod_cast hpos
  rw [Nat.div_lt_iff_lt_mul hpos, ← div_lt_iff₀ (unit_pos e), ← heq, div_lt_iff₀ hpos']
  exact_mod_cast Iff.rfl

theorem places_exponentFor (hf : 2 ≤ f.precision) (ha : 0 < a) (hb : 0 < b) :
    Places f (a / b) (f.exponentFor a b) := by
  obtain ⟨hlow, hhigh⟩ := between_units ha hb
  obtain ⟨guess, hguess⟩ : ∃ guess, guess = max f.minExponent
    ((Nat.log2 a : Int) - (Nat.log2 b : Int) - (f.precision : Int)) := ⟨_, rfl⟩
  have hshort := whole_lt_iff (a := a) hb (pow2 f.precision) guess
  have hhalf : (pow2 f.precision : ℚ) = 2 * pow2 (f.precision - 1) := by
    exact_mod_cast half_add_half hf
  unfold BinaryFormat.exponentFor
  rw [← hguess]
  dsimp only
  split
  · next h =>
    refine ⟨by omega, hshort.mp h, fun hlt => ?_⟩
    calc (pow2 (f.precision - 1) : ℚ) * 2 ^ guess
        = 2 ^ ((Nat.log2 a : Int) - Nat.log2 b - 1) := by
          rw [cast_pow2, ← zpow_add₀ two_ne_zero]; congr 1; omega
      _ ≤ a / b := hlow
  · next h =>
    refine ⟨by omega, ?_, fun _ => ?_⟩
    · calc (a : ℚ) / b < 2 ^ ((Nat.log2 a : Int) - Nat.log2 b + 1) := hhigh
        _ ≤ 2 ^ ((f.precision : Int) + (guess + 1)) := unit_mono (by omega)
        _ = pow2 f.precision * 2 ^ (guess + 1) := by rw [cast_pow2, ← zpow_add₀ two_ne_zero]
    · calc (pow2 (f.precision - 1) : ℚ) * 2 ^ (guess + 1) = pow2 f.precision * 2 ^ guess := by
            rw [unit_succ, hhalf]; ring
        _ ≤ a / b := not_lt.mp (mt hshort.mpr h)

/-- At the right exponent the nearest whole number makes the nearest number. -/
theorem nearest_of_whole (hf : 2 ≤ f.precision) (hp : Places f q e)
    (hm : NearestWhole (q / 2 ^ e) m) (hy : y.Fits f) :
    |(m : ℚ) * 2 ^ e - q| ≤ |y.size - q| ∧
      (y.size ≠ m * 2 ^ e → |y.size - q| = |(m : ℚ) * 2 ^ e - q| → m % 2 = 0) := by
  have hunit := unit_pos e
  have hscale (k : Nat) : |(k : ℚ) * 2 ^ e - q| = |(k : ℚ) - q / 2 ^ e| * 2 ^ e := by
    rw [← abs_of_pos hunit, ← abs_mul, abs_of_pos hunit, sub_mul, div_mul_cancel₀ _ hunit.ne']
  have hgrid (k : Nat) : |(m : ℚ) * 2 ^ e - q| ≤ |(k : ℚ) * 2 ^ e - q| := by
    rw [hscale, hscale]
    exact mul_le_mul_of_nonneg_right (hm.le k) hunit.le
  rcases lt_or_ge y.exponent e with hlt | hge
  · -- the least number that is full lies between this one and the fraction
    have hbelow := hy.below hf hlt
    have hfull := hp.full (hy.least.trans_lt hlt)
    have hnear : |(m : ℚ) * 2 ^ e - q| < |y.size - q| := by
      refine (hgrid (pow2 (f.precision - 1))).trans_lt ?_
      rw [abs_of_nonpos (by linarith), abs_of_nonpos (by linarith)]
      linarith
    exact ⟨hnear.le, fun _ htie => absurd htie hnear.ne'⟩
  · obtain ⟨k, hk⟩ := exists_multiple hge
    rw [hk]
    refine ⟨hgrid k, fun hne htie => ?_⟩
    rw [hscale, hscale] at htie
    exact hm.even_of_tie (fun heq => hne (by rw [heq])) (mul_right_cancel₀ hunit.ne' htie)

end Exponents

section Rounding

variable {negative : Bool}

/-- A number of the size that the nearest whole number makes is nearest, if it is even where that
is. -/
theorem isNearest_of_whole (hf : 2 ≤ f.precision) (hp : Places f q e)
    (hm : NearestWhole (q / 2 ^ e) m) (hx : x.Fits f) (hs : x.size = m * 2 ^ e)
    (he : m % 2 = 0 → x.significand % 2 = 0) : x.IsNearest f q where
  fits := hx
  nearest y hy := by
    rw [hs]
    exact (nearest_of_whole hf hp hm hy).1
  even y hy hne htie := by
    rw [hs] at hne htie
    exact he ((nearest_of_whole hf hp hm hy).2 hne htie)

/-- A whole number with one digit too many is that of the next exponent, and its last digits are
zeros. -/
theorem isNearest_of_carry (hf : 2 ≤ f.precision) (hp : Places f q e)
    (hm : NearestWhole (q / 2 ^ e) m) (hcarry : m = pow2 f.precision) :
    IsNearest f q ⟨negative, m / 2, e + 1⟩ := by
  have hhalf := half_add_half hf
  have hfull : m / 2 = pow2 (f.precision - 1) := by omega
  have heven : m / 2 % 2 = 0 := by
    obtain ⟨p, hp⟩ : ∃ p, f.precision - 1 = p + 1 := ⟨f.precision - 2, by omega⟩
    rw [hfull, hp]
    exact Nat.mul_mod_left (pow2 p) 2
  have hshort : m / 2 < pow2 f.precision := by
    have hpos := pow2_pos (f.precision - 1)
    omega
  have hleast : f.minExponent ≤ e + 1 := hp.least.trans (Int.le_add_one le_rfl)
  have hsize : ((m / 2 : Nat) : ℚ) * 2 ^ (e + 1) = m * 2 ^ e := by
    have hdouble : (m : ℚ) = 2 * (m / 2 : Nat) := by exact_mod_cast (by omega : m = 2 * (m / 2))
    rw [unit_succ, hdouble]
    ring
  exact isNearest_of_whole hf hp hm ⟨hshort, hleast, fun _ => hfull.ge⟩ hsize fun _ => heven

theorem isNearest_of_short (hf : 2 ≤ f.precision) (hp : Places f q e)
    (hm : NearestWhole (q / 2 ^ e) m) (hshort : m ≠ pow2 f.precision) :
    IsNearest f q ⟨negative, m, e⟩ := by
  have hle : m ≤ pow2 f.precision := hm.le_of_lt ((div_lt_iff₀ (unit_pos e)).mpr hp.fits)
  have hfull (h : f.minExponent < e) : pow2 (f.precision - 1) ≤ m :=
    hm.le_of_le ((le_div_iff₀ (unit_pos e)).mpr (hp.full h))
  exact isNearest_of_whole hf hp hm ⟨lt_of_le_of_ne hle hshort, hp.least, hfull⟩ rfl id

theorem round_eq (hf : 2 ≤ f.precision) (ha : 0 < a) (hb : 0 < b) : ∃ m e,
    (∀ negative, IsNearest f (a / b) ⟨negative, m, e⟩) ∧
      f.round a b = if e ≤ f.maxExponent then some (m, e) else none := by
  have hplaces := places_exponentFor hf ha hb
  obtain ⟨e, he⟩ : ∃ e, e = f.exponentFor a b := ⟨_, rfl⟩
  obtain ⟨m, hm⟩ : ∃ m, m = BinaryFormat.roundDiv (BinaryFormat.scaled a b e).1
    (BinaryFormat.scaled a b e).2 := ⟨_, rfl⟩
  rw [← he] at hplaces
  obtain ⟨hpos, hscaled⟩ := scaled_eq (a := a) hb e
  have hwhole : NearestWhole ((a : ℚ) / b / 2 ^ e) m := by
    rw [← hscaled, hm]
    exact nearestWhole_roundDiv hpos
  have hround {m' : Nat} {e' : Int}
      (h : (if m = pow2 f.precision then (m / 2, e + 1) else (m, e)) = (m', e')) :
      f.round a b = if e' ≤ f.maxExponent then some (m', e') else none := by
    simp only [BinaryFormat.round, ← he, ← hm, h]
  by_cases hcarry : m = pow2 f.precision
  · exact ⟨m / 2, e + 1, fun _ => isNearest_of_carry hf hplaces hwhole hcarry,
      hround (if_pos hcarry)⟩
  · exact ⟨m, e, fun _ => isNearest_of_short hf hplaces hwhole hcarry, hround (if_neg hcarry)⟩

theorem isNearest_zero (f : BinaryFormat) (negative : Bool) :
    (zero f negative).IsNearest f 0 := by
  have hsize : (zero f negative).size = 0 := by simp [size, zero]
  have hfits : (zero f negative).Fits f :=
    ⟨pow2_pos _, le_refl _, fun h => absurd h (lt_irrefl _)⟩
  refine ⟨hfits, fun y _ => ?_, fun y _ _ _ => rfl⟩
  rw [hsize, sub_zero, abs_zero]
  exact abs_nonneg _

/-- A fraction becomes the number that it is rounded to, and none where it is too large. -/
theorem ofFraction_eq_some_iff (hf : 2 ≤ f.precision) (hrange : f.minExponent ≤ f.maxExponent)
    (hb : 0 < b) : ofFraction f negative a b = some x ↔ Rounds f negative (a / b) x := by
  rcases Nat.eq_zero_or_pos a with rfl | ha
  · have hzero := isNearest_zero f negative
    simp only [ofFraction, if_pos, Option.some.injEq, Nat.cast_zero, zero_div]
    constructor
    · rintro rfl
      exact ⟨rfl, hzero, hrange⟩
    · rintro ⟨rfl, hx, -⟩
      exact hzero.unique hx hf rfl
  · obtain ⟨m, e, hnearest, hround⟩ := round_eq hf ha hb
    rw [ofFraction, if_neg ha.ne', hround]
    constructor
    · intro h
      split at h
      · next hle =>
        obtain rfl := Option.some.inj h
        exact ⟨rfl, hnearest negative, hle⟩
      · simp at h
    · rintro ⟨rfl, hx, hle⟩
      have heq : (⟨x.negative, m, e⟩ : Binary) = x := (hnearest x.negative).unique hx hf rfl
      have he : e ≤ f.maxExponent := by
        rw [← heq] at hle
        exact hle
      rw [if_pos he]
      exact congrArg some heq

end Rounding

end Binary

end DocClient
