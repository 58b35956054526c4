import Mathlib.Algebra.Order.Field.Power
import Mathlib.Data.List.TakeWhile
import Mathlib.Data.Rat.Cast.Order
import Mathlib.Tactic.FieldSimp
import Mathlib.Tactic.NormNum
import Mathlib.Tactic.Positivity
import ValueBridge.Decimal
import ValueBridge.Proofs.Binary64.Nearest

/-!
# Magnitudes of decimals

A decimal denotes a rational number, its *magnitude*, besides its sign. The number nearest to a
decimal is that nearest to its magnitude, however the decimal is written and wherever its point
is (`Decimal.isNearest_iff`, `Decimal.toBinary64_congr`): the bounds at which the powers of ten are
not computed make no difference (`Decimal.toBinary64_eq_nearest`).

A numeral without the zeros at its end has the same magnitude (`Numeral.magnitude_stripped`), and
the position of the point tells the power of ten below it (`Numeral.magnitude_bounds`).
-/

namespace ValueBridge

/-! ## Quotients far out -/

namespace Binary64

/-- From this power of ten on, a quotient is beyond all numbers. -/
def overflowPower : Nat := 309

/-- Below this power of a tenth, a quotient is below half of the least number. -/
def underflowPower : Nat := 324

theorem infinity_le : 2 ^ infinityLog ≤ 10 ^ overflowPower * quantaPerUnit := by decide +kernel

theorem two_mul_quantaPerUnit_le : 2 * quantaPerUnit ≤ 10 ^ underflowPower := by decide +kernel

theorem nearest_of_le (negative : Bool) {num den : Nat} (hden : 0 < den)
    (h : 10 ^ overflowPower * den ≤ num) : nearest negative num den = infinity negative := by
  have hnum : 2 ^ infinityLog * den ≤ num * quantaPerUnit :=
    calc 2 ^ infinityLog * den ≤ 10 ^ overflowPower * quantaPerUnit * den :=
          Nat.mul_le_mul_right den infinity_le
      _ = 10 ^ overflowPower * den * quantaPerUnit := Nat.mul_right_comm ..
      _ ≤ num * quantaPerUnit := Nat.mul_le_mul_right _ h
  rw [nearest, nearestWord_of_le hden hnum, infinity]

theorem nearest_of_lt (negative : Bool) {num den : Nat} (h : num * 10 ^ underflowPower < den) :
    nearest negative num den = zero negative := by
  have hnum : 2 * (num * quantaPerUnit) < den :=
    calc 2 * (num * quantaPerUnit) = num * (2 * quantaPerUnit) := Nat.mul_left_comm ..
      _ ≤ num * 10 ^ underflowPower := Nat.mul_le_mul_left num two_mul_quantaPerUnit_le
      _ < den := h
  rw [nearest, nearestWord_of_lt hnum, zero]

end Binary64

/-! ## Decimals -/

namespace Decimal

open Binary64

variable {d d' : Decimal}

/-- The rational number that a decimal denotes, but for its sign. -/
def magnitude (d : Decimal) : ℚ :=
  d.coefficient * 10 ^ d.exponent

/-- The number nearest to a decimal is the nearest one to a quotient, wherever the decimal is. -/
theorem toBinary64_eq_nearest (d : Decimal) : d.toBinary64 =
    .nearest d.negative (d.coefficient * 10 ^ d.exponent.toNat) (10 ^ (-d.exponent).toNat) := by
  rw [toBinary64]
  split
  · next hsmall =>
    symm
    refine nearest_of_lt _ ?_
    rcases hsmall with hzero | hunder
    · rw [hzero, Nat.zero_mul, Nat.zero_mul]
      exact Nat.pow_pos (by decide)
    · -- A coefficient of so many binary digits has no more decimal ones.
      have hcoefficient : d.coefficient < 10 ^ (d.coefficient.log2 + 1) :=
        Nat.lt_of_lt_of_le Nat.lt_log2_self (Nat.pow_le_pow_left (by decide) _)
      rw [underflowExponent] at hunder
      have hexponent : d.exponent.toNat = 0 := by omega
      rw [hexponent, Nat.pow_zero, Nat.mul_one]
      have hpower :
          10 ^ (d.coefficient.log2 + 1) * 10 ^ underflowPower ≤ 10 ^ (-d.exponent).toNat := by
        rw [← Nat.pow_add, underflowPower]
        exact Nat.pow_le_pow_right (by decide) (by omega)
      exact Nat.lt_of_lt_of_le
        (Nat.mul_lt_mul_of_pos_right hcoefficient (Nat.pow_pos (by decide))) hpower
  · next hnot =>
    rw [not_or] at hnot
    split
    · next hover =>
      symm
      rw [overflowExponent] at hover
      have hexponent : (-d.exponent).toNat = 0 := by omega
      rw [hexponent, Nat.pow_zero]
      refine nearest_of_le _ Nat.one_pos ?_
      have hpower : overflowPower ≤ d.exponent.toNat := by
        rw [overflowPower]
        omega
      rw [Nat.mul_one]
      calc 10 ^ overflowPower ≤ 10 ^ d.exponent.toNat :=
            Nat.pow_le_pow_right (by decide) hpower
        _ ≤ d.coefficient * 10 ^ d.exponent.toNat :=
            Nat.le_mul_of_pos_left _ (Nat.pos_of_ne_zero hnot.1)
    · rfl

theorem magnitude_eq_div (d : Decimal) :
    d.magnitude = (d.coefficient * 10 ^ d.exponent.toNat : ℕ) / (10 ^ (-d.exponent).toNat : ℕ) := by
  rw [magnitude]
  push_cast
  rcases Int.le_total 0 d.exponent with hexponent | hexponent
  · have hpower : (10 : ℚ) ^ d.exponent = 10 ^ d.exponent.toNat := by
      rw [← zpow_natCast, Int.toNat_of_nonneg hexponent]
    rw [hpower, show (-d.exponent).toNat = 0 by omega, pow_zero, div_one]
  · have hpower : (10 : ℚ) ^ d.exponent = (10 ^ (-d.exponent).toNat)⁻¹ := by
      rw [← zpow_natCast, Int.toNat_of_nonneg (by omega), zpow_neg, inv_inv]
    rw [hpower, show d.exponent.toNat = 0 by omega, pow_zero, mul_one, div_eq_mul_inv]

/-- The number of a decimal is the nearest one to what the decimal denotes. -/
theorem isNearest_iff {x : Binary64} :
    IsNearest d.negative d.magnitude x ↔ x = d.toBinary64 := by
  rw [magnitude_eq_div, toBinary64_eq_nearest]
  exact Binary64.isNearest_iff (Nat.pow_pos (by decide))

/-- Decimals that denote the same have the same number nearest to them. -/
theorem toBinary64_congr (hnegative : d.negative = d'.negative)
    (hmagnitude : d.magnitude = d'.magnitude) : d.toBinary64 = d'.toBinary64 := by
  have hpower (n : ℕ) : 0 < 10 ^ n := Nat.pow_pos (by decide)
  have hcast (n : ℕ) : ((10 ^ n : ℕ) : ℚ) ≠ 0 := Nat.cast_ne_zero.2 (hpower n).ne'
  rw [magnitude_eq_div, magnitude_eq_div, div_eq_div_iff (hcast _) (hcast _)] at hmagnitude
  norm_cast at hmagnitude
  rw [toBinary64_eq_nearest, toBinary64_eq_nearest, hnegative, nearest, nearest]
  refine congrArg (ofWord d'.negative) (nearestWord_congr (hpower _) (hpower _) ?_)
  rw [Nat.mul_right_comm, hmagnitude, Nat.mul_right_comm]

theorem toBinary64_of_le (h : 10 ^ (overflowPower : ℤ) ≤ d.magnitude) :
    d.toBinary64 = .infinity d.negative := by
  have hpower : 0 < 10 ^ (-d.exponent).toNat := Nat.pow_pos (by decide)
  rw [magnitude_eq_div, le_div_iff₀ (Nat.cast_pos.2 hpower)] at h
  rw [toBinary64_eq_nearest]
  exact nearest_of_le _ hpower (by exact_mod_cast h)

theorem toBinary64_of_lt (h : d.magnitude < 10 ^ (-underflowPower : ℤ)) :
    d.toBinary64 = .zero d.negative := by
  have hpower : 0 < 10 ^ (-d.exponent).toNat := Nat.pow_pos (by decide)
  rw [magnitude_eq_div, div_lt_iff₀ (Nat.cast_pos.2 hpower), zpow_neg, ← div_eq_inv_mul,
    lt_div_iff₀ (by positivity)] at h
  rw [toBinary64_eq_nearest]
  exact nearest_of_lt _ (by exact_mod_cast h)

end Decimal

/-! ## Numerals -/

namespace Numeral

variable {c : Nat} {e : Int}

theorem magnitude_toDecimal (n : Numeral) (negative : Bool) :
    (n.toDecimal negative).magnitude =
      (Nat.ofDigitChars 10 n.digits 0 : ℚ) * 10 ^ (n.point - n.digits.length) := rfl

/-- The zeros at the end of digits are so many factors of ten. -/
theorem exists_zeros (digits : List Char) :
    ∃ count,
      digits = (digits.reverse.dropWhile (· == '0')).reverse ++ List.replicate count '0' := by
  refine ⟨(digits.reverse.takeWhile (· == '0')).length, ?_⟩
  have hzeros : (digits.reverse.takeWhile (· == '0')).reverse =
      List.replicate (digits.reverse.takeWhile (· == '0')).length '0' := by
    refine List.eq_replicate_iff.2 ⟨List.length_reverse, fun c hc => ?_⟩
    simpa using List.mem_takeWhile_imp (List.mem_reverse.1 hc)
  rw [← hzeros, ← List.reverse_append, List.takeWhile_append_dropWhile, List.reverse_reverse]

theorem magnitude_stripped (n : Numeral) (negative : Bool) :
    (n.stripped.toDecimal negative).magnitude = (n.toDecimal negative).magnitude := by
  obtain ⟨count, hcount⟩ := exists_zeros n.digits
  rw [magnitude_toDecimal, magnitude_toDecimal, stripped]
  dsimp only
  generalize (n.digits.reverse.dropWhile (· == '0')).reverse = digits at hcount
  rw [hcount, Nat.ofDigitChars_append, Nat.ofDigitChars_replicate_zero, List.length_append,
    List.length_replicate]
  push_cast
  rw [mul_comm (10 ^ count : ℚ), mul_assoc, ← zpow_natCast, ← zpow_add₀ (by norm_num)]
  congr 2
  omega

/-- The numeral of a scaled natural denotes it. -/
theorem magnitude_ofScaled (c : Nat) (e : Int) (negative : Bool) :
    ((ofScaled c e).toDecimal negative).magnitude = c * 10 ^ e := by
  rw [ofScaled, magnitude_stripped, magnitude_toDecimal, Nat.ofDigitChars_ten_toDigits,
    add_sub_cancel_left]

/-- The point is after the first digit of the power of ten below. -/
theorem magnitude_bounds (hc : c ≠ 0) (negative : Bool) :
    10 ^ ((ofScaled c e).point - 1) ≤ ((ofScaled c e).toDecimal negative).magnitude ∧
      ((ofScaled c e).toDecimal negative).magnitude < 10 ^ (ofScaled c e).point := by
  have hpoint : (ofScaled c e).point = (Nat.toDigits 10 c).length + e := rfl
  obtain ⟨length, hlength⟩ : ∃ length, (Nat.toDigits 10 c).length = length + 1 :=
    Nat.exists_eq_add_one.2 Nat.length_toDigits_pos
  have hupper : c < 10 ^ (length + 1) :=
    (Nat.length_toDigits_le_iff (by decide) (by omega)).1 hlength.le
  have hlower : 10 ^ length ≤ c := by
    by_contra hlt
    rw [not_le] at hlt
    cases length with
    | zero => omega
    | succ length =>
      have := (Nat.length_toDigits_le_iff (by decide) (by omega)).2 hlt
      omega
  rw [magnitude_ofScaled, hpoint, hlength]
  push_cast
  constructor
  · rw [show (length : ℤ) + 1 + e - 1 = length + e by omega, zpow_add₀ (by norm_num), zpow_natCast]
    gcongr
    exact_mod_cast hlower
  · rw [zpow_add₀ (by norm_num), ← Nat.cast_one, ← Nat.cast_add, zpow_natCast]
    gcongr
    exact_mod_cast hupper

end Numeral

end ValueBridge
