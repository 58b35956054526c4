import Mathlib.Algebra.Order.Floor.Semifield
import Mathlib.Data.Rat.Floor
import ValueBridge.Proofs.Binary64.Nearest

/-!
# The integer part

What it is for an integer to be the integer part of a rational toward zero
(`Binary64.IsIntegerPart`): it is of the same sign, and the rational is less than 1 further from
zero. There is one such integer (`Binary64.IsIntegerPart.unique`), and that of a finite number is
the one that is computed from its quanta (`Binary64.isIntegerPart_integerPart`).
-/

namespace ValueBridge.Binary64

variable {x : Binary64} {q : ℚ} {n m : ℤ}

/-- The value of a finite number. -/
def value (x : Binary64) : ℚ :=
  if x.negative then -x.absValue else x.absValue

/-- The integer is the rational without its fraction. -/
structure IsIntegerPart (q : ℚ) (n : ℤ) : Prop where
  abs_le : |(n : ℚ)| ≤ |q|
  lt_abs : |q| < |(n : ℚ)| + 1
  sign : 0 ≤ n * q

namespace IsIntegerPart

/-- A rational that is less than 1 away from zero has no integer part. -/
theorem eq_zero (h : IsIntegerPart q n) (hlow : -1 < q) (hhigh : q < 1) : n = 0 := by
  have habs : |(n : ℚ)| < 1 := h.abs_le.trans_lt (abs_lt.2 ⟨hlow, hhigh⟩)
  rw [← Int.abs_lt_one_iff]
  exact_mod_cast habs

/-- There is one integer part. -/
theorem unique (hn : IsIntegerPart q n) (hm : IsIntegerPart q m) : n = m := by
  have hle : |n| ≤ |m| := by
    have hlt := hn.abs_le.trans_lt hm.lt_abs
    exact Int.lt_add_one_iff.1 (by exact_mod_cast hlt)
  have hge : |m| ≤ |n| := by
    have hlt := hm.abs_le.trans_lt hn.lt_abs
    exact Int.lt_add_one_iff.1 (by exact_mod_cast hlt)
  rcases abs_eq_abs.1 (hle.antisymm hge) with heq | heq
  · exact heq
  · -- Opposite integers are both on the side of the rational, so that they are zero.
    have hsign := hn.sign
    have hsign' := hm.sign
    rw [heq, Int.cast_neg, neg_mul] at hsign
    have hzero : (m : ℚ) * q = 0 := by linarith
    rcases mul_eq_zero.1 hzero with hm0 | hq
    · rw [heq, Int.cast_eq_zero.1 hm0, neg_zero]
    · have hle := hm.abs_le
      rw [hq, abs_zero] at hle
      rw [heq, Int.cast_eq_zero.1 (abs_nonpos_iff.1 hle), neg_zero]

/-- A natural and the rational that it is the floor of. -/
theorem of_floor {k : ℕ} (hle : (k : ℚ) ≤ q) (hlt : q < k + 1) : IsIntegerPart q k := by
  have hk : (0 : ℚ) ≤ k := Nat.cast_nonneg k
  refine ⟨?_, ?_, ?_⟩
  · rwa [Int.cast_natCast, abs_of_nonneg hk, abs_of_nonneg (hk.trans hle)]
  · rwa [Int.cast_natCast, abs_of_nonneg hk, abs_of_nonneg (hk.trans hle)]
  · rw [Int.cast_natCast]
    exact mul_nonneg hk (hk.trans hle)

theorem neg (h : IsIntegerPart q n) : IsIntegerPart (-q) (-n) where
  abs_le := by rw [Int.cast_neg, abs_neg, abs_neg]; exact h.abs_le
  lt_abs := by rw [Int.cast_neg, abs_neg, abs_neg]; exact h.lt_abs
  sign := by rw [Int.cast_neg, neg_mul_neg]; exact h.sign

end IsIntegerPart

/-- The integer part of a finite number is that of its value. -/
theorem isIntegerPart_integerPart (hfinite : x.isFinite = true) :
    IsIntegerPart x.value x.integerPart := by
  have hfloor : ⌊x.absValue⌋₊ = x.quanta / quantaPerUnit := Nat.floor_div_eq_div _ _
  have hnonneg : 0 ≤ x.absValue := div_nonneg (Nat.cast_nonneg _) (Nat.cast_nonneg _)
  have habs : IsIntegerPart x.absValue (x.quanta / quantaPerUnit : ℕ) := by
    rw [← hfloor]
    exact .of_floor (Nat.floor_le hnonneg) (Nat.lt_floor_add_one _)
  rw [value, integerPart, if_pos hfinite]
  cases x.negative
  · exact habs
  · exact habs.neg

end ValueBridge.Binary64
