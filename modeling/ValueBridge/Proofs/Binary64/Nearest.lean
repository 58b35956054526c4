import Mathlib.Algebra.Order.Field.Rat
import Mathlib.Data.Nat.Cast.Order.Field
import Mathlib.Data.Rat.Cast.Order
import Mathlib.Tactic.FieldSimp
import Mathlib.Tactic.Linarith
import Mathlib.Tactic.NormNum
import Mathlib.Tactic.Positivity
import Mathlib.Tactic.Ring
import ValueBridge.Proofs.Binary64.Rounding

/-!
# The nearest number

What it is for a number to be the one nearest to a rational (`Binary64.IsNearest`), said of the
numbers alone and not of how one is found: no number is nearer, of two that are as near it is the
one whose significand is even, and from half way between the largest number and the power of two
above it on it is infinite. There is one such number for every sign and magnitude, and it is what
rounding gives (`Binary64.isNearest_iff`).

A quotient is rounded to a multiple of a power of two, its significand at its distance. The numbers
that are no such multiples are all on the far side of one that is one (`Binary64.quanta_grid`), so
that nothing nearer is missed (`Binary64.abs_rounded_sub_le`).
-/

namespace ValueBridge.Binary64

/-- The absolute value of a finite number. -/
def absValue (x : Binary64) : ℚ :=
  x.quanta / quantaPerUnit

/-- Half way from the largest number to the power of two above it. -/
def overflowBound : ℚ :=
  2 ^ 1024 - 2 ^ 970

/-- The number is the nearest one to the rational of the given sign and magnitude. -/
structure IsNearest (negative : Bool) (q : ℚ) (x : Binary64) : Prop where
  negative_eq : x.negative = negative
  isNaN_eq : x.isNaN = false
  isFinite_iff : x.isFinite = true ↔ q < overflowBound
  le_abs : x.isFinite = true → ∀ y : Binary64, y.isFinite = true →
    |x.absValue - q| ≤ |y.absValue - q|
  even : x.isFinite = true → ∀ y : Binary64, y.isFinite = true → y.absValue ≠ x.absValue →
    |x.absValue - q| = |y.absValue - q| → Even x.significand

/-! ## The order of patterns -/

variable {x y : Binary64}

theorem even_fractionSize : Even fractionSize := ⟨fractionSize / 2, rfl⟩

theorem fractionField_lt (x : Binary64) : x.fractionField < fractionSize :=
  Nat.mod_lt _ (by decide)

/-- A significand is even if the last bit of the pattern is none. -/
theorem even_significand_iff : Even x.significand ↔ Even x.word := by
  have hfields : Even (x.exponentField * fractionSize) := even_fractionSize.mul_left _
  rw [word_eq_fields, Nat.even_add, iff_true_left hfields, significand]
  split
  · rfl
  · rw [Nat.even_add, iff_true_left even_fractionSize]

theorem significand_lt (x : Binary64) : x.significand < 2 * fractionSize := by
  have := x.fractionField_lt
  rw [significand]
  split <;> omega

theorem quanta_lt (x : Binary64) : x.quanta < fractionSize * 2 ^ x.exponentField := by
  rw [quanta, Nat.pow_eq]
  by_cases hexponent : x.exponentField = 0
  · rw [significand, if_pos hexponent, hexponent]
    exact Nat.mul_lt_mul_of_pos_right x.fractionField_lt Nat.one_pos
  · obtain ⟨e, he⟩ := Nat.exists_eq_succ_of_ne_zero hexponent
    rw [he, Nat.succ_sub_one, Nat.pow_succ', ← Nat.mul_assoc, Nat.mul_comm fractionSize]
    exact Nat.mul_lt_mul_of_pos_right x.significand_lt (Nat.two_pow_pos _)

theorem le_quanta (hexponent : x.exponentField ≠ 0) :
    fractionSize * 2 ^ (x.exponentField - 1) ≤ x.quanta := by
  rw [quanta, Nat.pow_eq, significand, if_neg hexponent]
  exact Nat.mul_le_mul_right _ (Nat.le_add_right _ _)

theorem fields_lt {e e' f f' : Nat} (hf : f < fractionSize) (h : e < e') :
    e * fractionSize + f < e' * fractionSize + f' := by
  have := Nat.mul_le_mul_right fractionSize h
  rw [Nat.succ_mul] at this
  omega

/-- The magnitudes of numbers are ordered as their patterns are. -/
theorem quanta_lt_quanta (h : x.word < y.word) : x.quanta < y.quanta := by
  rw [word_eq_fields, word_eq_fields] at h
  rcases Nat.lt_trichotomy x.exponentField y.exponentField with hlt | heq | hgt
  · calc x.quanta < fractionSize * 2 ^ x.exponentField := x.quanta_lt
      _ ≤ fractionSize * 2 ^ (y.exponentField - 1) :=
        Nat.mul_le_mul_left _ (Nat.pow_le_pow_right (by decide) (Nat.le_sub_one_of_lt hlt))
      _ ≤ y.quanta := le_quanta (Nat.ne_zero_of_lt hlt)
  · rw [heq] at h
    have hsignificand : x.significand < y.significand := by
      rw [significand, significand, heq]
      split <;> omega
    rw [quanta, quanta, heq]
    exact Nat.mul_lt_mul_of_pos_right hsignificand (Nat.two_pow_pos _)
  · exact absurd h (Nat.lt_asymm (fields_lt y.fractionField_lt hgt))

/-- A pattern has its fields and no others. -/
theorem fields_eq {e f : Nat} (hf : f < fractionSize) (h : x.word = e * fractionSize + f) :
    x.exponentField = e ∧ x.fractionField = f := by
  rw [word_eq_fields] at h
  rcases Nat.lt_trichotomy x.exponentField e with hlt | heq | hgt
  · exact absurd h (Nat.ne_of_lt (fields_lt x.fractionField_lt hlt))
  · rw [heq, Nat.add_left_cancel_iff] at h
    exact ⟨heq, h⟩
  · exact absurd h (Nat.ne_of_gt (fields_lt hf hgt))

theorem quanta_congr (h : x.word = y.word) : x.quanta = y.quanta := by
  obtain ⟨hexponent, hfraction⟩ := fields_eq y.fractionField_lt (h.trans y.word_eq_fields)
  rw [quanta, quanta, significand, significand, hexponent, hfraction]

theorem word_lt_word (h : x.quanta < y.quanta) : x.word < y.word := by
  rcases Nat.lt_trichotomy x.word y.word with hless | heq | hmore
  · exact hless
  · exact absurd (quanta_congr heq) h.ne
  · exact absurd (quanta_lt_quanta hmore) h.le.not_gt

/-- The magnitude by a pattern that is put together of a significand and its distance; a
    significand of one bit more than fits is the first of the next distance. -/
theorem quanta_of_word {shift r : Nat} (hr : r ≤ 2 * fractionSize)
    (hshift : shift = 0 ∨ fractionSize ≤ r) (hword : x.word = shift * fractionSize + r) :
    x.quanta = r * 2 ^ shift := by
  rw [quanta, Nat.pow_eq, significand]
  rcases Nat.lt_or_ge r fractionSize with hsmall | hfull
  · obtain rfl := hshift.resolve_right (Nat.not_le.2 hsmall)
    obtain ⟨hexponent, hfraction⟩ := fields_eq hsmall hword
    rw [if_pos hexponent, hexponent, hfraction]
  rcases Nat.lt_or_ge r (2 * fractionSize) with hless | hmore
  · have hfields : x.word = (shift + 1) * fractionSize + (r - fractionSize) := by
      rw [hword, Nat.succ_mul]
      omega
    obtain ⟨hexponent, hfraction⟩ := fields_eq (by omega) hfields
    rw [if_neg (by omega), hexponent, hfraction, Nat.add_sub_cancel' hfull, Nat.add_sub_cancel]
  · obtain rfl := Nat.le_antisymm hr hmore
    have hfields : x.word = (shift + 2) * fractionSize + 0 := by
      rw [hword, Nat.add_mul, Nat.add_zero]
    obtain ⟨hexponent, hfraction⟩ := fields_eq (by decide) hfields
    rw [if_neg (by omega), hexponent, hfraction, Nat.add_zero, Nat.add_sub_assoc (by decide),
      Nat.pow_succ', ← Nat.mul_assoc, Nat.mul_comm fractionSize]

/-- A number is a multiple of a power of two, or below the least significand with a leading bit at
    the distance of the power. -/
theorem quanta_grid (y : Binary64) (shift : Nat) :
    (∃ k, y.quanta = k * 2 ^ shift) ∨ shift ≠ 0 ∧ y.quanta < fractionSize * 2 ^ shift := by
  rcases Nat.lt_or_ge (y.exponentField - 1) shift with hlt | hge
  · refine .inr ⟨Nat.ne_zero_of_lt hlt, Nat.lt_of_lt_of_le y.quanta_lt ?_⟩
    exact Nat.mul_le_mul_left _ (Nat.pow_le_pow_right (by decide) (by omega))
  · refine .inl ⟨y.significand * 2 ^ (y.exponentField - 1 - shift), ?_⟩
    rw [quanta, Nat.pow_eq, Nat.mul_assoc, ← Nat.pow_add, Nat.sub_add_cancel hge]

/-! ## The nearest natural -/

/-- The natural is the nearest one to the rational, and the even one of two that are as near. -/
structure IsRounded (r : ℕ) (t : ℚ) : Prop where
  le_half : |(r : ℚ) - t| ≤ 1 / 2
  even : |(r : ℚ) - t| = 1 / 2 → Even r

namespace IsRounded

variable {r k : ℕ} {t : ℚ} (h : IsRounded r t)

include h

theorem half_le (hk : k ≠ r) : 1 / 2 ≤ |(k : ℚ) - t| := by
  have hone : (1 : ℚ) ≤ |(k : ℚ) - r| := by
    have : (1 : ℤ) ≤ |(k : ℤ) - r| := Int.one_le_abs (sub_ne_zero.2 (Nat.cast_injective.ne hk))
    exact_mod_cast this
  have htriangle := abs_sub_le (k : ℚ) t r
  rw [abs_sub_comm t] at htriangle
  linarith [h.le_half]

theorem abs_le_abs (k : ℕ) : |(r : ℚ) - t| ≤ |(k : ℚ) - t| := by
  by_cases hk : k = r
  · rw [hk]
  · exact h.le_half.trans (h.half_le hk)

theorem even_of_abs_eq (hk : k ≠ r) (heq : |(r : ℚ) - t| = |(k : ℚ) - t|) : Even r :=
  h.even (h.le_half.antisymm (heq ▸ h.half_le hk))

/-- An even natural is reached from half a unit below it on. -/
theorem le_iff_of_even (hk : Even k) : k ≤ r ↔ (k : ℚ) - 1 / 2 ≤ t := by
  have hnear := abs_le.1 h.le_half
  constructor
  · intro hle
    have : (k : ℚ) ≤ r := Nat.cast_le.2 hle
    linarith
  · intro hle
    by_contra hlt
    rw [not_le] at hlt
    have hstep : (r : ℚ) + 1 ≤ k := by exact_mod_cast hlt
    -- The natural is the one below the even one, and the rational is in the middle.
    have hmiddle : t = r + 1 / 2 := by linarith
    have hnext : k = r + 1 := by
      have : (k : ℚ) ≤ r + 1 := by linarith
      exact Nat.le_antisymm (by exact_mod_cast this) hlt
    have heven : Even r := by
      refine h.even ?_
      rw [hmiddle, sub_add_cancel_left, abs_neg, abs_of_pos one_half_pos]
    rw [hnext, Nat.even_add_one] at hk
    exact hk heven

theorem le_of_lt (hlt : t < k) : r ≤ k := by
  have hnear := abs_le.1 h.le_half
  have : (r : ℚ) < k + 1 := by linarith
  exact Nat.lt_succ_iff.1 (by exact_mod_cast this)

end IsRounded

theorem isRounded_below {q : ℕ} {part : ℚ} (hnonneg : 0 ≤ part) (hle : part ≤ 1 / 2)
    (heven : part = 1 / 2 → Even q) : IsRounded q (q + part) := by
  have habs : |(q : ℚ) - (q + part)| = part := by
    rw [sub_add_cancel_left, abs_neg, abs_of_nonneg hnonneg]
  exact ⟨habs.trans_le hle, fun h => heven (habs.symm.trans h)⟩

theorem isRounded_above {q : ℕ} {part : ℚ} (hlt : part < 1) (hle : 1 / 2 ≤ part)
    (heven : part = 1 / 2 → Even (q + 1)) : IsRounded (q + 1) (q + part) := by
  have habs : |((q + 1 : ℕ) : ℚ) - (q + part)| = 1 - part := by
    rw [Nat.cast_add_one, add_sub_add_left_eq_sub, abs_of_pos (sub_pos.2 hlt)]
  exact ⟨by linarith, fun h => heven (by linarith)⟩

/-- A quotient is the natural below it and a part of a unit, and the remainder tells on which side
    of a half the part is. -/
theorem exists_part (num : ℕ) {den : ℕ} (hden : 0 < den) :
    ∃ part : ℚ, (num : ℚ) / den = (num / den : ℕ) + part ∧ 0 ≤ part ∧ part < 1 ∧
      (2 * (num % den) < den ↔ part < 1 / 2) ∧ (den < 2 * (num % den) ↔ 1 / 2 < part) := by
  have hpos : (0 : ℚ) < den := Nat.cast_pos.2 hden
  refine ⟨(num % den : ℕ) / den, ?_, by positivity, ?_, ?_, ?_⟩
  · rw [div_eq_iff hpos.ne', add_mul, div_mul_cancel₀ _ hpos.ne']
    exact_mod_cast (Nat.div_add_mod' num den).symm
  · rw [div_lt_one hpos]
    exact_mod_cast Nat.mod_lt num hden
  · rw [div_lt_div_iff₀ hpos two_pos, one_mul, mul_comm]
    exact_mod_cast Iff.rfl
  · rw [div_lt_div_iff₀ two_pos hpos, one_mul, mul_comm (_ : ℚ) 2]
    exact_mod_cast Iff.rfl

theorem isRounded_roundHalfEven (num : ℕ) {den : ℕ} (hden : 0 < den) :
    IsRounded (roundHalfEven num den) (num / den) := by
  obtain ⟨part, hquotient, hnonneg, hlt, hbelow, habove⟩ := exists_part num hden
  simp only [roundHalfEven, hbelow, habove, hquotient]
  split
  · next hless => exact isRounded_below hnonneg hless.le fun heq => absurd heq hless.ne
  · next hnotless =>
    split
    · next hmore => exact isRounded_above hlt hmore.le fun heq => absurd heq.symm hmore.ne
    · next hnotmore =>
      rcases Nat.even_or_odd (num / den) with heven | hodd
      · rw [Nat.even_iff.1 heven, Nat.add_zero]
        exact isRounded_below hnonneg (not_lt.1 hnotmore) fun _ => heven
      · rw [Nat.odd_iff.1 hodd]
        exact isRounded_above hlt (not_lt.1 hnotless) fun _ => hodd.add_one

/-! ## The nearest pattern -/

/-- The distance from its end at which a quotient is rounded. -/
def distance (num den : Nat) : Nat :=
  (num / den).log2 - 52

/-- The significand that a quotient is rounded to, which may be the first that does not fit. -/
def roundedSignificand (num den : Nat) : Nat :=
  roundHalfEven num (den * 2 ^ distance num den)

theorem nearestWord_eq (num den : Nat) : nearestWord num den =
    min (distance num den * fractionSize + roundedSignificand num den) infinityWord := by
  rw [roundedSignificand, ← Nat.pow_eq]
  rfl

section

variable (num : ℕ) {den : ℕ} (hden : 0 < den)

include hden

/-- A quotient is below the first significand that does not fit, at its distance. -/
theorem quotient_lt : (num : ℚ) / den < 2 * fractionSize * 2 ^ distance num den := by
  have hlog : num / den < 2 ^ ((num / den).log2 + 1) := Nat.lt_log2_self
  have hpower : 2 ^ ((num / den).log2 + 1) ≤ 2 * fractionSize * 2 ^ distance num den := by
    rw [show 2 * fractionSize = 2 ^ 53 from rfl, ← Nat.pow_add, distance]
    exact Nat.pow_le_pow_right (by decide) (by omega)
  rw [div_lt_iff₀ (Nat.cast_pos.2 hden)]
  exact_mod_cast (Nat.div_lt_iff_lt_mul hden).1 (Nat.lt_of_lt_of_le hlog hpower)

/-- It is not below the first significand with a leading bit, unless its distance is none. -/
theorem le_quotient (hdistance : distance num den ≠ 0) :
    (fractionSize : ℚ) * 2 ^ distance num den ≤ num / den := by
  have hne : num / den ≠ 0 := by
    intro hzero
    rw [distance, hzero] at hdistance
    exact hdistance rfl
  have hpower : fractionSize * 2 ^ distance num den = 2 ^ (num / den).log2 := by
    rw [show fractionSize = 2 ^ 52 from rfl, ← Nat.pow_add]
    rw [distance] at hdistance ⊢
    congr 1
    omega
  have hle : fractionSize * 2 ^ distance num den ≤ num / den := hpower ▸ Nat.log2_self_le hne
  rw [le_div_iff₀ (Nat.cast_pos.2 hden)]
  exact_mod_cast (Nat.le_div_iff_mul_le hden).1 hle

theorem isRounded_roundedSignificand :
    IsRounded (roundedSignificand num den) (num / den / 2 ^ distance num den) := by
  have := isRounded_roundHalfEven num (Nat.mul_pos hden (Nat.two_pow_pos (distance num den)))
  rwa [Nat.cast_mul, ← div_div, Nat.cast_pow, Nat.cast_ofNat] at this

theorem roundedSignificand_le : roundedSignificand num den ≤ 2 * fractionSize := by
  refine (isRounded_roundedSignificand num hden).le_of_lt ?_
  rw [div_lt_iff₀ (by positivity)]
  exact_mod_cast quotient_lt num hden

theorem le_roundedSignificand (hdistance : distance num den ≠ 0) :
    fractionSize ≤ roundedSignificand num den := by
  refine ((isRounded_roundedSignificand num hden).le_iff_of_even even_fractionSize).2 ?_
  have := (le_div_iff₀ (by positivity)).2 (le_quotient num hden hdistance)
  linarith

/-- No number is nearer to the quotient than its significand at its distance; and if another one is
    as near, the significand is even. -/
theorem abs_rounded_sub_le (y : Binary64) :
    |((roundedSignificand num den * 2 ^ distance num den : ℕ) : ℚ) - num / den| ≤
        |(y.quanta : ℚ) - num / den| ∧
      (|((roundedSignificand num den * 2 ^ distance num den : ℕ) : ℚ) - num / den| =
        |(y.quanta : ℚ) - num / den| →
          y.quanta ≠ roundedSignificand num den * 2 ^ distance num den →
            Even (roundedSignificand num den)) := by
  have hrounded := isRounded_roundedSignificand num hden
  have hpos : (0 : ℚ) < 2 ^ distance num den := by positivity
  -- Distances on the grid are so many times those of the multiples.
  have hscale (k : ℕ) : |((k * 2 ^ distance num den : ℕ) : ℚ) - num / den| =
      |(k : ℚ) - num / den / 2 ^ distance num den| * 2 ^ distance num den := by
    rw [← abs_of_pos hpos, ← abs_mul, abs_of_pos hpos, sub_mul, div_mul_cancel₀ _ hpos.ne']
    push_cast
    rfl
  rcases y.quanta_grid (distance num den) with ⟨k, hk⟩ | ⟨hdistance, hlt⟩
  · rw [hk, hscale, hscale]
    refine ⟨mul_le_mul_of_nonneg_right (hrounded.abs_le_abs k) hpos.le, fun heq hne => ?_⟩
    refine hrounded.even_of_abs_eq (k := k) ?_ (mul_right_cancel₀ hpos.ne' heq)
    rintro rfl
    exact hne rfl
  · -- Off the grid, a number is below its least significand, which is not above the quotient.
    have hleast := le_quotient num hden hdistance
    have hbelow : (y.quanta : ℚ) < fractionSize * 2 ^ distance num den := by exact_mod_cast hlt
    have hnear := mul_le_mul_of_nonneg_right (hrounded.abs_le_abs fractionSize) hpos.le
    rw [← hscale, ← hscale, Nat.cast_mul fractionSize, Nat.cast_pow, Nat.cast_ofNat,
      abs_of_nonpos (sub_nonpos.2 hleast)] at hnear
    have hfarther : |((roundedSignificand num den * 2 ^ distance num den : ℕ) : ℚ) - num / den| <
        |(y.quanta : ℚ) - num / den| := by
      rw [abs_of_nonpos (sub_nonpos.2 (hbelow.le.trans hleast))]
      linarith
    exact ⟨hfarther.le, fun heq => absurd heq hfarther.ne⟩

/-- The distance of the largest numbers. -/
def topDistance : Nat := 2045

/-- A quotient is rounded to a number if it is less than half a unit of the largest numbers above
    them. -/
theorem nearestWord_lt_iff : nearestWord num den < infinityWord ↔
    (num : ℚ) / den < (2 * fractionSize - 1 / 2) * 2 ^ topDistance := by
  have hsize : (1 : ℚ) ≤ fractionSize := by exact_mod_cast (by decide : 1 ≤ fractionSize)
  have hpower (n : ℕ) : (0 : ℚ) < 2 ^ n := by positivity
  have hword : nearestWord num den < infinityWord ↔
      distance num den * fractionSize + roundedSignificand num den <
        topDistance * fractionSize + 2 * fractionSize := by
    rw [nearestWord_eq, min_lt_iff, or_iff_left (lt_irrefl _),
      show infinityWord = topDistance * fractionSize + 2 * fractionSize from rfl]
  rw [hword]
  rcases Nat.lt_trichotomy (distance num den) topDistance with hlt | heq | hgt
  · refine iff_of_true ?_ ?_
    · have := Nat.mul_le_mul_right fractionSize hlt
      have := roundedSignificand_le num hden
      have : 0 < fractionSize := by decide
      rw [Nat.succ_mul] at *
      omega
    · have hless : (2 : ℚ) ^ distance num den * 2 ≤ 2 ^ topDistance := by
        rw [← pow_succ]
        exact pow_le_pow_right₀ one_le_two hlt
      have := quotient_lt num hden
      have := mul_le_mul_of_nonneg_left hless (zero_le_one.trans hsize)
      have := hpower topDistance
      nlinarith
  · have hrounded := isRounded_roundedSignificand num hden
    rw [heq] at hrounded ⊢
    rw [Nat.add_lt_add_iff_left, ← not_le, hrounded.le_iff_of_even (even_two_mul _), not_le,
      div_lt_iff₀ (hpower _)]
    push_cast
    rfl
  · refine iff_of_false ?_ ?_
    · have := Nat.mul_le_mul_right fractionSize hgt
      have := le_roundedSignificand num hden (Nat.ne_zero_of_lt hgt)
      rw [Nat.succ_mul] at *
      omega
    · have hmore : (2 : ℚ) ^ topDistance * 2 ≤ 2 ^ distance num den := by
        rw [← pow_succ]
        exact pow_le_pow_right₀ one_le_two hgt
      have := le_quotient num hden (Nat.ne_zero_of_lt hgt)
      have := mul_le_mul_of_nonneg_left hmore (zero_le_one.trans hsize)
      have := hpower topDistance
      nlinarith

end

/-- A quotient that is rounded to a number has the magnitude of its significand at its distance. -/
theorem quanta_of_nearestWord {num den : ℕ} (hden : 0 < den) (hword : x.word = nearestWord num den)
    (hfinite : x.isFinite = true) :
    x.quanta = roundedSignificand num den * 2 ^ distance num den ∧
      (Even x.significand ↔ Even (roundedSignificand num den)) := by
  have hlt : x.word < infinityWord := of_decide_eq_true hfinite
  rw [nearestWord_eq] at hword
  have hsum : x.word = distance num den * fractionSize + roundedSignificand num den := by
    rw [hword, min_lt_iff, or_iff_left (lt_irrefl _)] at hlt
    rw [hword, Nat.min_eq_left hlt.le]
  constructor
  · refine quanta_of_word (roundedSignificand_le num hden) ?_ hsum
    exact or_iff_not_imp_left.2 (le_roundedSignificand num hden)
  · rw [even_significand_iff, hsum, Nat.even_add, iff_true_left (even_fractionSize.mul_left _)]

/-! ## The nearest number -/

theorem cast_quantaPerUnit : (quantaPerUnit : ℚ) = 2 ^ quantumPlaces := by
  unfold quantaPerUnit
  generalize quantumPlaces = n
  rw [Nat.pow_eq, Nat.cast_pow, Nat.cast_ofNat]

theorem quantaPerUnit_pos : (0 : ℚ) < quantaPerUnit := by
  rw [cast_quantaPerUnit]
  exact pow_pos two_pos _

theorem abs_absValue_sub (x : Binary64) (q : ℚ) :
    |x.absValue - q| = |(x.quanta : ℚ) - q * quantaPerUnit| / quantaPerUnit := by
  rw [absValue, eq_div_iff quantaPerUnit_pos.ne', ← abs_of_pos quantaPerUnit_pos, ← abs_mul,
    abs_of_pos quantaPerUnit_pos, sub_mul, div_mul_cancel₀ _ quantaPerUnit_pos.ne']

theorem absValue_inj : x.absValue = y.absValue ↔ x.quanta = y.quanta := by
  rw [absValue, absValue, div_left_inj' quantaPerUnit_pos.ne', Nat.cast_inj]

/-- The bound in quanta. -/
theorem overflowBound_mul :
    overflowBound * quantaPerUnit = (2 * fractionSize - 1 / 2) * 2 ^ topDistance := by
  have hsize : (fractionSize : ℚ) = 2 ^ 52 := by exact_mod_cast rfl
  have hbound : overflowBound = (2 ^ 54 - 1) * 2 ^ 970 := by
    rw [overflowBound, sub_mul, one_mul, ← pow_add]
  have htop : (2 : ℚ) ^ topDistance = 2 * (2 ^ 970 * 2 ^ quantumPlaces) := by
    rw [← pow_add, ← pow_succ']
    rfl
  rw [cast_quantaPerUnit, hsize, hbound, htop]
  generalize (2 : ℚ) ^ 970 = power
  ring

/-- Rounding gives the nearest number. -/
theorem isNearest_nearest (negative : Bool) (num : ℕ) {den : ℕ} (hden : 0 < den) :
    IsNearest negative (num / den) (nearest negative num den) := by
  have hquanta : (num : ℚ) / den * quantaPerUnit = ((num * quantaPerUnit : ℕ) : ℚ) / den := by
    rw [Nat.cast_mul, mul_div_right_comm]
  have hle := nearestWord_le (num * quantaPerUnit) den
  have hlt := Nat.lt_of_le_of_lt hle infinityWord_lt
  have hword : (nearest negative num den).word = nearestWord (num * quantaPerUnit) den :=
    word_ofWord hlt
  -- Distances are compared in quanta.
  have hdistance (y : Binary64) : |y.absValue - num / den| =
      |(y.quanta : ℚ) - ((num * quantaPerUnit : ℕ) : ℚ) / den| / quantaPerUnit := by
    rw [abs_absValue_sub, hquanta]
  refine ⟨negative_ofWord hlt, ?_, ?_, ?_, ?_⟩
  · rw [isNaN, hword]
    exact decide_eq_false (Nat.not_lt.2 hle)
  · rw [isFinite, decide_eq_true_iff, hword, nearestWord_lt_iff _ hden, ← overflowBound_mul,
      ← hquanta, mul_lt_mul_iff_left₀ quantaPerUnit_pos]
  · intro hfinite y hy
    rw [hdistance, hdistance, (quanta_of_nearestWord hden hword hfinite).1]
    exact div_le_div_of_nonneg_right (abs_rounded_sub_le _ hden y).1 quantaPerUnit_pos.le
  · intro hfinite y hy hne heq
    obtain ⟨hmagnitude, heven⟩ := quanta_of_nearestWord hden hword hfinite
    rw [ne_eq, absValue_inj, hmagnitude] at hne
    rw [hdistance, hdistance, div_left_inj' quantaPerUnit_pos.ne', hmagnitude] at heq
    exact heven.2 ((abs_rounded_sub_le _ hden y).2 heq hne)

/-! ## There is one -/

/-- Finite numbers of one sign and magnitude are one. -/
theorem eq_of_quanta_eq (hx : x.isFinite = true) (hy : y.isFinite = true)
    (hnegative : x.negative = y.negative) (h : x.quanta = y.quanta) : x = y := by
  rw [← ofWord_word x, ← ofWord_word y, ← nearestWord_quanta hx, ← nearestWord_quanta hy, h,
    hnegative]

/-- Between two finite numbers with even significands there is another number, so neither of them
    is a nearest one to what is half way between them. -/
theorem exists_between (hx : Even x.significand) (hy : Even y.significand)
    (hfinite : y.isFinite = true) (hlt : x.word < y.word) :
    ∃ z : Binary64, z.isFinite = true ∧ x.quanta < z.quanta ∧ z.quanta < y.quanta := by
  rw [even_significand_iff] at hx hy
  have hless : y.word < infinityWord := of_decide_eq_true hfinite
  have hnext : x.word + 1 < y.word := by
    refine Nat.lt_of_le_of_ne hlt ?_
    intro heq
    rw [← heq, Nat.even_add_one] at hy
    exact hy hx
  have hword : (ofWord false (x.word + 1)).word = x.word + 1 :=
    word_ofWord (Nat.lt_trans (Nat.lt_trans hnext hless) infinityWord_lt)
  refine ⟨ofWord false (x.word + 1), ?_, ?_, ?_⟩
  · rw [isFinite, hword]
    exact decide_eq_true (Nat.lt_trans hnext hless)
  · exact quanta_lt_quanta ((Nat.lt_succ_self _).trans_eq hword.symm)
  · exact quanta_lt_quanta (hword.trans_lt hnext)

/-- A number between two that are as far from a rational is nearer to it than they are. -/
theorem abs_sub_lt_of_between {a b c q : ℚ} (hab : a < b) (hbc : b < c)
    (h : |a - q| = |c - q|) : |b - q| < |a - q| := by
  rcases abs_eq_abs.1 h with heq | heq
  · linarith
  · rw [abs_lt, abs_of_neg (by linarith)]
    constructor <;> linarith

namespace IsNearest

variable {negative : Bool} {q : ℚ}

/-- Two nearest numbers that are finite are of one magnitude: otherwise both would be even, and a
    number between them would be nearer. -/
theorem quanta_le (hx : IsNearest negative q x) (hy : IsNearest negative q y)
    (hfinite : x.isFinite = true) (hfinite' : y.isFinite = true) : y.quanta ≤ x.quanta := by
  by_contra hlt
  rw [not_le] at hlt
  have hdistance : |x.absValue - q| = |y.absValue - q| :=
    (hx.le_abs hfinite y hfinite').antisymm (hy.le_abs hfinite' x hfinite)
  have hne : y.absValue ≠ x.absValue := absValue_inj.not.2 hlt.ne'
  have heven := hx.even hfinite y hfinite' hne hdistance
  have heven' := hy.even hfinite' x hfinite hne.symm hdistance.symm
  obtain ⟨z, hz, hxz, hzy⟩ := exists_between heven heven' hfinite' (word_lt_word hlt)
  have hless {u v : Binary64} (h : u.quanta < v.quanta) : u.absValue < v.absValue := by
    rw [absValue, absValue, div_lt_div_iff_of_pos_right quantaPerUnit_pos, Nat.cast_lt]
    exact h
  exact (hx.le_abs hfinite z hz).not_gt (abs_sub_lt_of_between (hless hxz) (hless hzy) hdistance)

/-- Nothing but one number is the nearest to a rational. -/
theorem unique (hx : IsNearest negative q x) (hy : IsNearest negative q y) : x = y := by
  have hnegative : x.negative = y.negative := hx.negative_eq.trans hy.negative_eq.symm
  have hsame : x.isFinite = y.isFinite :=
    Bool.eq_iff_iff.2 (hx.isFinite_iff.trans hy.isFinite_iff.symm)
  cases hfinite : x.isFinite with
  | true =>
    have hfinite' : y.isFinite = true := hsame ▸ hfinite
    exact eq_of_quanta_eq hfinite hfinite' hnegative
      ((quanta_le hy hx hfinite' hfinite).antisymm (quanta_le hx hy hfinite hfinite'))
  | false =>
    rw [eq_infinity hx.isNaN_eq hfinite, eq_infinity hy.isNaN_eq (hsame ▸ hfinite), hnegative]

end IsNearest

theorem isNearest_iff {negative : Bool} {num den : ℕ} (hden : 0 < den) :
    IsNearest negative (num / den) x ↔ x = nearest negative num den := by
  constructor
  · exact fun h => h.unique (isNearest_nearest negative num hden)
  · rintro rfl
    exact isNearest_nearest negative num hden

end ValueBridge.Binary64
