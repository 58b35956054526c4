import Mathlib.Algebra.Group.Nat.Defs
import ValueBridge.Binary64

/-!
# Rounding

Numbers as roundings of quotients (`Binary64.nearestWord`). The rounding of a quotient depends
on its value alone, not on how it is written (`nearestWord_congr`). A finite number is its own
rounding (`nearestWord_quanta`); what is beyond all numbers is rounded to infinity
(`nearestWord_of_le`), and what is nearer to zero than to any other number to zero
(`nearestWord_of_lt`).
-/

namespace ValueBridge.Binary64

/-! ## Patterns -/

theorem word_lt (x : Binary64) : x.word < signSize :=
  Nat.mod_lt _ (by decide)

/-- The sign and the rest are all there is to a number. -/
theorem ofWord_word (x : Binary64) : ofWord x.negative x.word = x := by
  have hbits : (bif x.negative then signSize + x.word else x.word) = x.bits.toNat := by
    have hlt : x.bits.toNat < 18446744073709551616 := x.bits.toNat_lt
    have hsize : signSize = 9223372036854775808 := rfl
    rw [negative, word]
    by_cases hneg : signSize ≤ x.bits.toNat
    · rw [decide_eq_true hneg, cond_true]
      rw [hsize] at hneg ⊢
      omega
    · rw [decide_eq_false hneg, cond_false]
      rw [hsize] at hneg ⊢
      omega
  rw [ofWord, hbits, UInt64.ofNat_toNat]

theorem toNat_bits_ofWord {negative : Bool} {word : Nat} (h : word < signSize) :
    (ofWord negative word).bits.toNat = bif negative then signSize + word else word := by
  refine UInt64.toNat_ofNat_of_lt' ?_
  simp only [signSize] at h
  cases negative <;> simp only [cond_true, cond_false, UInt64.size, signSize] <;> omega

theorem word_ofWord {negative : Bool} {word : Nat} (h : word < signSize) :
    (ofWord negative word).word = word := by
  rw [Binary64.word, toNat_bits_ofWord h]
  cases negative with
  | true => rw [cond_true, Nat.add_mod_left, Nat.mod_eq_of_lt h]
  | false => rw [cond_false, Nat.mod_eq_of_lt h]

theorem negative_ofWord {negative : Bool} {word : Nat} (h : word < signSize) :
    (ofWord negative word).negative = negative := by
  rw [Binary64.negative, toNat_bits_ofWord h]
  cases negative with
  | true => exact decide_eq_true (Nat.le_add_right _ _)
  | false => exact decide_eq_false (Nat.not_le.2 h)

theorem infinityWord_lt : infinityWord < signSize := by decide

theorem isNaN_of_isFinite {x : Binary64} (hfinite : x.isFinite = true) : x.isNaN = false :=
  decide_eq_false (Nat.lt_asymm (of_decide_eq_true hfinite))

/-- A number that is neither finite nor a NaN is an infinity. -/
theorem eq_infinity {x : Binary64} (hnan : x.isNaN = false) (hfinite : x.isFinite = false) :
    x = infinity x.negative := by
  have hword : x.word = infinityWord :=
    Nat.le_antisymm (Nat.le_of_not_lt (of_decide_eq_false hnan))
      (Nat.le_of_not_lt (of_decide_eq_false hfinite))
  rw [infinity, ← hword, ofWord_word]

/-- The fields of a number side by side. -/
theorem word_eq_fields (x : Binary64) :
    x.word = x.exponentField * fractionSize + x.fractionField := by
  simp only [word, exponentField, fractionField, signSize, fractionSize, exponentSize]
  omega

/-! ## Quotients -/

theorem roundHalfEven_mul_right (num den : Nat) {k : Nat} (hk : 0 < k) :
    roundHalfEven (num * k) (den * k) = roundHalfEven num den := by
  have hbelow : 2 * (num % den * k) < den * k ↔ 2 * (num % den) < den := by
    rw [← Nat.mul_assoc, Nat.mul_lt_mul_right hk]
  have habove : den * k < 2 * (num % den * k) ↔ den < 2 * (num % den) := by
    rw [← Nat.mul_assoc, Nat.mul_lt_mul_right hk]
  simp only [roundHalfEven, Nat.mul_div_mul_right _ _ hk, Nat.mul_mod_mul_right, hbelow, habove]

theorem roundHalfEven_one (n : Nat) : roundHalfEven n 1 = n := by
  rw [roundHalfEven, Nat.div_one, Nat.mod_one]
  exact if_pos Nat.one_pos

theorem nearestWord_mul_right (num den : Nat) {k : Nat} (hk : 0 < k) :
    nearestWord (num * k) (den * k) = nearestWord num den := by
  simp only [nearestWord, Nat.mul_div_mul_right _ _ hk]
  rw [Nat.mul_right_comm, roundHalfEven_mul_right _ _ hk]

/-- Equal quotients are rounded alike. -/
theorem nearestWord_congr {num den num' den' : Nat} (hden : 0 < den) (hden' : 0 < den')
    (h : num * den' = num' * den) : nearestWord num den = nearestWord num' den' := by
  rw [← nearestWord_mul_right num den hden', h, Nat.mul_comm den den',
    nearestWord_mul_right num' den' hden]

/-- A quotient whose significand fits, so that it need not be rounded at a distance. -/
theorem nearestWord_of_log2 {significand shift : Nat} (hlog : significand.log2 ≤ 52)
    (hshift : shift = 0 ∨ significand.log2 = 52) :
    nearestWord (significand * 2 ^ shift) 1 =
      min (shift * fractionSize + significand) infinityWord := by
  have hdistance : (significand * 2 ^ shift / 1).log2 - 52 = shift := by
    rw [Nat.div_one]
    rcases hshift with rfl | hfull
    · rw [Nat.pow_zero, Nat.mul_one]
      omega
    · have hpos : significand ≠ 0 := by
        rintro rfl
        cases hfull
      have hbounds := (Nat.log2_eq_iff hpos).1 hfull
      have htwo : 0 < 2 ^ shift := Nat.two_pow_pos shift
      have hne : significand * 2 ^ shift ≠ 0 := Nat.mul_ne_zero hpos (Nat.ne_of_gt htwo)
      have hproduct : (significand * 2 ^ shift).log2 = 52 + shift := by
        refine (Nat.log2_eq_iff hne).2 ⟨?_, ?_⟩
        · rw [Nat.pow_add]
          exact Nat.mul_le_mul_right _ hbounds.1
        · rw [Nat.add_right_comm, Nat.pow_add]
          exact Nat.mul_lt_mul_of_pos_right hbounds.2 htwo
      omega
  have hround : roundHalfEven (significand * 2 ^ shift) (1 * 2 ^ shift) = significand := by
    rw [roundHalfEven_mul_right _ _ (Nat.two_pow_pos shift), roundHalfEven_one]
  simp only [nearestWord, hdistance, Nat.pow_eq, hround]

/-- A finite number is the nearest to itself. -/
theorem nearestWord_quanta {x : Binary64} (hx : x.isFinite = true) :
    nearestWord x.quanta 1 = x.word := by
  have hword := x.word_eq_fields
  have hfinite : x.word < infinityWord := of_decide_eq_true hx
  have hfraction : x.fractionField < fractionSize := Nat.mod_lt _ (by decide)
  have hsize : fractionSize = 2 ^ 52 := rfl
  rw [quanta, Nat.pow_eq]
  by_cases hexponent : x.exponentField = 0
  · -- A number without a leading bit is its fraction.
    have hlog : x.fractionField.log2 ≤ 52 := by
      by_cases hzero : x.fractionField = 0
      · rw [hzero]
        decide
      · exact Nat.le_of_lt ((Nat.log2_lt hzero).2 (hsize ▸ hfraction))
    rw [significand, if_pos hexponent, hexponent, Nat.zero_sub,
      nearestWord_of_log2 hlog (.inl rfl), Nat.zero_mul, Nat.zero_add]
    rw [hexponent, Nat.zero_mul, Nat.zero_add] at hword
    rw [← hword]
    exact Nat.min_eq_left (Nat.le_of_lt hfinite)
  · have hlog : (fractionSize + x.fractionField).log2 = 52 := by
      refine (Nat.log2_eq_iff (by omega)).2 ⟨?_, ?_⟩
      · exact Nat.le_add_right _ _
      · rw [Nat.pow_succ, ← hsize]
        omega
    have hfields : (x.exponentField - 1) * fractionSize + (fractionSize + x.fractionField) =
        x.word := by
      rw [hword, ← Nat.add_assoc, ← Nat.succ_mul, Nat.succ_eq_add_one,
        Nat.sub_add_cancel (by omega)]
    rw [significand, if_neg hexponent, nearestWord_of_log2 (Nat.le_of_eq hlog) (.inr hlog), hfields]
    exact Nat.min_eq_left (Nat.le_of_lt hfinite)

/-! ## Beyond the numbers -/

theorem nearestWord_le (num den : Nat) : nearestWord num den ≤ infinityWord :=
  Nat.min_le_right _ _

/-- From this power of two on, nothing is rounded to a number. -/
def infinityLog : Nat := 2099

/-- A quotient beyond all numbers is infinite. -/
theorem nearestWord_of_le {num den : Nat} (hden : 0 < den) (h : 2 ^ infinityLog * den ≤ num) :
    nearestWord num den = infinityWord := by
  have hquotient : 2 ^ infinityLog ≤ num / den := (Nat.le_div_iff_mul_le hden).2 h
  have hne : num / den ≠ 0 := Nat.ne_of_gt (Nat.lt_of_lt_of_le (Nat.two_pow_pos _) hquotient)
  have hlog : infinityLog ≤ (num / den).log2 := (Nat.le_log2 hne).2 hquotient
  -- The distance alone makes the pattern at least that of infinity.
  have hshift : infinityWord ≤ ((num / den).log2 - 52) * fractionSize :=
    Nat.mul_le_mul_right fractionSize (show exponentOnes ≤ _ from Nat.le_sub_of_add_le hlog)
  exact Nat.min_eq_right (Nat.le_trans hshift (Nat.le_add_right _ _))

/-- A quotient below a half of the least number is zero. -/
theorem nearestWord_of_lt {num den : Nat} (h : 2 * num < den) : nearestWord num den = 0 := by
  have hlt : num < den := by omega
  have hround : roundHalfEven num den = 0 := by
    rw [roundHalfEven, Nat.div_eq_of_lt hlt, Nat.mod_eq_of_lt hlt]
    exact if_pos h
  rw [nearestWord, Nat.div_eq_of_lt hlt]
  change min (0 * fractionSize + roundHalfEven num (den * 1)) infinityWord = 0
  rw [Nat.zero_mul, Nat.mul_one, hround]
  exact Nat.zero_min _

end ValueBridge.Binary64
