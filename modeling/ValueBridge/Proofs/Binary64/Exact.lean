import Mathlib.Algebra.Order.Ring.Int
import ValueBridge.Proofs.Binary64.IntegerPart

/-!
# Exact results

A multiple of a power of two is a number if it has no more bits than a significand, counted from
that power on (`Binary64.hasQuanta_ofQuanta`), so that it is not rounded. What is left of a number
by a truncation or a division is a multiple of such a power and no greater than the number or the
divisor; both are exact (`Binary64.hasQuanta_truncate`, `Binary64.hasQuanta_remainder`).

So the integer part of a number, divided as a number and brought back to a byte, is the integer
part modulo 256 whatever the exponent (`Binary64.toNat_toByte`).
-/

namespace ValueBridge.Binary64

variable {x y : Binary64} {negative : Bool} {n k : Nat}

/-- The number is finite, of the given sign and so many quanta. -/
structure HasQuanta (negative : Bool) (n : Nat) (x : Binary64) : Prop where
  isFinite_eq : x.isFinite = true
  negative_eq : x.negative = negative
  quanta_eq : x.quanta = n

/-! ## Multiples of powers of two -/

/-- The distance of a number from the end of its significand. -/
def scale (x : Binary64) : Nat :=
  x.exponentField - 1

theorem pow_scale_dvd (x : Binary64) : 2 ^ x.scale ∣ x.quanta :=
  Nat.dvd_mul_left _ _

theorem quanta_lt_scaled (x : Binary64) : x.quanta < 2 * fractionSize * 2 ^ x.scale :=
  Nat.mul_lt_mul_of_pos_right x.significand_lt (Nat.two_pow_pos _)

theorem scale_le (hx : x.isFinite = true) : x.scale ≤ topDistance := by
  have hword : x.word < infinityWord := of_decide_eq_true hx
  have hfields := x.word_eq_fields
  have hexponent : x.exponentField < exponentOnes := by
    rw [hfields] at hword
    exact Nat.lt_of_mul_lt_mul_right (Nat.lt_of_le_of_lt (Nat.le_add_right _ _) hword)
  have hones : exponentOnes = topDistance + 2 := rfl
  rw [scale]
  omega

/-- Nothing is rounded away of a multiple of the power at whose distance it is rounded. -/
theorem roundedSignificand_of_dvd (h : 2 ^ distance n 1 ∣ n) :
    roundedSignificand n 1 * 2 ^ distance n 1 = n := by
  obtain ⟨m, hm⟩ := h
  have hround : roundHalfEven n (1 * 2 ^ distance n 1) = m := by
    generalize distance n 1 = d at hm
    rw [hm, Nat.mul_comm, roundHalfEven_mul_right _ _ (Nat.two_pow_pos d), roundHalfEven_one]
  rw [roundedSignificand, hround, Nat.mul_comm]
  exact hm.symm

/-- So many bits are not rounded further than where they begin. -/
theorem distance_le (hlt : n < 2 * fractionSize * 2 ^ k) : distance n 1 ≤ k := by
  rw [distance, Nat.div_one]
  by_cases hn : n = 0
  · rw [hn, Nat.log2_zero]
    exact Nat.zero_le k
  · have hbits : n < 2 ^ (53 + k) := by
      rwa [Nat.pow_add]
    have := (Nat.log2_lt hn).2 hbits
    omega

/-- A multiple of a power of two with as many bits as a significand is a number. -/
theorem hasQuanta_ofQuanta (negative : Bool) (hk : k ≤ topDistance) (hdvd : 2 ^ k ∣ n)
    (hlt : n < 2 * fractionSize * 2 ^ k) : HasQuanta negative n (ofQuanta negative n) := by
  have hle := nearestWord_le n 1
  have hpattern := Nat.lt_of_le_of_lt hle infinityWord_lt
  have hword : (ofQuanta negative n).word = nearestWord n 1 := word_ofWord hpattern
  have hfinite : nearestWord n 1 < infinityWord := by
    rw [nearestWord_lt_iff n Nat.one_pos, Nat.cast_one, div_one]
    obtain ⟨m, rfl⟩ := hdvd
    rw [Nat.mul_comm (2 * fractionSize)] at hlt
    have hm : m + 1 ≤ 2 * fractionSize := Nat.lt_of_mul_lt_mul_left hlt
    have hm' : (m : ℚ) + 1 ≤ 2 * fractionSize := by exact_mod_cast hm
    have hpower : (2 : ℚ) ^ k ≤ 2 ^ topDistance := pow_le_pow_right₀ one_le_two hk
    have hpos : (0 : ℚ) < 2 ^ topDistance := by positivity
    calc ((2 ^ k * m : ℕ) : ℚ) = m * 2 ^ k := by push_cast; ring
      _ ≤ m * 2 ^ topDistance := mul_le_mul_of_nonneg_left hpower (Nat.cast_nonneg m)
      _ < (2 * fractionSize - 1 / 2) * 2 ^ topDistance :=
        mul_lt_mul_of_pos_right (by linarith) hpos
  have hx : (ofQuanta negative n).isFinite = true := by
    rw [isFinite, hword]
    exact decide_eq_true hfinite
  refine ⟨hx, negative_ofWord hpattern, ?_⟩
  rw [(quanta_of_nearestWord Nat.one_pos hword hx).1]
  exact roundedSignificand_of_dvd ((Nat.pow_dvd_pow 2 (distance_le hlt)).trans hdvd)

/-- What is no greater than a number, and a multiple of a power of two not below its scale, is a
    number. -/
theorem hasQuanta_of_le (negative : Bool) (hscale : x.scale ≤ k) (hk : k ≤ topDistance)
    (hdvd : 2 ^ k ∣ n) (hle : n ≤ x.quanta) : HasQuanta negative n (ofQuanta negative n) := by
  refine hasQuanta_ofQuanta negative hk hdvd (Nat.lt_of_le_of_lt hle ?_)
  exact Nat.lt_of_lt_of_le x.quanta_lt_scaled
    (Nat.mul_le_mul_left _ (Nat.pow_le_pow_right Nat.two_pos hscale))

/-! ## Truncations and remainders -/

theorem quantumPlaces_le : quantumPlaces ≤ topDistance := by decide

theorem quantaPerUnit_eq : quantaPerUnit = 2 ^ quantumPlaces := by
  unfold quantaPerUnit
  generalize quantumPlaces = places
  rfl

theorem zero_lt_quantaPerUnit : 0 < quantaPerUnit :=
  Nat.cast_pos.1 quantaPerUnit_pos

theorem pow_quantumPlaces_dvd (a : Nat) : 2 ^ quantumPlaces ∣ a * quantaPerUnit :=
  quantaPerUnit_eq ▸ Nat.dvd_mul_left _ _

/-- A truncation is exact. -/
theorem hasQuanta_truncate (hx : x.isFinite = true) :
    HasQuanta x.negative (x.quanta / quantaPerUnit * quantaPerUnit) x.truncate := by
  rw [truncate, if_pos hx]
  have hle := Nat.div_mul_le_self x.quanta quantaPerUnit
  rcases Nat.le_total x.scale quantumPlaces with hlow | hhigh
  · refine hasQuanta_of_le x.negative hlow quantumPlaces_le ?_ hle
    exact pow_quantumPlaces_dvd _
  · -- The number is a whole number of units, so that nothing is cut off.
    have hwhole : quantaPerUnit ∣ x.quanta :=
      quantaPerUnit_eq ▸ (Nat.pow_dvd_pow 2 hhigh).trans x.pow_scale_dvd
    rw [Nat.div_mul_cancel hwhole]
    exact hasQuanta_of_le x.negative (Nat.le_refl _) (scale_le hx) x.pow_scale_dvd
      (Nat.le_refl _)

/-- A remainder is exact. -/
theorem hasQuanta_remainder (hx : x.isFinite = true) (hy : y.isFinite = true)
    (hzero : 0 < y.quanta) :
    HasQuanta x.negative (x.quanta % y.quanta) (x.remainder y) := by
  have hyzero : y.isZero = false := by
    refine Bool.eq_false_iff.2 fun h => hzero.ne' ?_
    rw [quanta_congr (y := zero false) (LawfulBEq.eq_of_beq h)]
    rfl
  have hremainder : x.remainder y = ofQuanta x.negative (x.quanta % y.quanta) := by
    simp only [remainder, isNaN_of_isFinite hx, isNaN_of_isFinite hy, hx, hy, hyzero, Bool.or_self,
      Bool.not_true, Bool.false_eq_true, if_false, if_true]
  rw [hremainder]
  have hmod {m : Nat} (hm : m ∣ x.quanta) (hm' : m ∣ y.quanta) : m ∣ x.quanta % y.quanta :=
    (Nat.dvd_mod_iff hm').2 hm
  rcases Nat.le_total x.scale y.scale with hle | hge
  · refine hasQuanta_of_le _ (Nat.le_refl _) (scale_le hx) ?_ (Nat.mod_le _ _)
    exact hmod x.pow_scale_dvd ((Nat.pow_dvd_pow 2 hle).trans y.pow_scale_dvd)
  · refine hasQuanta_of_le _ (Nat.le_refl _) (scale_le hy) ?_ (Nat.mod_lt _ hzero).le
    exact hmod ((Nat.pow_dvd_pow 2 hge).trans x.pow_scale_dvd) y.pow_scale_dvd

/-! ## Whole numbers -/

/-- A natural with no more bits than a significand, in units, is a number. -/
theorem hasQuanta_units {a : Nat} (negative : Bool) (h : a < 2 * fractionSize) :
    HasQuanta negative (a * quantaPerUnit) (ofQuanta negative (a * quantaPerUnit)) := by
  refine hasQuanta_ofQuanta negative quantumPlaces_le (pow_quantumPlaces_dvd a) ?_
  rw [← quantaPerUnit_eq]
  exact Nat.mul_lt_mul_of_pos_right h zero_lt_quantaPerUnit

theorem hasQuanta_ofNat {a : Nat} (h : a < 2 * fractionSize) :
    HasQuanta false (a * quantaPerUnit) (ofNat a) :=
  hasQuanta_units false h

namespace HasQuanta

theorem integerPart_eq {a : Nat} (h : HasQuanta negative (a * quantaPerUnit) x) :
    x.integerPart = bif negative then -(a : Int) else a := by
  rw [integerPart, if_pos h.isFinite_eq, h.negative_eq, h.quanta_eq,
    Nat.mul_div_cancel a zero_lt_quantaPerUnit]

theorem isZero_eq (h : HasQuanta negative n x) : x.isZero = (n == 0) := by
  have hword := nearestWord_quanta h.isFinite_eq
  rw [h.quanta_eq] at hword
  rw [isZero, Bool.eq_iff_iff, beq_iff_eq, beq_iff_eq]
  constructor
  · intro hzero
    rw [← h.quanta_eq, quanta_congr (y := zero false) hzero]
    rfl
  · rintro rfl
    rw [← hword]
    rfl

theorem isBelowZero_eq (h : HasQuanta negative n x) : x.isBelowZero = (negative && n != 0) := by
  rw [isBelowZero, h.negative_eq, h.isZero_eq, isNaN_of_isFinite h.isFinite_eq, Bool.not_false,
    Bool.and_true]
  rfl

theorem abs_eq (h : HasQuanta false n x) : x.abs = x := by
  have hx := x.ofWord_word
  rwa [h.negative_eq] at hx

/-- The sum of a negative number and a larger one that is not. -/
theorem add_eq {m : Nat} (hx : HasQuanta true m x) (hy : HasQuanta false n y) (hlt : m < n) :
    x.add y = ofQuanta false (n - m) := by
  have hsum : x.signedQuanta + y.signedQuanta = ((n - m : Nat) : Int) := by
    rw [signedQuanta, signedQuanta, hx.negative_eq, hy.negative_eq, hx.quanta_eq, hy.quanta_eq,
      cond_true, cond_false]
    omega
  have hne : ((n - m : Nat) : Int) ≠ 0 := by omega
  have hpos : ¬((n - m : Nat) : Int) < 0 := by omega
  rw [add, isNaN_of_isFinite hx.isFinite_eq, isNaN_of_isFinite hy.isFinite_eq, hx.isFinite_eq,
    hy.isFinite_eq, Bool.or_self, Bool.and_self, if_neg Bool.false_ne_true, if_pos rfl]
  dsimp only
  rw [hsum, if_neg hne, decide_eq_false hpos, Int.natAbs_natCast]

end HasQuanta

/-- The remainder of a negated natural is what is left of the divisor, or 0. -/
theorem neg_natCast_emod {a b : Nat} (hb : 0 < b) :
    -(a : Int) % b = if a % b = 0 then 0 else ((b - a % b : Nat) : Int) := by
  have hlt := Nat.mod_lt a hb
  simp only [Int.neg_emod, Int.natCast_dvd_natCast, Nat.dvd_iff_mod_eq_zero, Int.natAbs_natCast]
  split <;> omega

/-- The remainder of whole numbers that is not negative is that of the integers. -/
theorem integerPart_euclideanRemainder {a b : Nat} (hx : HasQuanta negative (a * quantaPerUnit) x)
    (hy : HasQuanta false (b * quantaPerUnit) y) (hb : 0 < b) (hfits : b < 2 * fractionSize) :
    (x.euclideanRemainder y).isFinite = true ∧
      (x.euclideanRemainder y).integerPart = x.integerPart % b := by
  have hrest : HasQuanta negative (a % b * quantaPerUnit) (x.remainder y) := by
    have hexact := hasQuanta_remainder hx.isFinite_eq hy.isFinite_eq
      (hy.quanta_eq ▸ Nat.mul_pos hb zero_lt_quantaPerUnit)
    rwa [hx.negative_eq, hx.quanta_eq, hy.quanta_eq, Nat.mul_mod_mul_right] at hexact
  have hlt := Nat.mod_lt a hb
  rw [euclideanRemainder, hx.integerPart_eq]
  by_cases hbelow : (x.remainder y).isBelowZero = true
  · -- The remainder is negative, and the divisor added to it gives a natural below the divisor.
    rw [if_pos hbelow]
    rw [hrest.isBelowZero_eq, Bool.and_eq_true, bne_iff_ne] at hbelow
    obtain ⟨rfl, hne⟩ := hbelow
    have hpos : 0 < a % b := Nat.pos_of_ne_zero fun h => hne (by rw [h, Nat.zero_mul])
    have hsum : HasQuanta false ((b - a % b) * quantaPerUnit) ((x.remainder y).add y.abs) := by
      rw [hy.abs_eq, hrest.add_eq hy (Nat.mul_lt_mul_of_pos_right hlt zero_lt_quantaPerUnit),
        ← Nat.sub_mul]
      exact hasQuanta_units false (by omega)
    refine ⟨hsum.isFinite_eq, ?_⟩
    rw [hsum.integerPart_eq, cond_true, cond_false, neg_natCast_emod hb, if_neg hpos.ne']
  · rw [if_neg hbelow]
    refine ⟨hrest.isFinite_eq, ?_⟩
    rw [hrest.integerPart_eq]
    cases negative with
    | false => exact Int.natCast_mod a b
    | true =>
      -- The remainder of a negative number is a zero here, which has a sign but is no less.
      have hzero : a % b = 0 := by
        rw [hrest.isBelowZero_eq, Bool.true_and, bne_iff_ne, not_not] at hbelow
        exact (Nat.mul_eq_zero.1 hbelow).resolve_right zero_lt_quantaPerUnit.ne'
      rw [cond_true, cond_true, neg_natCast_emod hb, if_pos hzero, hzero]
      rfl

/-! ## Bytes -/

theorem toNat_saturatedByte (hx : x.isFinite = true) (hlow : 0 ≤ x.integerPart)
    (hhigh : x.integerPart ≤ maxByte) : (x.saturatedByte.toNat : Int) = x.integerPart := by
  have hmax : maxByte = 255 := rfl
  rw [saturatedByte, isNaN_of_isFinite hx, if_neg Bool.false_ne_true, if_pos hx,
    UInt8.toNat_ofNat', Nat.min_eq_left (by omega), Nat.mod_eq_of_lt (by omega),
    Int.toNat_of_nonneg hlow]

/-- The byte of a finite number is its integer part modulo 256. -/
theorem toNat_toByte (hx : x.isFinite = true) : (x.toByte.toNat : Int) = x.integerPart % 256 := by
  have hwhole := hasQuanta_truncate hx
  have hpart : x.truncate.integerPart = x.integerPart := by
    rw [hwhole.integerPart_eq, integerPart, if_pos hx]
  obtain ⟨hfinite, hrest⟩ := integerPart_euclideanRemainder hwhole
    (hasQuanta_ofNat (a := maxByte + 1) (by decide)) (by decide) (by decide)
  have hmax : ((maxByte + 1 : Nat) : Int) = 256 := rfl
  rw [hpart, hmax] at hrest
  rw [toByte, if_pos hx, toNat_saturatedByte hfinite, hrest]
  · rw [hrest]
    exact Int.emod_nonneg _ (by decide)
  · rw [hrest]
    exact Int.lt_add_one_iff.1 (Int.emod_lt_of_pos _ (by decide))

/-- Infinities and NaNs are stored as 0. -/
theorem toByte_of_not_isFinite (hx : x.isFinite = false) : x.toByte = 0 := by
  rw [toByte, hx]
  rfl

/-- A byte as a number is stored as itself. -/
theorem toByte_ofNat (b : UInt8) : (ofNat b.toNat).toByte = b := by
  have hlt : b.toNat < 256 := b.toNat_lt
  have hb : HasQuanta false (b.toNat * quantaPerUnit) (ofNat b.toNat) :=
    hasQuanta_ofNat (Nat.lt_trans hlt (by decide))
  have hbyte := toNat_toByte hb.isFinite_eq
  rw [hb.integerPart_eq, cond_false] at hbyte
  rw [← UInt8.toNat_inj]
  omega

end ValueBridge.Binary64
