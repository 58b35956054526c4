import ValueBridge.Decimal.Shortest
import ValueBridge.Proofs.Decimal.Magnitude

/-!
# The shortest numeral reads back

The shortest numeral of a number is that of a natural scaled by a power of ten, and the number
is the nearest to it (`Binary64.shortest_spec`), so that the numeral with the sign of the number
is read as the number, bit for bit (`Binary64.toBinary64_shortest`).

If no short numeral were found, the numeral of the number in full would take its place. It
denotes the number itself (`Binary64.readsBack_exact`), so that it does not matter here how many
digits are enough.
-/

namespace ValueBridge

/-- A numeral has digits, and nothing but digits. -/
structure Numeral.Proper (n : Numeral) : Prop where
  ne_nil : n.digits ≠ []
  isDigit : ∀ d ∈ n.digits, d.isDigit = true

namespace Numeral

theorem mem_toDigits_of_mem_ofScaled {c : Nat} {e : Int} {d : Char}
    (hd : d ∈ (ofScaled c e).digits) : d ∈ Nat.toDigits 10 c :=
  List.mem_reverse.1 ((List.dropWhile_sublist _).mem (List.mem_reverse.1 hd))

theorem proper_ofScaled {c : Nat} (hc : c ≠ 0) (e : Int) : (ofScaled c e).Proper where
  ne_nil hnil := by
    -- Without digits the numeral would denote 0.
    have hzero := magnitude_ofScaled c e false
    rw [magnitude_toDecimal, hnil, Nat.ofDigitChars_nil, Nat.cast_zero, zero_mul] at hzero
    have hpower : (10 : ℚ) ^ e ≠ 0 := zpow_ne_zero _ (by norm_num)
    exact hc (by exact_mod_cast (mul_eq_zero.1 hzero.symm).resolve_right hpower)
  isDigit _ hd :=
    Nat.isDigit_of_mem_toDigits (by decide) (by decide) (mem_toDigits_of_mem_ofScaled hd)

end Numeral

/-! ## Signs -/

namespace Decimal

open Binary64

/-- The sign of a decimal has no part in the rest of the nearest number. -/
theorem toBinary64_eq_ofWord (d : Decimal) (negative : Bool) :
    d.toBinary64 = ofWord d.negative (toBinary64 { d with negative }).word := by
  have hlt (num den : Nat) : nearestWord num den < signSize :=
    Nat.lt_of_le_of_lt (nearestWord_le num den) infinityWord_lt
  rw [toBinary64_eq_nearest, toBinary64_eq_nearest, nearest, nearest, word_ofWord (hlt _ _)]

end Decimal

/-! ## Reading back -/

namespace Binary64

open Decimal

variable {x : Binary64}

/-- The magnitude of a number in full is read back. -/
theorem readsBack_exact (hx : x.isFinite = true) :
    x.readsBack (x.quanta * Nat.pow 5 quantumPlaces) (-(quantumPlaces : Int)) = true := by
  have hplaces : quantaPerUnit = 2 ^ quantumPlaces := by
    exact_mod_cast cast_quantaPerUnit
  rw [Nat.pow_eq]
  have hword : nearestWord (x.quanta * 5 ^ quantumPlaces * quantaPerUnit) (10 ^ quantumPlaces) =
      nearestWord x.quanta 1 := by
    refine nearestWord_congr (Nat.pow_pos (by decide)) Nat.one_pos ?_
    rw [hplaces, Nat.mul_one, Nat.mul_assoc, ← Nat.mul_pow]
  rw [readsBack, toBinary64_eq_nearest, nearest]
  dsimp only
  rw [neg_neg, Int.toNat_natCast, show (-(quantumPlaces : Int)).toNat = 0 by omega, Nat.pow_zero,
    Nat.mul_one, hword, nearestWord_quanta hx, word_ofWord x.word_lt]
  exact beq_self_eq_true _

/-- What is found on a grid is read back. -/
theorem of_onGrid? {length : Nat} {n : Numeral} (h : x.onGrid? length = some n) :
    ∃ c e, n = .ofScaled c e ∧ x.readsBack c e = true := by
  rw [onGrid?] at h
  split at h
  · next hbelow => exact ⟨_, _, (Option.some.inj h).symm, hbelow.1⟩
  · next =>
    split at h
    · next habove => exact ⟨_, _, (Option.some.inj h).symm, habove⟩
    · cases h

/-- What reads back as a number other than zero is not zero. -/
theorem coefficient_ne_zero_of_readsBack {c : Nat} {e : Int} (hx : x.isZero = false)
    (h : x.readsBack c e = true) : c ≠ 0 := by
  rintro rfl
  have hmagnitude : Decimal.magnitude ⟨false, 0, e⟩ < 10 ^ (-underflowPower : ℤ) := by
    rw [magnitude, Nat.cast_zero, zero_mul]
    positivity
  rw [readsBack, toBinary64_of_lt hmagnitude, zero, word_ofWord (by decide), beq_iff_eq] at h
  rw [isZero, ← h] at hx
  cases hx

/-- The shortest numeral is that of a natural scaled by a power of ten that reads back. -/
theorem shortest_spec (hfinite : x.isFinite = true) (hzero : x.isZero = false) :
    ∃ c e, c ≠ 0 ∧ x.shortest = .ofScaled c e ∧ x.readsBack c e = true := by
  obtain ⟨c, e, hshortest, hreads⟩ :
      ∃ c e, x.shortest = .ofScaled c e ∧ x.readsBack c e = true := by
    rw [shortest]
    cases hfound : (List.range enoughDigits).findSome? fun i => x.onGrid? (i + 1) with
    | some n =>
      obtain ⟨_, _, hgrid⟩ := List.exists_of_findSome?_eq_some hfound
      exact of_onGrid? hgrid
    | none =>
      rw [Option.getD_none, exactNumeral]
      exact ⟨_, _, rfl, readsBack_exact hfinite⟩
  exact ⟨c, e, coefficient_ne_zero_of_readsBack hzero hreads, hshortest, hreads⟩

theorem proper_shortest (hfinite : x.isFinite = true) (hzero : x.isZero = false) :
    x.shortest.Proper := by
  obtain ⟨c, e, hc, hshortest, _⟩ := shortest_spec hfinite hzero
  rw [hshortest]
  exact Numeral.proper_ofScaled hc e

/-- The shortest numeral of a number is nearest to the number, bit for bit. -/
theorem toBinary64_shortest (hfinite : x.isFinite = true) (hzero : x.isZero = false) :
    (x.shortest.toDecimal x.negative).toBinary64 = x := by
  obtain ⟨c, e, _, hshortest, hreads⟩ := shortest_spec hfinite hzero
  have hsame : (x.shortest.toDecimal x.negative).toBinary64 =
      toBinary64 ⟨x.negative, c, e⟩ := by
    refine toBinary64_congr rfl ?_
    rw [hshortest, Numeral.magnitude_ofScaled]
    rfl
  rw [hsame, toBinary64_eq_ofWord _ false]
  rw [readsBack, beq_iff_eq] at hreads
  dsimp only
  rw [hreads, ofWord_word]

/-- The point of a numeral that is read as a number is not far out. -/
theorem point_shortest (hfinite : x.isFinite = true) (hzero : x.isZero = false) :
    -underflowPower < x.shortest.point ∧ x.shortest.point ≤ overflowPower := by
  have hread := toBinary64_shortest hfinite hzero
  obtain ⟨c, e, hc, hshortest, _⟩ := shortest_spec hfinite hzero
  obtain ⟨hlower, hupper⟩ := Numeral.magnitude_bounds (e := e) hc x.negative
  rw [← hshortest] at hlower hupper
  have hfinite' : x.word < infinityWord := of_decide_eq_true hfinite
  have hone : (1 : ℚ) ≤ 10 := by norm_num
  constructor
  · -- Farther down, the number would be zero.
    by_contra hunder
    rw [not_lt] at hunder
    have hlt := hupper.trans_le (zpow_le_zpow_right₀ hone hunder)
    rw [toBinary64_of_lt hlt] at hread
    rw [isZero, ← hread, zero, word_ofWord (by decide)] at hzero
    cases hzero
  · -- Farther up, it would be infinite.
    by_contra hover
    rw [not_le] at hover
    have hle := (zpow_le_zpow_right₀ hone (Int.le_sub_one_of_lt hover)).trans hlower
    rw [toBinary64_of_le hle] at hread
    rw [← hread, infinity, word_ofWord infinityWord_lt] at hfinite'
    exact Nat.lt_irrefl _ hfinite'

end Binary64

end ValueBridge
