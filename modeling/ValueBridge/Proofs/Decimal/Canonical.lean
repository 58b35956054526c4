import ValueBridge.Proofs.Decimal.Layout
import ValueBridge.Proofs.Text.Index

/-!
# Canonical numerals

A numeral is *canonical* if no zero is at either end of its digits (`Numeral.Canonical`). Those are
the numerals of scaled naturals (`Numeral.canonical_iff`), so that the shortest numerals are
canonical, and each is the only canonical one of its magnitude (`Numeral.Canonical.unique`).

The host's text of a canonical numeral, whatever its digits and wherever its point, denotes just
that numeral, in the form that its magnitude calls for and with no zeros that denote nothing
(`Decimal.isHostText_hostLayout`), so that numerals and their texts are one to one
(`Decimal.hostLayout_injective`). Nothing is taken from digits that are not there on the way
(`Numeral.checkedLayout_eq`).
-/

namespace ValueBridge

/-! ## Canonical numerals -/

/-- The digits of a numeral have no zero at their start and none at their end. -/
structure Numeral.Canonical (n : Numeral) : Prop extends n.Proper where
  head_ne : ∀ d ∈ n.digits.head?, d ≠ '0'
  last_ne : ∀ d ∈ n.digits.getLast?, d ≠ '0'

namespace Numeral

open Decimal

variable {n n' : Numeral} {c c' : Nat} {e e' : Int}

/-- The natural of the digits of a numeral. -/
def coefficient (n : Numeral) : Nat :=
  Nat.ofDigitChars 10 n.digits 0

namespace Canonical

variable (hn : n.Canonical)

include hn

theorem toDigits_coefficient : Nat.toDigits 10 n.coefficient = n.digits := by
  refine Text.toDigits_ofDigitChars hn.ne_nil hn.isDigit fun d ds heq => ?_
  exact hn.head_ne '0' (by rw [heq]; rfl) rfl

theorem coefficient_ne_zero : n.coefficient ≠ 0 := by
  intro hzero
  have hdigits := hn.toDigits_coefficient
  rw [hzero, Nat.toDigits_zero] at hdigits
  exact hn.head_ne '0' (by rw [← hdigits]; rfl) rfl

/-- A canonical numeral is that of its digits at their place. -/
theorem eq_ofScaled : n = ofScaled n.coefficient (n.point - n.digits.length) := by
  have hkept : n.digits.reverse.dropWhile (· == '0') = n.digits.reverse := by
    rcases hreverse : n.digits.reverse with _ | ⟨d, ds⟩
    · rfl
    · refine List.dropWhile_cons_of_neg fun hzero => hn.last_ne d ?_ (beq_iff_eq.1 hzero)
      rw [← List.head?_reverse, hreverse]
      rfl
  rw [ofScaled, hn.toDigits_coefficient, stripped]
  dsimp only
  rw [hkept, List.reverse_reverse, add_sub_cancel]

/-- The last digit of a canonical numeral is not zero. -/
theorem coefficient_mod_ne : n.coefficient % 10 ≠ 0 := by
  obtain ⟨init, d, hdigits⟩ := (List.eq_nil_or_concat n.digits).resolve_left hn.ne_nil
  have hdigit := hn.isDigit d (by simp [hdigits])
  have hne := hn.last_ne d (by simp [hdigits])
  have hlt := digit_lt_ten hdigit
  rw [coefficient, hdigits, List.concat_eq_append, Nat.ofDigitChars_append, Nat.ofDigitChars_cons,
    Nat.ofDigitChars_nil]
  intro hzero
  refine hne (Char.toNat_inj.1 ?_)
  have := (Char.isDigit_iff_toNat.1 hdigit).1
  simp only [Char.reduceToNat] at *
  omega

end Canonical

theorem head_toDigits_ne (hc : c ≠ 0) : ∀ d ∈ (Nat.toDigits 10 c).head?, d ≠ '0' := by
  rintro d hd rfl
  have hvalue : Nat.ofDigitChars 10 (Nat.toDigits 10 c) 0 = c := Nat.ofDigitChars_ten_toDigits
  rcases hdigits : Nat.toDigits 10 c with _ | ⟨d, _ | ⟨d', ds⟩⟩ <;> rw [hdigits] at hd hvalue
  · cases hd
  · cases hd
    exact hc hvalue.symm
  · cases hd
    exact Text.toDigits_ne_zero_cons c d' ds hdigits

/-- The numeral of a scaled natural is canonical: what precedes the zeros at its end starts as its
    digits do. -/
theorem canonical_ofScaled (hc : c ≠ 0) (e : Int) : (ofScaled c e).Canonical where
  toProper := proper_ofScaled hc e
  head_ne d hd := by
    obtain ⟨count, hcount⟩ := exists_zeros (Nat.toDigits 10 c)
    refine head_toDigits_ne hc d ?_
    rw [hcount, List.head?_append]
    have hhead : ((Nat.toDigits 10 c).reverse.dropWhile (· == '0')).reverse.head? = some d := hd
    rw [hhead]
    rfl
  last_ne d hd := by
    have hnot := List.head?_dropWhile_not (· == '0') (Nat.toDigits 10 c).reverse
    have hlast : ((Nat.toDigits 10 c).reverse.dropWhile (· == '0')).reverse.getLast? = some d := hd
    rw [List.getLast?_reverse] at hlast
    rw [hlast] at hnot
    exact beq_eq_false_iff_ne.1 hnot

/-- The canonical numerals are those of scaled naturals. -/
theorem canonical_iff : n.Canonical ↔ ∃ c e, c ≠ 0 ∧ n = ofScaled c e := by
  constructor
  · exact fun hn => ⟨_, _, hn.coefficient_ne_zero, hn.eq_ofScaled⟩
  · rintro ⟨c, e, hc, rfl⟩
    exact canonical_ofScaled hc e

/-! ## Magnitudes -/

namespace Canonical

theorem magnitude_bounds (hn : n.Canonical) (negative : Bool) :
    10 ^ (n.point - 1) ≤ (n.toDecimal negative).magnitude ∧
      (n.toDecimal negative).magnitude < 10 ^ n.point := by
  have := Numeral.magnitude_bounds (e := n.point - n.digits.length) hn.coefficient_ne_zero negative
  rwa [← hn.eq_ofScaled] at this

/-- The position of the point is told by the powers of ten that the magnitude is below. -/
theorem point_le_iff (hn : n.Canonical) (negative : Bool) (k : Int) :
    n.point ≤ k ↔ (n.toDecimal negative).magnitude < 10 ^ k := by
  have hten : (1 : ℚ) < 10 := by norm_num
  obtain ⟨hlower, hupper⟩ := hn.magnitude_bounds negative
  constructor
  · exact fun hle => hupper.trans_le (zpow_le_zpow_right₀ hten.le hle)
  · intro hlt
    have := (zpow_lt_zpow_iff_right₀ hten).1 (hlower.trans_lt hlt)
    omega

/-- A smaller exponent would make the coefficient a multiple of ten. -/
theorem exponent_le (hn : n.Canonical) {e e' : Int}
    (h : n.coefficient * (10 : ℚ) ^ e = c * 10 ^ e') : e' ≤ e := by
  by_contra hlt
  obtain ⟨k, hk⟩ := Int.eq_ofNat_of_zero_le (show 0 ≤ e' - e - 1 by omega)
  have hexponent : e' = ((k + 1 : ℕ) : ℤ) + e := by
    push_cast
    omega
  have hten : (10 : ℚ) ≠ 0 := by norm_num
  rw [hexponent, zpow_add₀ hten, ← mul_assoc, zpow_natCast] at h
  have hmultiple : n.coefficient = c * 10 ^ (k + 1) := by
    exact_mod_cast mul_right_cancel₀ (zpow_ne_zero e hten) h
  refine hn.coefficient_mod_ne ?_
  rw [hmultiple, Nat.pow_succ, ← Nat.mul_assoc, Nat.mul_mod_left]

/-- There is one canonical numeral of a magnitude. -/
theorem unique (hn : n.Canonical) (hn' : n'.Canonical) (negative negative' : Bool)
    (h : (n.toDecimal negative).magnitude = (n'.toDecimal negative').magnitude) : n = n' := by
  rw [magnitude_toDecimal, magnitude_toDecimal] at h
  have hexponent : n.point - n.digits.length = n'.point - n'.digits.length :=
    (hn'.exponent_le h.symm).antisymm (hn.exponent_le h)
  have hpower : (10 : ℚ) ^ (n'.point - n'.digits.length) ≠ 0 := zpow_ne_zero _ (by norm_num)
  have hcoefficient : n.coefficient = n'.coefficient := by
    rw [hexponent] at h
    exact_mod_cast mul_right_cancel₀ hpower h
  rw [hn.eq_ofScaled, hn'.eq_ofScaled, hcoefficient, hexponent]

end Canonical

end Numeral

/-! ## Texts of canonical numerals -/

namespace Decimal

open Numeral Binary64

variable {n n' : Numeral} {negative negative' : Bool}

/-- The parts have no zero that denotes nothing: none before other digits of the whole or of the
    exponent, and none at the end of the fraction. -/
structure Parts.IsTidy (p : Parts) : Prop where
  whole : p.whole ≠ [] ∧ ∀ c cs, p.whole ≠ '0' :: c :: cs
  fraction : ∀ d ∈ p.fraction.getLast?, d ≠ '0'
  exponent : ∀ c cs, p.exponentDigits ≠ '0' :: c :: cs

/-- The text is how the host writes `0.d₁d₂… * 10 ^ point` with the given sign: a decimal that
    denotes just that, without zeros that denote nothing; plain from `10 ^ -6` up to but not
    including `10 ^ 21`, and outside with the point after the first digit, if there are others, and
    with an exponent, of which the sign is always written. -/
structure IsHostText (negative : Bool) (n : Numeral) (text : List Char) (p : Parts) : Prop where
  spells : Spells text p
  negative_eq : p.negative = negative
  magnitude_eq : p.decimal.magnitude =
    (Nat.ofDigitChars 10 n.digits 0 : ℚ) / 10 ^ n.digits.length * 10 ^ n.point
  tidy : p.IsTidy
  plain_iff : p.exponentDigits = [] ↔ -6 < n.point ∧ n.point ≤ 21
  plain_iff_magnitude : p.exponentDigits = [] ↔
    (10 : ℚ) ^ (-6 : ℤ) ≤ p.decimal.magnitude ∧ p.decimal.magnitude < 10 ^ (21 : ℤ)
  plain : p.exponentDigits = [] → text = signed negative (p.whole ++ pointed p.fraction)
  exponential : p.exponentDigits ≠ [] → p.whole = n.digits.take 1 ∧ p.fraction = n.digits.drop 1 ∧
    text = signed negative (p.whole ++ (pointed p.fraction ++
      'e' :: (if n.point - 1 < 0 then '-' else '+') :: p.exponentDigits)) ∧
    Nat.ofDigitChars 10 p.exponentDigits 0 = (n.point - 1).natAbs

theorem ne_zero_cons_of_head {digits : List Char} (h : ∀ d ∈ digits.head?, d ≠ '0') (c : Char)
    (cs : List Char) : digits ≠ '0' :: c :: cs := by
  rintro rfl
  exact h '0' rfl rfl

theorem last_drop_ne (hn : n.Canonical) (count : Nat) :
    ∀ d ∈ (n.digits.drop count).getLast?, d ≠ '0' := by
  intro d hd
  rw [List.getLast?_drop] at hd
  split at hd
  · cases hd
  · exact hn.last_ne d hd

theorem head_take_ne (hn : n.Canonical) (count : Nat) :
    ∀ d ∈ (n.digits.take count).head?, d ≠ '0' := by
  intro d hd
  rw [List.head?_take] at hd
  split at hd
  · cases hd
  · exact hn.head_ne d hd

theorem isTidy_positionalParts (hn : n.Canonical) (negative : Bool) :
    (positionalParts n negative).IsTidy := by
  have hwhole := (isDigit_positionalParts hn.toProper negative).1
  refine ⟨⟨hwhole, ?_⟩, ?_, ?_⟩
  · rw [positionalParts]
    split_ifs
    · refine ne_zero_cons_of_head ?_
      rw [List.head?_append_of_ne_nil _ hn.ne_nil]
      exact hn.head_ne
    · exact ne_zero_cons_of_head (head_take_ne hn _)
    · rintro c cs ⟨⟩
  · rw [positionalParts]
    split_ifs
    · rintro d ⟨⟩
    · exact last_drop_ne hn _
    · dsimp only
      rw [List.getLast?_append_of_ne_nil _ hn.ne_nil]
      exact hn.last_ne
  · rw [positionalParts_eta]
    rintro c cs ⟨⟩

theorem isTidy_exponentialParts (hn : n.Canonical) (negative : Bool) :
    (exponentialParts n negative).IsTidy where
  whole := ⟨take_ne_nil hn.toProper Nat.one_pos, ne_zero_cons_of_head (head_take_ne hn 1)⟩
  fraction := last_drop_ne hn 1
  exponent := Text.toDigits_ne_zero_cons _

theorem isTidy_hostParts (hn : n.Canonical) (negative : Bool) : (hostParts n negative).IsTidy := by
  rw [hostParts]
  split
  · exact isTidy_positionalParts hn negative
  · exact isTidy_exponentialParts hn negative

theorem hostLayout_of_near (hnear : -6 < n.point ∧ n.point ≤ 21) : n.hostLayout = n.positional :=
  if_pos hnear

theorem hostLayout_of_not_near (hfar : ¬ (-6 < n.point ∧ n.point ≤ 21)) :
    n.hostLayout = n.exponential :=
  if_neg hfar

theorem hostParts_of_near (hnear : -6 < n.point ∧ n.point ≤ 21) :
    hostParts n negative = positionalParts n negative :=
  if_pos hnear

theorem hostParts_of_not_near (hfar : ¬ (-6 < n.point ∧ n.point ≤ 21)) :
    hostParts n negative = exponentialParts n negative :=
  if_neg hfar

/-- A numeral is written without an exponent if its point is near. -/
theorem exponentDigits_hostParts (n : Numeral) (negative : Bool) :
    (hostParts n negative).exponentDigits = [] ↔ -6 < n.point ∧ n.point ≤ 21 := by
  by_cases hnear : -6 < n.point ∧ n.point ≤ 21
  · rw [hostParts_of_near hnear, positionalParts_eta]
    exact iff_of_true rfl hnear
  · rw [hostParts_of_not_near hnear]
    exact iff_of_false Nat.toDigits_ne_nil hnear

theorem point_iff_magnitude (hn : n.Canonical) (negative : Bool) :
    -6 < n.point ∧ n.point ≤ 21 ↔ (10 : ℚ) ^ (-6 : ℤ) ≤ (n.toDecimal negative).magnitude ∧
      (n.toDecimal negative).magnitude < 10 ^ (21 : ℤ) := by
  rw [hn.point_le_iff negative 21, ← not_le, hn.point_le_iff negative (-6), not_lt]

theorem isHostText_hostLayout (hn : n.Canonical) (negative : Bool) :
    IsHostText negative n (signed negative n.hostLayout) (hostParts n negative) where
  spells := spells_hostLayout hn.toProper negative
  negative_eq := negative_hostParts n negative
  magnitude_eq := by
    rw [magnitude_hostParts hn.toProper, magnitude_toDecimal, zpow_sub₀ (by norm_num), zpow_natCast]
    ring
  tidy := isTidy_hostParts hn negative
  plain_iff := exponentDigits_hostParts n negative
  plain_iff_magnitude := by
    rw [exponentDigits_hostParts, magnitude_hostParts hn.toProper]
    exact point_iff_magnitude hn negative
  plain h := by
    have hnear := (exponentDigits_hostParts n negative).1 h
    rw [hostLayout_of_near hnear, hostParts_of_near hnear, ← positional_eq hn.toProper]
  exponential h := by
    have hfar := (exponentDigits_hostParts n negative).not.1 h
    rw [hostLayout_of_not_near hfar, hostParts_of_not_near hfar]
    exact ⟨rfl, rfl, congrArg (signed negative) (exponential_eq n negative),
      Nat.ofDigitChars_ten_toDigits⟩

/-- Numerals of the same sign and text are the same. -/
theorem hostLayout_injective (hn : n.Canonical) (hn' : n'.Canonical)
    (h : signed negative n.hostLayout = signed negative' n'.hostLayout) :
    negative = negative' ∧ n = n' := by
  have hparts : hostParts n negative = hostParts n' negative' :=
    (spells_hostLayout hn.toProper negative).unique (h ▸ spells_hostLayout hn'.toProper negative')
  constructor
  · rw [← negative_hostParts n negative, hparts, negative_hostParts]
  · refine hn.unique hn' negative negative' ?_
    rw [← magnitude_hostParts hn.toProper, hparts, magnitude_hostParts hn'.toProper]

end Decimal

/-! ## Layouts that are checked -/

namespace Numeral

open Decimal

/-- Digits split after so many of them, if they are so many. -/
def splitAt? (digits : List Char) (count : Int) : Option (List Char × List Char) :=
  if 0 ≤ count ∧ count ≤ digits.length then some (digits.splitAt count.toNat) else none

/-- So many zeros, if the count is one. -/
def zeros? (count : Int) : Option (List Char) :=
  if 0 ≤ count then some (zeros count) else none

/-- The host's layout by five cases, where it cannot go on if it has to split digits where there
    are none or to repeat a zero less than no times. -/
def checkedLayout (n : Numeral) : Option (List Char) :=
  let length : Int := n.digits.length
  if length ≤ n.point ∧ n.point ≤ 21 then
    (zeros? (n.point - length)).map (n.digits ++ ·)
  else if 0 < n.point ∧ n.point ≤ 21 then
    (splitAt? n.digits n.point).map fun parts => parts.1 ++ '.' :: parts.2
  else if -6 < n.point ∧ n.point ≤ 0 then
    (zeros? n.point.natAbs).map fun zeros => '0' :: '.' :: (zeros ++ n.digits)
  else
    (splitAt? n.digits 1).map fun parts =>
      if parts.2.isEmpty then parts.1 ++ exponentText (n.point - 1)
      else parts.1 ++ '.' :: (parts.2 ++ exponentText (n.point - 1))

variable {n : Numeral}

theorem splitAt?_of_le {digits : List Char} {count : Int} (hnonneg : 0 ≤ count)
    (hle : count ≤ digits.length) :
    splitAt? digits count = some (digits.take count.toNat, digits.drop count.toNat) := by
  rw [splitAt?, if_pos ⟨hnonneg, hle⟩, List.splitAt_eq]

theorem zeros?_of_nonneg {count : Int} (hnonneg : 0 ≤ count) : zeros? count = some (zeros count) :=
  if_pos hnonneg

/-- No split and no repetition of the host's layout is out of range. -/
theorem checkedLayout_eq (hn : n.Proper) : n.checkedLayout = some n.hostLayout := by
  have hlength : 0 < n.digits.length := List.length_pos_iff.2 hn.ne_nil
  rw [checkedLayout]
  by_cases hplain : -6 < n.point ∧ n.point ≤ 21
  · rw [hostLayout_of_near hplain, positional]
    by_cases hafter : n.digits.length ≤ n.point
    · rw [if_pos ⟨hafter, hplain.2⟩, if_pos hafter, zeros?_of_nonneg (by omega), Option.map_some]
    rw [if_neg fun h => hafter h.1, if_neg hafter]
    by_cases hpos : 0 < n.point
    · rw [if_pos ⟨hpos, hplain.2⟩, if_pos hpos, splitAt?_of_le hpos.le (by omega), Option.map_some]
    · have hcount : (n.point.natAbs : ℤ) = -n.point := by omega
      rw [if_neg fun h => hpos h.1, if_pos ⟨hplain.1, by omega⟩, if_neg hpos, hcount,
        zeros?_of_nonneg (by omega), Option.map_some]
  · rw [hostLayout_of_not_near hplain, if_neg (by omega), if_neg (by omega), if_neg (by omega),
      splitAt?_of_le zero_le_one (by omega), Option.map_some, Int.toNat_one, Option.some_inj,
      exponential_eq n false, exponentialParts, pointed]
    dsimp only
    split
    · rfl
    · rfl

end Numeral

/-! ## The host's texts -/

theorem Binary64.canonical_shortest {x : Binary64} (hfinite : x.isFinite = true)
    (hzero : x.isZero = false) : x.shortest.Canonical := by
  obtain ⟨c, e, hc, hshortest, _⟩ := shortest_spec hfinite hzero
  exact Numeral.canonical_iff.2 ⟨c, e, hc, hshortest⟩

/-- For every sign, all digits without zeros at their ends and every position of the point, the
    host's text denotes the decimal of these, is in the form that its magnitude calls for and has
    no zero that denotes nothing; no split or repetition on the way is out of range; and no other
    sign, digits or position have the same text. The text of a number that is finite and not zero
    is of that kind. -/
theorem Decimal.hostLayout_canonical :
    (∀ (negative : Bool) (n : Numeral), n.Canonical →
      (∃ p, IsHostText negative n (Binary64.signed negative n.hostLayout) p) ∧
      n.checkedLayout = some n.hostLayout ∧
      ∀ (negative' : Bool) (n' : Numeral), n'.Canonical →
        Binary64.signed negative n.hostLayout = Binary64.signed negative' n'.hostLayout →
          negative = negative' ∧ n = n') ∧
    ∀ x : Binary64, x.isFinite = true → x.isZero = false → x.shortest.Canonical ∧
      x.hostText = String.ofList (Binary64.signed x.negative x.shortest.hostLayout) := by
  constructor
  · intro negative n hn
    exact ⟨⟨_, isHostText_hostLayout hn negative⟩, Numeral.checkedLayout_eq hn.toProper,
      fun negative' n' hn' h => hostLayout_injective hn hn' h⟩
  · intro x hfinite hzero
    exact ⟨Binary64.canonical_shortest hfinite hzero, Binary64.hostText_of_isFinite hfinite hzero⟩

end ValueBridge
