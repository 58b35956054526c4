import ValueBridge.Decimal.Layout
import ValueBridge.Proofs.Decimal.Grammar
import ValueBridge.Proofs.Decimal.Shortest

/-!
# Laid out numerals are decimals

The texts of a numeral are decimals and denote exactly what the numeral does, whatever the layout
that the position of its point calls for (`Decimal.spells_hostLayout`,
`Decimal.magnitude_hostParts`). The reader takes them for that (`Decimal.denotes_hostLayout`).

Every layout is digits, possibly a point and digits after it, and possibly an exponent. So of each
layout it is left to say what its digits are and where its point is.
-/

namespace ValueBridge.Decimal

open Binary64 Numeral

variable {whole fraction tail cs : List Char} {exponent : Int} {n : Numeral} {p : Parts}

/-! ## Parts of a text -/

theorem isSign_signed (negative : Bool) (cs : List Char) :
    ∃ sign, IsSign sign negative ∧ signed negative cs = sign ++ cs := by
  cases negative with
  | true => exact ⟨['-'], .minus, rfl⟩
  | false => exact ⟨[], .omitted, rfl⟩

/-- Digits after a point, which is not written if there are none. -/
def pointed (fraction : List Char) : List Char :=
  if fraction.isEmpty then [] else '.' :: fraction

theorem isFraction_pointed (hfraction : ∀ d ∈ fraction, d.isDigit = true) :
    IsFraction (pointed fraction) fraction := by
  cases fraction with
  | nil => exact .omitted
  | cons d fraction => exact .point hfraction

/-- The text of an exponent. -/
def exponentText (exponent : Int) : List Char :=
  'e' :: (if exponent < 0 then '-' else '+') :: Nat.toDigits 10 exponent.natAbs

theorem isExponent_exponentText (exponent : Int) :
    IsExponent (exponentText exponent) (decide (exponent < 0))
      (Nat.toDigits 10 exponent.natAbs) := by
  have hsign : IsSign [if exponent < 0 then '-' else '+'] (decide (exponent < 0)) := by
    split
    · next hneg =>
      rw [decide_eq_true hneg]
      exact .minus
    · next hpos =>
      rw [decide_eq_false hpos]
      exact .plus
  exact .marked (.inl rfl) hsign Nat.toDigits_ne_nil fun d hd =>
    Nat.isDigit_of_mem_toDigits (by decide) (by decide) hd

/-- A text of digits, with a point or an exponent or neither, is of the parts that it is put
    together of. -/
theorem spells_append (negative : Bool) (hne : whole ≠ [])
    (hwhole : ∀ d ∈ whole, d.isDigit = true) (hfraction : ∀ d ∈ fraction, d.isDigit = true)
    {exponentNegative : Bool} {exponentDigits : List Char}
    (htail : IsExponent tail exponentNegative exponentDigits) :
    Spells (signed negative (whole ++ (pointed fraction ++ tail)))
      ⟨negative, whole, fraction, exponentNegative, exponentDigits⟩ := by
  obtain ⟨sign, hsign, htext⟩ := isSign_signed negative (whole ++ (pointed fraction ++ tail))
  rw [htext]
  exact .intro hsign hwhole (isFraction_pointed hfraction)
    (List.append_ne_nil_of_left_ne_nil hne _) htail

theorem spells_pointed (negative : Bool) (hne : whole ≠ [])
    (hwhole : ∀ d ∈ whole, d.isDigit = true) (hfraction : ∀ d ∈ fraction, d.isDigit = true) :
    Spells (signed negative (whole ++ pointed fraction))
      ⟨negative, whole, fraction, false, []⟩ := by
  have := spells_append negative hne hwhole hfraction .omitted
  rwa [List.append_nil] at this

theorem pointed_of_ne_nil (hne : fraction ≠ []) : pointed fraction = '.' :: fraction := by
  rw [pointed, if_neg (List.isEmpty_iff.not.2 hne)]

theorem isDigit_zeros (count : Int) : ∀ d ∈ zeros count, d.isDigit = true := by
  intro d hd
  rw [List.eq_of_mem_replicate hd]
  rfl

/-! ## Layouts -/

/-- The parts of a numeral with the point at its place. -/
def positionalParts (n : Numeral) (negative : Bool) : Parts :=
  if n.digits.length ≤ n.point then
    ⟨negative, n.digits ++ zeros (n.point - n.digits.length), [], false, []⟩
  else if 0 < n.point then
    ⟨negative, n.digits.take n.point.toNat, n.digits.drop n.point.toNat, false, []⟩
  else ⟨negative, ['0'], zeros (-n.point) ++ n.digits, false, []⟩

/-- The parts of a numeral with an exponent. -/
def exponentialParts (n : Numeral) (negative : Bool) : Parts :=
  ⟨negative, n.digits.take 1, n.digits.drop 1, decide (n.point - 1 < 0),
    Nat.toDigits 10 (n.point - 1).natAbs⟩

/-- The parts of a numeral as the host lays it out. -/
def hostParts (n : Numeral) (negative : Bool) : Parts :=
  if positionalAfter < n.point ∧ n.point ≤ positionalUpTo then positionalParts n negative
  else exponentialParts n negative

/-- Without an exponent there is no sign of one, and the sign of the decimal is the given one. -/
theorem positionalParts_eta (n : Numeral) (negative : Bool) :
    positionalParts n negative = ⟨negative, (positionalParts n negative).whole,
      (positionalParts n negative).fraction, false, []⟩ := by
  rw [positionalParts]
  split_ifs <;> rfl

theorem positional_eq (hn : n.Proper) (negative : Bool) :
    n.positional =
      (positionalParts n negative).whole ++ pointed (positionalParts n negative).fraction := by
  rw [positional, positionalParts]
  split
  · exact (List.append_nil _).symm
  · next hover =>
    split
    · next hpos =>
      have hdrop : n.digits.drop n.point.toNat ≠ [] := by
        rw [ne_eq, List.drop_eq_nil_iff]
        omega
      rw [pointed_of_ne_nil hdrop]
    · rw [pointed_of_ne_nil (List.append_ne_nil_of_right_ne_nil _ hn.ne_nil)]
      rfl

theorem exponential_eq (n : Numeral) (negative : Bool) :
    n.exponential = (exponentialParts n negative).whole ++
      (pointed (exponentialParts n negative).fraction ++ exponentText (n.point - 1)) :=
  List.append_assoc ..

theorem take_ne_nil (hn : n.Proper) {count : Nat} (hcount : 0 < count) :
    n.digits.take count ≠ [] := by
  rw [ne_eq, List.take_eq_nil_iff]
  exact fun h => h.elim hcount.ne' hn.ne_nil

/-- The zeros up to the point are digits of the whole, and those after it digits of the fraction. -/
theorem isDigit_positionalParts (hn : n.Proper) (negative : Bool) :
    (positionalParts n negative).whole ≠ [] ∧
      (∀ d ∈ (positionalParts n negative).whole, d.isDigit = true) ∧
        ∀ d ∈ (positionalParts n negative).fraction, d.isDigit = true := by
  rw [positionalParts]
  split_ifs with hover hpos
  · exact ⟨List.append_ne_nil_of_left_ne_nil hn.ne_nil _,
      List.forall_mem_append.2 ⟨hn.isDigit, isDigit_zeros _⟩, fun _ hd => nomatch hd⟩
  · exact ⟨take_ne_nil hn (by omega), fun d hd => hn.isDigit d (List.mem_of_mem_take hd),
      fun d hd => hn.isDigit d (List.mem_of_mem_drop hd)⟩
  · exact ⟨List.cons_ne_nil _ _, List.forall_mem_singleton.2 rfl,
      List.forall_mem_append.2 ⟨isDigit_zeros _, hn.isDigit⟩⟩

theorem spells_positional (hn : n.Proper) (negative : Bool) :
    Spells (signed negative n.positional) (positionalParts n negative) := by
  obtain ⟨hne, hwhole, hfraction⟩ := isDigit_positionalParts hn negative
  rw [positionalParts_eta, positional_eq hn negative]
  exact spells_pointed negative hne hwhole hfraction

theorem spells_exponential (hn : n.Proper) (negative : Bool) :
    Spells (signed negative n.exponential) (exponentialParts n negative) := by
  rw [exponential_eq n negative]
  exact spells_append negative (take_ne_nil hn Nat.one_pos)
    (fun d hd => hn.isDigit d (List.mem_of_mem_take hd))
    (fun d hd => hn.isDigit d (List.mem_of_mem_drop hd)) (isExponent_exponentText _)

/-- The host's text of a numeral is a decimal. -/
theorem spells_hostLayout (hn : n.Proper) (negative : Bool) :
    Spells (signed negative n.hostLayout) (hostParts n negative) := by
  rw [hostLayout, hostParts]
  split
  · exact spells_positional hn negative
  · exact spells_exponential hn negative

/-! ## Magnitudes of layouts -/

theorem magnitude_of_plain {negative : Bool} :
    (Parts.decimal ⟨negative, whole, fraction, false, []⟩).magnitude =
      (Nat.ofDigitChars 10 (whole ++ fraction) 0 : ℚ) * 10 ^ (-(fraction.length : ℤ)) := by
  rw [Parts.decimal, Parts.scaled, magnitude]
  dsimp only [Parts.exponentValue]
  rw [Nat.ofDigitChars_nil, signedExponent, if_neg Bool.false_ne_true, Nat.cast_zero, zero_sub]

theorem magnitude_positionalParts (n : Numeral) (negative : Bool) :
    (positionalParts n negative).decimal.magnitude = (n.toDecimal negative).magnitude := by
  rw [positionalParts, magnitude_toDecimal]
  split
  · next hpoint =>
    obtain ⟨count, hcount⟩ := Int.eq_ofNat_of_zero_le (Int.sub_nonneg_of_le hpoint)
    rw [magnitude_of_plain, hcount, List.append_nil, zeros, Int.toNat_natCast,
      Nat.ofDigitChars_append, Nat.ofDigitChars_replicate_zero, List.length_nil, Nat.cast_zero,
      neg_zero, zpow_zero, mul_one, Nat.cast_mul, Nat.cast_pow, zpow_natCast, mul_comm]
    rfl
  · next hover =>
    split
    · next hpos =>
      rw [magnitude_of_plain, List.take_append_drop, List.length_drop]
      congr 2
      omega
    · next hneg =>
      rw [magnitude_of_plain, ← List.append_assoc, Nat.ofDigitChars_append, List.length_append,
        zeros, List.length_replicate, ofDigitChars_zeros]
      congr 2
      omega

theorem magnitude_exponentialParts (hn : n.Proper) (negative : Bool) :
    (exponentialParts n negative).decimal.magnitude = (n.toDecimal negative).magnitude := by
  have hlength : 0 < n.digits.length := List.length_pos_iff.2 hn.ne_nil
  have hexponent :
      signedExponent (decide (n.point - 1 < 0)) (n.point - 1).natAbs = n.point - 1 := by
    simp only [signedExponent, decide_eq_true_eq]
    omega
  rw [exponentialParts, Parts.decimal, Parts.scaled, magnitude, magnitude_toDecimal]
  dsimp only [Parts.exponentValue]
  rw [Nat.ofDigitChars_ten_toDigits, hexponent, List.take_append_drop, List.length_drop]
  congr 2
  omega

/-- The host's text of a numeral denotes what the numeral does. -/
theorem magnitude_hostParts (hn : n.Proper) (negative : Bool) :
    (hostParts n negative).decimal.magnitude = (n.toDecimal negative).magnitude := by
  rw [hostParts]
  split
  · exact magnitude_positionalParts n negative
  · exact magnitude_exponentialParts hn negative

theorem negative_hostParts (n : Numeral) (negative : Bool) :
    (hostParts n negative).negative = negative := by
  rw [hostParts, positionalParts]
  split_ifs <;> rfl

/-! ## Reading layouts -/

/-- The text is a decimal of the same sign and magnitude as another one. -/
def Denotes (cs : List Char) (d : Decimal) : Prop :=
  ∃ d', read? cs = some d' ∧ d'.negative = d.negative ∧ d'.magnitude = d.magnitude

theorem Denotes.read {d : Decimal} (h : Denotes cs d) : read cs = d.toBinary64 := by
  obtain ⟨d', hread, hnegative, hmagnitude⟩ := h
  rw [Binary64.read, hread]
  exact toBinary64_congr hnegative hmagnitude

theorem exponentValue_hostParts_le (n : Numeral) (negative : Bool) :
    (hostParts n negative).exponentValue ≤ (n.point - 1).natAbs := by
  rw [hostParts, positionalParts]
  split_ifs
  · exact Nat.zero_le _
  · exact Nat.zero_le _
  · exact Nat.zero_le _
  · exact Nat.ofDigitChars_ten_toDigits.le

/-- The host's text of a numeral is read as what the numeral denotes. -/
theorem denotes_hostLayout (hn : n.Proper) (hpoint : (n.point - 1).natAbs < exponentLimit)
    (negative : Bool) : Denotes (signed negative n.hostLayout) (n.toDecimal negative) := by
  have hvalue : (hostParts n negative).exponentValue < 10 * exponentLimit :=
    ((exponentValue_hostParts_le n negative).trans_lt hpoint).trans (by decide)
  have hcounted : (hostParts n negative).counted = (hostParts n negative).decimal := by
    rw [Parts.counted, countedSize_of_lt hvalue, Parts.decimal]
  refine ⟨_, read?_eq_some_iff.2 ⟨_, spells_hostLayout hn negative, rfl⟩, ?_, ?_⟩
  · exact negative_hostParts n negative
  · rw [hcounted, magnitude_hostParts hn]

theorem isBlank_of_read? {d : Decimal} (h : read? cs = some d) :
    ∀ c ∈ cs, Text.isBlank c = false := by
  obtain ⟨p, hp, -⟩ := read?_eq_some_iff.1 h
  exact hp.isBlank

end ValueBridge.Decimal

namespace ValueBridge.Binary64

/-! ## Texts of numbers -/

variable {x : Binary64}

theorem hostText_of_isNaN (hnan : x.isNaN = true) : x.hostText = "NaN" := by
  rw [hostText, hostChars, if_pos hnan, String.ofList_toList]

theorem hostText_of_isZero (hzero : x.isZero = true) : x.hostText = "0" := by
  have hnan : ¬ x.isNaN = true := by
    rw [isNaN, beq_iff_eq.1 hzero]
    decide
  rw [hostText, hostChars, if_neg hnan, if_pos hzero]

theorem hostText_of_isFinite (hfinite : x.isFinite = true) (hzero : x.isZero = false) :
    x.hostText = String.ofList (signed x.negative x.shortest.hostLayout) := by
  rw [hostText, hostChars, isNaN_of_isFinite hfinite, hzero, hfinite, if_neg Bool.false_ne_true,
    if_neg Bool.false_ne_true, if_pos rfl]

end ValueBridge.Binary64
