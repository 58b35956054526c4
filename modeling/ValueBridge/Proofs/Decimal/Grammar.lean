import ValueBridge.Decimal.Reader
import ValueBridge.Proofs.Decimal.Magnitude
import ValueBridge.Value.Number

/-!
# The grammar of decimals

Which texts are decimals, and what their parts are (`Decimal.Spells`): a sign, which may be left
out, digits with a point among or beside them or without one, at least one digit in all, and an
exponent, which may be left out. A text spells one decimal at most (`Decimal.Spells.unique`), and
just those texts are read (`Decimal.read?_eq_some_iff`).

The parts denote a decimal exactly (`Decimal.Parts.decimal`). The reader takes no more digits of
an exponent once its magnitude has reached a limit (`Decimal.Parts.counted`), which comes to the
same number unless a decimal has tens of thousands of digits that undo so large an exponent
(`Decimal.Parts.toBinary64_counted`).
-/

namespace ValueBridge.Decimal

open Binary64

/-! ## Texts of decimals -/

/-- A sign, plus or minus, or none. -/
inductive IsSign : List Char → Bool → Prop
  | omitted : IsSign [] false
  | plus : IsSign ['+'] false
  | minus : IsSign ['-'] true

/-- A point and the digits after it, if there are any; or neither. -/
inductive IsFraction : List Char → List Char → Prop
  | omitted : IsFraction [] []
  | point {digits : List Char} (hdigits : ∀ d ∈ digits, d.isDigit = true) :
    IsFraction ('.' :: digits) digits

/-- An exponent, with its sign and its digits; or none. -/
inductive IsExponent : List Char → Bool → List Char → Prop
  | omitted : IsExponent [] false []
  | marked {mark : Char} {sign digits : List Char} {negative : Bool}
      (hmark : mark = 'e' ∨ mark = 'E') (hsign : IsSign sign negative) (hne : digits ≠ [])
      (hdigits : ∀ d ∈ digits, d.isDigit = true) :
    IsExponent (mark :: (sign ++ digits)) negative digits

/-- The parts of a decimal as it is written. What is left out has no digits. -/
@[ext]
structure Parts where
  negative : Bool
  whole : List Char
  fraction : List Char
  exponentNegative : Bool
  exponentDigits : List Char

/-- The text is a decimal of these parts. -/
inductive Spells : List Char → Parts → Prop
  | intro {sign whole pointed fraction exponent exponentDigits : List Char}
      {negative exponentNegative : Bool} (hsign : IsSign sign negative)
      (hwhole : ∀ d ∈ whole, d.isDigit = true) (hfraction : IsFraction pointed fraction)
      (hne : whole ++ fraction ≠ [])
      (hexponent : IsExponent exponent exponentNegative exponentDigits) :
    Spells (sign ++ (whole ++ (pointed ++ exponent)))
      ⟨negative, whole, fraction, exponentNegative, exponentDigits⟩

/-- An exponent by its sign and its magnitude. -/
def signedExponent (negative : Bool) (magnitude : Nat) : Int :=
  if negative then -(magnitude : Int) else magnitude

namespace Parts

variable (p : Parts)

/-- The decimal of the digits of the parts, with an exponent of the given magnitude. -/
def scaled (magnitude : Nat) : Decimal :=
  ⟨p.negative, Nat.ofDigitChars 10 (p.whole ++ p.fraction) 0,
    signedExponent p.exponentNegative magnitude - p.fraction.length⟩

/-- The magnitude of the exponent. -/
def exponentValue : Nat :=
  Nat.ofDigitChars 10 p.exponentDigits 0

/-- The decimal that the parts denote. -/
def decimal : Decimal :=
  p.scaled p.exponentValue

end Parts

/-! ## Digits -/

theorem digit_lt_ten {d : Char} (hd : d.isDigit = true) : d.toNat - '0'.toNat < 10 := by
  obtain ⟨hlow, hhigh⟩ := Char.isDigit_iff_toNat.1 hd
  simp only [Char.reduceToNat] at hlow hhigh ⊢
  omega

/-- Zeros after a zero count nothing. -/
theorem ofDigitChars_zeros (count : Nat) :
    Nat.ofDigitChars 10 (['0'] ++ List.replicate count '0') 0 = 0 := by
  rw [← List.replicate_one, List.replicate_append_replicate, Nat.ofDigitChars_replicate_zero,
    Nat.mul_zero]

/-- Digits count less than a power of ten. -/
theorem ofDigitChars_lt {digits : List Char} (hdigits : ∀ d ∈ digits, d.isDigit = true) :
    Nat.ofDigitChars 10 digits 0 < 10 ^ digits.length := by
  induction digits using List.reverseRecOn with
  | nil => exact Nat.one_pos
  | append_singleton digits d ih =>
    have hinit := ih fun c hc => hdigits c (List.mem_append_left _ hc)
    have hlast := digit_lt_ten (hdigits d (List.mem_append_right _ List.mem_cons_self))
    rw [Nat.ofDigitChars_append, Nat.ofDigitChars_cons, Nat.ofDigitChars_nil, List.length_append,
      List.length_singleton, Nat.pow_succ]
    omega

/-! ## Counted exponents -/

/-- A natural by its digits from the first one on, up to where it has reached the limit. -/
def countedSize (n : Nat) : Nat :=
  if n < 10 * exponentLimit then n else countedSize (n / 10)
decreasing_by
  simp only [exponentLimit] at *
  omega

/-- The decimal that the parts are read as. -/
def Parts.counted (p : Parts) : Decimal :=
  p.scaled (countedSize p.exponentValue)

theorem countedSize_of_lt {n : Nat} (h : n < 10 * exponentLimit) : countedSize n = n := by
  rw [countedSize, if_pos h]

/-- What is not counted in full is counted up to the limit at least. -/
theorem le_countedSize {n : Nat} (h : exponentLimit ≤ n) : exponentLimit ≤ countedSize n := by
  induction n using countedSize.induct with
  | case1 n hlt => rwa [countedSize_of_lt hlt]
  | case2 n hlt ih =>
    rw [countedSize, if_neg hlt]
    exact ih ((Nat.le_div_iff_mul_le (by decide)).2 (by omega))

/-- The reader counts the magnitude of an exponent by its digits. -/
theorem exponentMagnitude_eq {digits : List Char} (hdigits : ∀ d ∈ digits, d.isDigit = true) :
    exponentMagnitude digits = countedSize (Nat.ofDigitChars 10 digits 0) := by
  induction digits using List.reverseRecOn with
  | nil => exact (countedSize_of_lt (by decide)).symm
  | append_singleton digits d ih =>
    have hcounted := ih fun c hc => hdigits c (List.mem_append_left _ hc)
    have hdigit := digit_lt_ten (hdigits d (List.mem_append_right _ List.mem_cons_self))
    rw [exponentMagnitude, List.foldl_append, List.foldl_cons, List.foldl_nil, ← exponentMagnitude,
      hcounted, Nat.ofDigitChars_append, Nat.ofDigitChars_cons, Nat.ofDigitChars_nil]
    generalize Nat.ofDigitChars 10 digits 0 = n
    by_cases hlimit : n < exponentLimit
    · rw [countedSize_of_lt (by omega), if_pos hlimit, countedSize_of_lt (by omega)]
    · have hreached := le_countedSize (Nat.not_lt.1 hlimit)
      rw [if_neg (Nat.not_lt.2 hreached), countedSize.eq_def (10 * n + _), if_neg (by omega)]
      congr 1
      omega

/-! ## Reading the parts -/

variable {cs rest whole fraction tail : List Char} {p p' : Parts} {d : Decimal} {e : Int}

theorem isSign_of_splitSign {negative : Bool} (h : splitSign cs = (negative, rest)) :
    ∃ sign, IsSign sign negative ∧ cs = sign ++ rest := by
  rw [splitSign.eq_def] at h
  split at h
  · obtain ⟨rfl, rfl⟩ := Prod.mk.inj h
    exact ⟨_, .minus, rfl⟩
  · obtain ⟨rfl, rfl⟩ := Prod.mk.inj h
    exact ⟨_, .plus, rfl⟩
  · obtain ⟨rfl, rfl⟩ := Prod.mk.inj h
    exact ⟨_, .omitted, rfl⟩

/-- The text has no sign at its start. -/
def NoSign (rest : List Char) : Prop :=
  ∀ c ∈ rest.head?, c ≠ '-' ∧ c ≠ '+'

theorem IsSign.splitSign_append {sign : List Char} {negative : Bool} (h : IsSign sign negative)
    (hrest : NoSign rest) : splitSign (sign ++ rest) = (negative, rest) := by
  cases h with
  | omitted =>
    rw [List.nil_append, splitSign]
    · rintro rest rfl
      exact (hrest '-' rfl).1 rfl
    · rintro rest rfl
      exact (hrest '+' rfl).2 rfl
  | plus => rfl
  | minus => rfl

theorem noSign_cons {c : Char} (hdigit : c.isDigit = true) : NoSign (c :: rest) := by
  rintro c ⟨⟩
  constructor
  · rintro rfl
    cases hdigit
  · rintro rfl
    cases hdigit

theorem noSign_of_isDigit (hdigits : ∀ d ∈ rest, d.isDigit = true) : NoSign rest := by
  cases rest with
  | nil => exact fun _ hc => nomatch hc
  | cons d rest => exact noSign_cons (hdigits d List.mem_cons_self)

/-- Digits end where a character is none. -/
theorem splitDigits_append (hwhole : ∀ d ∈ whole, d.isDigit = true)
    (htail : ∀ c ∈ tail.head?, c.isDigit = false) :
    splitDigits (whole ++ tail) = (whole, tail) := by
  rw [splitDigits, List.takeWhile_append_of_pos hwhole, List.dropWhile_append_of_pos hwhole]
  cases tail with
  | nil => rw [List.takeWhile_nil, List.dropWhile_nil, List.append_nil]
  | cons c tail =>
    have hc : ¬ c.isDigit = true := Bool.eq_false_iff.1 (htail c rfl)
    rw [List.takeWhile_cons_of_neg hc, List.dropWhile_cons_of_neg hc, List.append_nil]

theorem isDigit_of_splitDigits (h : splitDigits cs = (whole, rest)) :
    (∀ d ∈ whole, d.isDigit = true) ∧ cs = whole ++ rest := by
  obtain ⟨rfl, rfl⟩ := Prod.mk.inj h
  exact ⟨fun _ hd => List.mem_takeWhile_imp hd, List.takeWhile_append_dropWhile.symm⟩

/-- What may follow the digits of a decimal. -/
def EndsDigits (tail : List Char) : Prop :=
  ∀ c ∈ tail.head?, c.isDigit = false ∧ c ≠ '.'

theorem isFraction_of_splitFraction (h : splitFraction cs = (fraction, tail)) :
    ∃ text, IsFraction text fraction ∧ cs = text ++ tail := by
  rw [splitFraction.eq_def] at h
  split at h
  · obtain ⟨hdigits, rfl⟩ := isDigit_of_splitDigits h
    exact ⟨_, .point hdigits, rfl⟩
  · obtain ⟨rfl, rfl⟩ := Prod.mk.inj h
    exact ⟨_, .omitted, rfl⟩

theorem IsFraction.splitFraction_append {text : List Char} (h : IsFraction text fraction)
    (htail : EndsDigits tail) : splitFraction (text ++ tail) = (fraction, tail) := by
  cases h with
  | omitted =>
    rw [List.nil_append, splitFraction]
    rintro rest rfl
    exact (htail '.' rfl).2 rfl
  | point hdigits => exact splitDigits_append hdigits fun c hc => (htail c hc).1

/-- A decimal without a sign starts with a digit or a point. -/
theorem IsFraction.noSign {text : List Char} (h : IsFraction text fraction)
    (hwhole : ∀ d ∈ whole, d.isDigit = true) (hne : whole ++ fraction ≠ []) :
    NoSign (whole ++ (text ++ tail)) := by
  cases whole with
  | cons d whole => exact noSign_cons (hwhole d List.mem_cons_self)
  | nil =>
    cases h with
    | omitted => exact absurd rfl hne
    | point =>
      rintro c ⟨⟩
      decide

/-- A point ends the digits before it. -/
theorem IsFraction.isDigit_head {text : List Char} (h : IsFraction text fraction)
    (htail : EndsDigits tail) : ∀ c ∈ (text ++ tail).head?, c.isDigit = false := by
  cases h with
  | omitted => exact fun c hc => (htail c hc).1
  | point hdigits =>
    rintro c ⟨⟩
    rfl

/-- An exponent ends the digits before it. -/
theorem IsExponent.endsDigits {digits : List Char} {negative : Bool}
    (h : IsExponent tail negative digits) : EndsDigits tail := by
  cases h with
  | omitted => exact fun _ hc => nomatch hc
  | marked hmark =>
    rintro c ⟨⟩
    rcases hmark with rfl | rfl
    · exact ⟨rfl, by decide⟩
    · exact ⟨rfl, by decide⟩

theorem readExponent?_eq_some_iff : readExponent? cs = some e ↔
    ∃ negative digits, IsExponent cs negative digits ∧
      e = signedExponent negative (countedSize (Nat.ofDigitChars 10 digits 0)) := by
  constructor
  · intro h
    cases cs with
    | nil =>
      refine ⟨false, [], .omitted, ?_⟩
      rw [← Option.some_inj.1 h, Nat.ofDigitChars_nil, countedSize_of_lt (by decide)]
      rfl
    | cons mark rest =>
      rcases hsplit : splitSign rest with ⟨negative, digits⟩
      obtain ⟨sign, hsign, rfl⟩ := isSign_of_splitSign hsplit
      rw [readExponent?, hsplit] at h
      dsimp only at h
      split at h
      · next hparts =>
        obtain ⟨hmark, hne, hdigits⟩ := hparts
        rw [List.all_eq_true] at hdigits
        refine ⟨negative, digits, .marked hmark hsign hne hdigits, ?_⟩
        rw [← Option.some_inj.1 h, exponentMagnitude_eq hdigits, signedExponent]
      · cases h
  · rintro ⟨negative, digits, hexponent, rfl⟩
    cases hexponent with
    | omitted =>
      rw [Nat.ofDigitChars_nil, countedSize_of_lt (by decide)]
      rfl
    | marked hmark hsign hne hdigits =>
      rw [readExponent?, hsign.splitSign_append (noSign_of_isDigit hdigits)]
      dsimp only
      rw [if_pos ⟨hmark, hne, List.all_eq_true.2 hdigits⟩, exponentMagnitude_eq hdigits,
        signedExponent]

/-- What the splits of a text find in a decimal of the parts. -/
theorem Spells.split (h : Spells cs p) : ∃ unsigned afterWhole tail,
    splitSign cs = (p.negative, unsigned) ∧ splitDigits unsigned = (p.whole, afterWhole) ∧
      splitFraction afterWhole = (p.fraction, tail) ∧ p.whole ++ p.fraction ≠ [] ∧
      IsExponent tail p.exponentNegative p.exponentDigits := by
  obtain ⟨hsign, hwhole, hfraction, hne, hexponent⟩ := h
  have hend := hexponent.endsDigits
  exact ⟨_, _, _, hsign.splitSign_append (hfraction.noSign hwhole hne),
    splitDigits_append hwhole (hfraction.isDigit_head hend), hfraction.splitFraction_append hend,
    hne, hexponent⟩

theorem IsExponent.unique {negative negative' : Bool} {digits digits' : List Char}
    (h : IsExponent tail negative digits) (h' : IsExponent tail negative' digits') :
    negative = negative' ∧ digits = digits' := by
  cases h with
  | omitted =>
    cases h'
    exact ⟨rfl, rfl⟩
  | marked _ hsign _ hdigits =>
    generalize htail : _ :: (_ ++ digits) = tail at h'
    cases h' with
    | omitted => cases htail
    | marked _ hsign' _ hdigits' =>
      have hsplit := hsign.splitSign_append (noSign_of_isDigit hdigits)
      rw [(List.cons.inj htail).2, hsign'.splitSign_append (noSign_of_isDigit hdigits')] at hsplit
      obtain ⟨hnegative, hdigits⟩ := Prod.mk.inj hsplit
      exact ⟨hnegative.symm, hdigits.symm⟩

/-- A text is a decimal in one way. -/
theorem Spells.unique (h : Spells cs p) (h' : Spells cs p') : p = p' := by
  obtain ⟨_, _, _, hsign, hwhole, hfraction, _, hexponent⟩ := h.split
  obtain ⟨_, _, _, hsign', hwhole', hfraction', _, hexponent'⟩ := h'.split
  obtain ⟨hnegative, rfl⟩ := Prod.mk.inj (hsign.symm.trans hsign')
  obtain ⟨hdigits, rfl⟩ := Prod.mk.inj (hwhole.symm.trans hwhole')
  obtain ⟨hdigits', rfl⟩ := Prod.mk.inj (hfraction.symm.trans hfraction')
  obtain ⟨hexponentNegative, hexponentDigits⟩ := hexponent.unique hexponent'
  exact Parts.ext hnegative hdigits hdigits' hexponentNegative hexponentDigits

theorem IsFraction.isDigit {text : List Char} (h : IsFraction text fraction) :
    ∀ d ∈ fraction, d.isDigit = true := by
  cases h with
  | omitted => exact fun _ hd => nomatch hd
  | point hdigits => exact hdigits

theorem Spells.isDigit (h : Spells cs p) : ∀ d ∈ p.whole ++ p.fraction, d.isDigit = true := by
  obtain ⟨_, hwhole, hfraction, _, _⟩ := h
  intro d hd
  rcases List.mem_append.1 hd with hd | hd
  · exact hwhole d hd
  · exact hfraction.isDigit d hd

/-- The texts of decimals are read, and no others. -/
theorem read?_eq_some_iff : read? cs = some d ↔ ∃ p, Spells cs p ∧ d = p.counted := by
  constructor
  · intro h
    rcases hsplit : splitSign cs with ⟨negative, unsigned⟩
    obtain ⟨sign, hsign, rfl⟩ := isSign_of_splitSign hsplit
    rcases hsplit' : splitDigits unsigned with ⟨whole, afterWhole⟩
    obtain ⟨hwhole, rfl⟩ := isDigit_of_splitDigits hsplit'
    rcases hsplit'' : splitFraction afterWhole with ⟨fraction, tail⟩
    obtain ⟨text, hfraction, rfl⟩ := isFraction_of_splitFraction hsplit''
    rw [read?, hsplit] at h
    dsimp only at h
    rw [hsplit'] at h
    dsimp only at h
    rw [hsplit''] at h
    dsimp only at h
    split at h
    · cases h
    · next hne =>
      obtain ⟨e, hread, rfl⟩ := Option.map_eq_some_iff.1 h
      obtain ⟨exponentNegative, exponentDigits, hexponent, rfl⟩ := readExponent?_eq_some_iff.1 hread
      refine ⟨⟨negative, whole, fraction, exponentNegative, exponentDigits⟩,
        .intro hsign hwhole hfraction hne hexponent, ?_⟩
      rw [natural_eq]
      rfl
  · rintro ⟨p, hp, rfl⟩
    obtain ⟨unsigned, afterWhole, tail, hsign, hwhole, hfraction, hne, hexponent⟩ := hp.split
    rw [read?, hsign]
    dsimp only
    rw [hwhole]
    dsimp only
    rw [hfraction]
    dsimp only
    rw [if_neg hne, readExponent?_eq_some_iff.2 ⟨_, _, hexponent, rfl⟩, Option.map_some, natural_eq]
    rfl

theorem Spells.ne_nil (h : Spells cs p) : cs ≠ [] := by
  rintro rfl
  cases read?_eq_some_iff.2 ⟨p, h, rfl⟩

/-! ## Blanks -/

theorem isBlank_of_isDigit {c : Char} (h : c.isDigit = true) : Text.isBlank c = false := by
  have hbounds : 48 ≤ c.toNat ∧ c.toNat ≤ 57 := by
    simpa [Char.isDigit, UInt32.le_iff_toNat_le] using h
  simp only [Text.isBlank, Bool.or_eq_false_iff, Bool.and_eq_false_iff, decide_eq_false_iff_not,
    beq_eq_false_iff_ne]
  omega

theorem IsSign.isBlank {sign : List Char} {negative : Bool} (h : IsSign sign negative) :
    ∀ c ∈ sign, Text.isBlank c = false := by
  cases h with
  | omitted => exact fun _ hc => nomatch hc
  | plus => exact List.forall_mem_singleton.2 rfl
  | minus => exact List.forall_mem_singleton.2 rfl

theorem IsFraction.isBlank {text : List Char} (h : IsFraction text fraction) :
    ∀ c ∈ text, Text.isBlank c = false := by
  cases h with
  | omitted => exact fun _ hc => nomatch hc
  | point hdigits =>
    exact List.forall_mem_cons.2 ⟨rfl, fun c hc => isBlank_of_isDigit (hdigits c hc)⟩

theorem IsExponent.isBlank {digits : List Char} {negative : Bool}
    (h : IsExponent tail negative digits) : ∀ c ∈ tail, Text.isBlank c = false := by
  cases h with
  | omitted => exact fun _ hc => nomatch hc
  | marked hmark hsign _ hdigits =>
    refine List.forall_mem_cons.2 ⟨by rcases hmark with rfl | rfl <;> rfl, ?_⟩
    exact List.forall_mem_append.2 ⟨hsign.isBlank, fun c hc => isBlank_of_isDigit (hdigits c hc)⟩

/-- A decimal has no blanks. -/
theorem Spells.isBlank (h : Spells cs p) : ∀ c ∈ cs, Text.isBlank c = false := by
  obtain ⟨hsign, hwhole, hfraction, _, hexponent⟩ := h
  simp only [List.forall_mem_append]
  exact ⟨hsign.isBlank, fun c hc => isBlank_of_isDigit (hwhole c hc), hfraction.isBlank,
    hexponent.isBlank⟩

/-! ## Exponents that are not counted in full -/

namespace Parts

/-- The exponent is counted in full, or it is so far beyond the digits of the decimal that the
    number is zero or infinite in any case. -/
def Moderate (p : Parts) : Prop :=
  p.exponentValue < 10 * exponentLimit ∨
    if p.exponentNegative then p.whole.length + underflowPower ≤ exponentLimit
    else p.fraction.length + overflowPower ≤ exponentLimit

variable {m : Nat}

/-- A negative exponent of a magnitude beyond the digits before the point makes zero. -/
theorem toBinary64_scaled_of_negative (hdigits : ∀ d ∈ p.whole ++ p.fraction, d.isDigit = true)
    (hnegative : p.exponentNegative = true) (hm : p.whole.length + underflowPower ≤ m) :
    (p.scaled m).toBinary64 = .zero p.negative := by
  refine toBinary64_of_lt (d := p.scaled m) ?_
  have hexponent : (p.scaled m).exponent = -m - p.fraction.length := by
    rw [scaled, hnegative]
    rfl
  have hcoefficient : ((p.scaled m).coefficient : ℚ) < 10 ^ (p.whole ++ p.fraction).length := by
    exact_mod_cast ofDigitChars_lt hdigits
  calc (p.scaled m).magnitude
      < 10 ^ (p.whole ++ p.fraction).length * 10 ^ (p.scaled m).exponent :=
        mul_lt_mul_of_pos_right hcoefficient (by positivity)
    _ = 10 ^ (((p.whole ++ p.fraction).length : ℤ) + (p.scaled m).exponent) := by
        rw [zpow_add₀ (by norm_num), zpow_natCast]
    _ ≤ 10 ^ (-underflowPower : ℤ) := by
        refine zpow_le_zpow_right₀ (by norm_num) ?_
        rw [hexponent, List.length_append]
        omega

/-- A positive exponent of a magnitude beyond the digits after the point makes infinity, but of a
    zero. -/
theorem toBinary64_scaled_of_positive (hnegative : p.exponentNegative = false)
    (hm : p.fraction.length + overflowPower ≤ m) :
    (p.scaled m).toBinary64 =
      if Nat.ofDigitChars 10 (p.whole ++ p.fraction) 0 = 0 then .zero p.negative
      else .infinity p.negative := by
  split
  · next hzero => rw [toBinary64, if_pos (.inl hzero), scaled]
  · next hne =>
    refine toBinary64_of_le (d := p.scaled m) ?_
    have hexponent : (p.scaled m).exponent = m - p.fraction.length := by
      rw [scaled, hnegative]
      rfl
    have hcoefficient : (1 : ℚ) ≤ (p.scaled m).coefficient := by
      exact_mod_cast Nat.one_le_iff_ne_zero.2 hne
    calc (10 : ℚ) ^ (overflowPower : ℤ) ≤ 10 ^ (p.scaled m).exponent := by
          refine zpow_le_zpow_right₀ (by norm_num) ?_
          rw [hexponent]
          omega
      _ ≤ (p.scaled m).magnitude := le_mul_of_one_le_left (by positivity) hcoefficient

end Parts

/-- An exponent that is not counted in full makes the same number as it is counted. -/
theorem Spells.toBinary64_counted (h : Spells cs p) (hp : p.Moderate) :
    p.counted.toBinary64 = p.decimal.toBinary64 := by
  rcases Nat.lt_or_ge p.exponentValue (10 * exponentLimit) with hlt | hge
  · rw [Parts.counted, countedSize_of_lt hlt, Parts.decimal]
  · have hbounds := hp.resolve_left (Nat.not_lt.2 hge)
    have hvalue : exponentLimit ≤ p.exponentValue := Nat.le_trans (by decide) hge
    have hcounted := le_countedSize hvalue
    rw [Parts.counted, Parts.decimal]
    split at hbounds
    · next hnegative =>
      rw [Parts.toBinary64_scaled_of_negative h.isDigit hnegative (hbounds.trans hcounted),
        Parts.toBinary64_scaled_of_negative h.isDigit hnegative (hbounds.trans hvalue)]
    · next hpositive =>
      rw [Bool.not_eq_true] at hpositive
      rw [Parts.toBinary64_scaled_of_positive hpositive (hbounds.trans hcounted),
        Parts.toBinary64_scaled_of_positive hpositive (hbounds.trans hvalue)]

end ValueBridge.Decimal
