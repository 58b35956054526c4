import ValueBridge.Proofs.Decimal.Grammar
import ValueBridge.Proofs.Json.Strings
import ValueBridge.Proofs.Text.Index

/-!
# How JSON tokens are spelled

Which texts are JSON numbers, and of which parts (`Json.IsNumber`); and so what the words of a
document look like (`Json.Spells`). A text may begin with more than one number, as `12` does with
`1`: a number ends where no further character could belong to it (`Json.EndsNumber`). Where that is,
the scanner takes the token that is spelled and leaves the rest (`Json.scanToken_append`), and it
takes nothing but what is spelled (`Json.spells_of_scanToken`).
-/

namespace ValueBridge.Json

variable {cs rest text : List Char} {n : NumberForm} {token : Token}

/-! ## Numbers -/

/-- The minus sign, or nothing. -/
inductive IsMinus : List Char → Bool → Prop
  | omitted : IsMinus [] false
  | minus : IsMinus ['-'] true

/-- A lone zero, or digits of which the first is no zero. -/
inductive IsWhole : List Char → Prop
  | zero : IsWhole ['0']
  | digits {d : Char} {ds : List Char} (hne : d ≠ '0')
      (hdigits : ∀ c ∈ d :: ds, c.isDigit = true) : IsWhole (d :: ds)

/-- A point and the digits after it, of which there is one at least; or neither. -/
inductive IsFraction : List Char → List Char → Prop
  | omitted : IsFraction [] []
  | point {digits : List Char} (hne : digits ≠ [])
      (hdigits : ∀ d ∈ digits, d.isDigit = true) : IsFraction ('.' :: digits) digits

/-- An exponent, which may have a sign and has one digit at least; or none. -/
inductive IsExponent : List Char → Option Int → Prop
  | omitted : IsExponent [] none
  | marked {mark : Char} {sign digits : List Char} {negative : Bool}
      (hmark : mark = 'e' ∨ mark = 'E') (hsign : Decimal.IsSign sign negative) (hne : digits ≠ [])
      (hdigits : ∀ d ∈ digits, d.isDigit = true) :
    IsExponent (mark :: (sign ++ digits))
      (some (Decimal.signedExponent negative (Nat.ofDigitChars 10 digits 0)))

/-- The text is a number of this form. -/
inductive IsNumber : List Char → NumberForm → Prop
  | intro {sign whole pointed fraction exponent : List Char} {negative : Bool}
      {exponent? : Option Int} (hsign : IsMinus sign negative) (hwhole : IsWhole whole)
      (hfraction : IsFraction pointed fraction) (hexponent : IsExponent exponent exponent?) :
    IsNumber (sign ++ (whole ++ (pointed ++ exponent))) ⟨negative, whole, fraction, exponent?⟩

/-- No number goes on with what the text begins with. -/
def EndsNumber (rest : List Char) : Prop :=
  ∀ c ∈ rest.head?, c.isDigit = false ∧ c ≠ '.' ∧ c ≠ 'e' ∧ c ≠ 'E'

theorem IsWhole.exists_cons (h : IsWhole cs) : ∃ d ds, cs = d :: ds ∧ d.isDigit = true := by
  cases h with
  | zero => exact ⟨_, _, rfl, rfl⟩
  | digits _ hdigits => exact ⟨_, _, rfl, hdigits _ List.mem_cons_self⟩

/-- The whole digits end where no further digit follows. -/
theorem scanWhole_append (h : IsWhole cs) (hrest : ∀ c ∈ rest.head?, c.isDigit = false) :
    scanWhole (cs ++ rest) = some (cs, rest) := by
  cases h with
  | zero => rfl
  | @digits d ds hne hdigits =>
    rw [List.cons_append, scanWhole]
    · rw [← List.cons_append, Decimal.splitDigits_append hdigits hrest]
      exact if_neg (List.cons_ne_nil d ds)
    · rintro rest' hzero
      exact hne (List.cons.inj hzero).1

theorem isWhole_of_scanWhole {digits : List Char} (h : scanWhole cs = some (digits, rest)) :
    IsWhole digits ∧ cs = digits ++ rest := by
  rw [scanWhole.eq_def] at h
  split at h
  · cases h
    exact ⟨.zero, rfl⟩
  · next hzero =>
    rcases hsplit : Decimal.splitDigits cs with ⟨digits', rest'⟩
    rw [hsplit] at h
    obtain ⟨hdigits, rfl⟩ := Decimal.isDigit_of_splitDigits hsplit
    dsimp only at h
    split at h
    · cases h
    · next hne =>
      cases h
      refine ⟨?_, rfl⟩
      cases digits with
      | nil => exact absurd rfl hne
      | cons d ds =>
        refine .digits ?_ hdigits
        rintro rfl
        exact hzero _ rfl

theorem scanFraction_append {pointed fraction : List Char} (h : IsFraction pointed fraction)
    (hrest : ∀ c ∈ rest.head?, c.isDigit = false ∧ c ≠ '.') :
    scanFraction (pointed ++ rest) = some (fraction, rest) := by
  cases h with
  | omitted =>
    rw [List.nil_append, scanFraction]
    rintro rest' rfl
    exact (hrest '.' rfl).2 rfl
  | point hne hdigits =>
    rw [List.cons_append, scanFraction,
      Decimal.splitDigits_append hdigits fun c hc => (hrest c hc).1]
    exact if_neg hne

theorem isFraction_of_scanFraction {fraction : List Char}
    (h : scanFraction cs = some (fraction, rest)) :
    ∃ pointed, IsFraction pointed fraction ∧ cs = pointed ++ rest := by
  rw [scanFraction.eq_def] at h
  split at h
  · next cs' =>
    rcases hsplit : Decimal.splitDigits cs' with ⟨digits, rest'⟩
    rw [hsplit] at h
    obtain ⟨hdigits, rfl⟩ := Decimal.isDigit_of_splitDigits hsplit
    dsimp only at h
    split at h
    · cases h
    · next hne =>
      cases h
      exact ⟨_, .point hne hdigits, rfl⟩
  · cases h
    exact ⟨[], .omitted, rfl⟩

theorem scanExponent_append {exponent : List Char} {exponent? : Option Int}
    (h : IsExponent exponent exponent?) (hrest : EndsNumber rest) :
    scanExponent (exponent ++ rest) = some (exponent?, rest) := by
  cases h with
  | omitted =>
    cases rest with
    | nil => rfl
    | cons c rest =>
      obtain ⟨-, -, he, hE⟩ := hrest c rfl
      rw [List.nil_append, scanExponent, if_neg (not_or.2 ⟨he, hE⟩)]
  | @marked mark sign digits negative hmark hsign hne hdigits =>
    have hsplit : Decimal.splitSign (sign ++ (digits ++ rest)) = (negative, digits ++ rest) := by
      refine hsign.splitSign_append ?_
      cases digits with
      | nil => exact absurd rfl hne
      | cons d ds => exact Decimal.noSign_cons (hdigits d List.mem_cons_self)
    rw [List.cons_append, scanExponent, if_pos hmark, List.append_assoc, hsplit]
    dsimp only
    rw [Decimal.splitDigits_append hdigits fun c hc => (hrest c hc).1]
    exact if_neg hne

theorem isExponent_of_scanExponent {exponent? : Option Int}
    (h : scanExponent cs = some (exponent?, rest)) :
    ∃ exponent, IsExponent exponent exponent? ∧ cs = exponent ++ rest := by
  cases cs with
  | nil =>
    rw [scanExponent] at h
    cases h
    exact ⟨[], .omitted, rfl⟩
  | cons mark cs =>
    rw [scanExponent] at h
    split at h
    · next hmark =>
      rcases hsign : Decimal.splitSign cs with ⟨negative, unsigned⟩
      rcases hsplit : Decimal.splitDigits unsigned with ⟨digits, rest'⟩
      rw [hsign] at h
      dsimp only at h
      rw [hsplit] at h
      dsimp only at h
      obtain ⟨sign, hsign', rfl⟩ := Decimal.isSign_of_splitSign hsign
      obtain ⟨hdigits, rfl⟩ := Decimal.isDigit_of_splitDigits hsplit
      split at h
      · cases h
      · next hne =>
        cases h
        refine ⟨mark :: (sign ++ digits), .marked hmark hsign' hne hdigits, ?_⟩
        rw [List.cons_append, List.append_assoc]
    · cases h
      exact ⟨[], .omitted, rfl⟩

/-- What follows a fraction may be an exponent, or the end of the number. -/
theorem IsExponent.ends {exponent : List Char} {exponent? : Option Int}
    (h : IsExponent exponent exponent?) (hrest : EndsNumber rest) :
    ∀ c ∈ (exponent ++ rest).head?, c.isDigit = false ∧ c ≠ '.' := by
  cases h with
  | omitted => exact fun c hc => ⟨(hrest c hc).1, (hrest c hc).2.1⟩
  | marked hmark =>
    rintro c ⟨⟩
    rcases hmark with rfl | rfl <;> decide

theorem IsFraction.ends {pointed fraction tail : List Char} (h : IsFraction pointed fraction)
    (htail : ∀ c ∈ tail.head?, c.isDigit = false ∧ c ≠ '.') :
    ∀ c ∈ (pointed ++ tail).head?, c.isDigit = false := by
  cases h with
  | omitted => exact fun c hc => (htail c hc).1
  | point =>
    rintro c ⟨⟩
    rfl

/-- The scanner takes a number as far as it goes. -/
theorem scanNumber_append (h : IsNumber text n) (hrest : EndsNumber rest) :
    scanNumber (text ++ rest) = some (n, rest) := by
  cases h with
  | @intro _ whole pointed fraction exponent negative exponent? hsign hwhole hfraction hexponent =>
    -- Each part ends where the next one begins.
    have htail := hexponent.ends hrest
    have hunsigned : scanUnsigned negative (whole ++ (pointed ++ (exponent ++ rest))) =
        some (⟨negative, whole, fraction, exponent?⟩, rest) := by
      rw [scanUnsigned, scanWhole_append hwhole (hfraction.ends htail)]
      simp only [Option.bind_eq_bind, Option.bind_some]
      rw [scanFraction_append hfraction htail, Option.bind_some,
        scanExponent_append hexponent hrest]
      rfl
    simp only [List.append_assoc]
    cases hsign with
    | omitted =>
      rw [List.nil_append, scanNumber, hunsigned]
      obtain ⟨d, ds, rfl, hd⟩ := hwhole.exists_cons
      intro rest' heq
      rw [(List.cons.inj heq).1] at hd
      cases hd
    | minus => exact hunsigned

theorem isNumber_of_scanUnsigned {sign : List Char} {negative : Bool}
    (hsign : IsMinus sign negative) (h : scanUnsigned negative cs = some (n, rest)) :
    ∃ text, IsNumber text n ∧ sign ++ cs = text ++ rest := by
  simp only [scanUnsigned, Option.bind_eq_bind, Option.bind_eq_some_iff] at h
  obtain ⟨⟨whole, cs₁⟩, hscan₁, ⟨fraction, cs₂⟩, hscan₂, ⟨exponent?, cs₃⟩, hscan₃, hn⟩ := h
  cases hn
  dsimp only at hscan₂ hscan₃ ⊢
  obtain ⟨hwhole, rfl⟩ := isWhole_of_scanWhole hscan₁
  obtain ⟨pointed, hfraction, rfl⟩ := isFraction_of_scanFraction hscan₂
  obtain ⟨exponent, hexponent, rfl⟩ := isExponent_of_scanExponent hscan₃
  refine ⟨_, .intro hsign hwhole hfraction hexponent, ?_⟩
  simp only [List.append_assoc]

theorem isNumber_of_scanNumber (h : scanNumber cs = some (n, rest)) :
    ∃ text, IsNumber text n ∧ cs = text ++ rest := by
  rw [scanNumber.eq_def] at h
  split at h
  · exact isNumber_of_scanUnsigned .minus h
  · exact isNumber_of_scanUnsigned .omitted h

/-- A number begins with a minus sign or a digit. -/
theorem IsNumber.exists_cons (h : IsNumber text n) :
    ∃ c cs, text = c :: cs ∧ (c = '-' ∨ c.isDigit = true) := by
  cases h with
  | intro hsign hwhole =>
    cases hsign with
    | omitted =>
      obtain ⟨d, ds, rfl, hd⟩ := hwhole.exists_cons
      exact ⟨_, _, rfl, .inr hd⟩
    | minus => exact ⟨_, _, rfl, .inl rfl⟩

theorem isWhole_toDigits (n : Nat) : IsWhole (Nat.toDigits 10 n) := by
  obtain ⟨d, ds, hdigits⟩ := List.exists_cons_of_ne_nil (Nat.toDigits_ne_nil (n := n) (b := 10))
  by_cases hd : d = '0'
  · subst hd
    cases ds with
    | nil =>
      rw [hdigits]
      exact .zero
    | cons d ds => exact absurd hdigits (Text.toDigits_ne_zero_cons n d ds)
  · rw [hdigits]
    refine .digits hd fun c hc => ?_
    rw [← hdigits] at hc
    exact Nat.isDigit_of_mem_toDigits (by decide) (by decide) hc

/-- The digits of a natural are a number. -/
theorem isNumber_toDigits (n : Nat) :
    IsNumber (Nat.toDigits 10 n) ⟨false, Nat.toDigits 10 n, [], none⟩ := by
  have hnumber := IsNumber.intro .omitted (isWhole_toDigits n) .omitted .omitted
  rwa [List.nil_append, List.append_nil, List.append_nil] at hnumber

/-! ## Tokens -/

/-- The text is the token as it is written. -/
inductive Spells : Token → List Char → Prop
  | openArray : Spells .openArray ['[']
  | closeArray : Spells .closeArray [']']
  | openObject : Spells .openObject ['\x7b']
  | closeObject : Spells .closeObject ['\x7d']
  | comma : Spells .comma [',']
  | colon : Spells .colon [':']
  | null : Spells .null ['n', 'u', 'l', 'l']
  | yes : Spells (.bool true) ['t', 'r', 'u', 'e']
  | no : Spells (.bool false) ['f', 'a', 'l', 's', 'e']
  | number {n : NumberForm} {text : List Char} (htext : IsNumber text n) : Spells (.number n) text
  | string {points : List Nat} {body : List Char} (hbody : IsBody body points) :
    Spells (.string points) ('"' :: (body ++ ['"']))

/-- The token is a number. -/
def Token.IsNumber (token : Token) : Prop :=
  ∃ n, token = .number n

theorem scanToken_of_isNumber {c : Char} (hc : c = '-' ∨ c.isDigit = true) :
    scanToken (c :: cs) = (scanNumber (c :: cs)).map fun (n, rest) => (.number n, rest) := by
  rw [scanToken.eq_def]
  -- Every other token begins with a character that no number begins with.
  split
  all_goals first
    | rfl
    | next heq =>
      rw [(List.cons.inj heq).1] at hc
      rcases hc with hc | hc <;> cases hc

/-- The scanner takes a token that is spelled, a number where it ends. -/
theorem scanToken_append (h : Spells token text) (hrest : token.IsNumber → EndsNumber rest) :
    scanToken (text ++ rest) = some (token, rest) := by
  cases h with
  | @number n _ htext =>
    have hscan := scanNumber_append htext (hrest ⟨n, rfl⟩)
    obtain ⟨c, cs, rfl, hc⟩ := htext.exists_cons
    rw [List.cons_append] at hscan ⊢
    rw [scanToken_of_isNumber hc, hscan]
    rfl
  | @string points body hbody =>
    obtain ⟨units, hunits, rfl⟩ := hbody.exists_isUnits
    rw [List.cons_append, List.append_assoc, List.singleton_append, scanToken,
      scanString_append hunits]
    rfl
  | _ => rfl

/-- The scanner takes nothing but a token that is spelled. -/
theorem spells_of_scanToken (h : scanToken cs = some (token, rest)) :
    ∃ text, Spells token text ∧ cs = text ++ rest := by
  rw [scanToken.eq_def] at h
  split at h
  case h_10 rest' =>
    rcases hscan : scanString [] rest' with _ | ⟨units, rest''⟩ <;> rw [hscan] at h <;> cases h
    obtain ⟨body, units', hunits, rfl, rfl⟩ := isUnits_of_scanString hscan
    refine ⟨_, .string hunits.isBody, ?_⟩
    rw [List.cons_append, List.append_assoc, List.singleton_append]
  case h_11 =>
    rcases hscan : scanNumber cs with _ | ⟨n, rest'⟩ <;> rw [hscan] at h <;> cases h
    obtain ⟨text, htext, rfl⟩ := isNumber_of_scanNumber hscan
    exact ⟨text, .number htext, rfl⟩
  all_goals
    cases h
    exact ⟨_, by constructor, rfl⟩

/-- What no token but a number begins with. -/
theorem Spells.exists_cons (h : Spells token text) : ∃ c cs, text = c :: cs ∧
    isBlank c = false ∧ (¬token.IsNumber → c.isDigit = false ∧ c ≠ '.' ∧ c ≠ 'e' ∧ c ≠ 'E') := by
  cases h with
  | number htext =>
    obtain ⟨c, cs, rfl, hc⟩ := htext.exists_cons
    refine ⟨c, cs, rfl, ?_, fun hnot => absurd ⟨_, rfl⟩ hnot⟩
    rcases hc with rfl | hc
    · rfl
    · simp only [isBlank, Bool.or_eq_false_iff, decide_eq_false_iff_not]
      refine ⟨⟨⟨?_, ?_⟩, ?_⟩, ?_⟩ <;> rintro rfl <;> cases hc
  | _ => exact ⟨_, _, rfl, rfl, fun _ => by decide⟩

end ValueBridge.Json
