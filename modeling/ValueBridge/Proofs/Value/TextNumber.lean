import ValueBridge.Proofs.Decimal.Grammar
import ValueBridge.Proofs.Text.Blank
import ValueBridge.Value.Number

/-!
# The number of a text

What number a text has (`Binary64.IsNumberOf`), said of the text without the blanks at its ends:
nothing is 0, a decimal the number nearest to what it denotes, the name of the infinity the
infinity, and everything else is no number. Every text has its number (`Value.toNumber_string`).

What a decimal denotes is exact, but for an exponent that is not counted in full. A decimal of tens
of thousands of digits can undo such an exponent, and then its number is another one than the
nearest to what is written (`Value.toNumber_string_undone`).
-/

namespace ValueBridge

namespace Binary64

open Decimal

variable {t : List Char} {x : Binary64} {p : Parts} {negative : Bool}

/-! ## Infinities -/

/-- The text is a name of the infinity, in any case of the letters, after a sign or none. -/
inductive IsInfinity : List Char → Bool → Prop
  | intro {sign name : List Char} {negative : Bool} (hsign : IsSign sign negative)
      (hname : name.map Char.toLower = "inf".toList ∨ name.map Char.toLower = "infinity".toList) :
    IsInfinity (sign ++ name) negative

theorem toLower_of_isDigit {c : Char} (h : c.isDigit = true) : c.toLower = c := by
  refine dif_neg fun hupper => ?_
  simp [Char.isDigit, UInt32.le_iff_toNat_le] at h hupper
  omega

/-- A name of the infinity starts with a letter. -/
theorem exists_letter {name : List Char}
    (hname : name.map Char.toLower = "inf".toList ∨ name.map Char.toLower = "infinity".toList) :
    ∃ c cs, name = c :: cs ∧ c.toLower = 'i' := by
  rcases hname with hname | hname
  · obtain ⟨c, cs, hcons, hlower, -⟩ := List.map_eq_cons_iff.1 hname
    exact ⟨c, cs, hcons, hlower⟩
  · obtain ⟨c, cs, hcons, hlower, -⟩ := List.map_eq_cons_iff.1 hname
    exact ⟨c, cs, hcons, hlower⟩

theorem noSign_of_toLower {c : Char} {cs : List Char} (h : c.toLower = 'i') : NoSign (c :: cs) := by
  rintro d ⟨⟩
  constructor
  · rintro rfl
    cases h
  · rintro rfl
    cases h

theorem readInfinity?_eq_some_iff :
    readInfinity? t = some x ↔ ∃ negative, IsInfinity t negative ∧ x = infinity negative := by
  constructor
  · intro h
    rcases hsplit : splitSign t with ⟨negative, name⟩
    obtain ⟨sign, hsign, rfl⟩ := isSign_of_splitSign hsplit
    rw [readInfinity?, hsplit] at h
    dsimp only at h
    split at h
    · next hname => exact ⟨negative, .intro hsign hname, (Option.some_inj.1 h).symm⟩
    · cases h
  · rintro ⟨negative, ⟨hsign, hname⟩, rfl⟩
    obtain ⟨c, cs, rfl, hlower⟩ := exists_letter hname
    rw [readInfinity?, hsign.splitSign_append (noSign_of_toLower hlower)]
    exact if_pos hname

theorem IsInfinity.ne_nil (h : IsInfinity t negative) : t ≠ [] := by
  obtain ⟨hsign, hname⟩ := h
  obtain ⟨c, cs, rfl, -⟩ := exists_letter hname
  exact List.append_ne_nil_of_right_ne_nil _ (List.cons_ne_nil c cs)

/-- A name of the infinity is no decimal. -/
theorem IsInfinity.not_spells (h : IsInfinity t negative) : ¬ Spells t p := by
  intro hp
  obtain ⟨hsign, hname⟩ := h
  obtain ⟨c, cs, rfl, hlower⟩ := exists_letter hname
  have hdigit : c.isDigit = false := by
    rw [Bool.eq_false_iff]
    intro hdigit
    rw [toLower_of_isDigit hdigit] at hlower
    rw [hlower] at hdigit
    cases hdigit
  have hend : EndsDigits (c :: cs) := by
    rintro d ⟨⟩
    refine ⟨hdigit, ?_⟩
    rintro rfl
    cases hlower
  -- So there are no digits after the sign, neither before a point nor after one.
  obtain ⟨unsigned, afterWhole, tail, hsplit, hwhole, hfraction, hne, -⟩ := hp.split
  rw [hsign.splitSign_append (noSign_of_toLower hlower)] at hsplit
  obtain ⟨-, rfl⟩ := Prod.mk.inj hsplit
  have hbefore : splitDigits ([] ++ c :: cs) = ([], c :: cs) :=
    splitDigits_append (fun _ hd => nomatch hd) fun d hd => (hend d hd).1
  obtain ⟨hnil, rfl⟩ := Prod.mk.inj (hwhole.symm.trans hbefore)
  have hafter : splitFraction ([] ++ c :: cs) = ([], c :: cs) :=
    IsFraction.omitted.splitFraction_append hend
  obtain ⟨hnil', rfl⟩ := Prod.mk.inj (hfraction.symm.trans hafter)
  rw [hnil, hnil'] at hne
  exact hne rfl

/-! ## Numbers of texts -/

/-- The number of a text without blanks at its ends, by what the decimals denote. -/
inductive IsNumberOf (value : Parts → Decimal) : List Char → Binary64 → Prop
  | empty : IsNumberOf value [] (zero false)
  | decimal {t : List Char} {p : Parts} {x : Binary64} (hdecimal : Spells t p)
      (hnearest : IsNearest p.negative (value p).magnitude x) : IsNumberOf value t x
  | infinity {t : List Char} {negative : Bool} (hinfinity : IsInfinity t negative) :
    IsNumberOf value t (infinity negative)
  | other {t : List Char} (hne : t ≠ []) (hdecimal : ∀ p, ¬ Spells t p)
      (hinfinity : ∀ negative, ¬ IsInfinity t negative) : IsNumberOf value t nan

/-- The number of a decimal is the nearest one to it and none else. -/
theorem isNumberOf_of_spells {value : Parts → Decimal} (h : Spells t p) :
    IsNumberOf value t x ↔ IsNearest p.negative (value p).magnitude x := by
  constructor
  · rintro (_ | ⟨hp, hx⟩ | hinfinity | ⟨-, hdecimal, -⟩)
    · exact absurd rfl h.ne_nil
    · rwa [h.unique hp]
    · exact absurd h hinfinity.not_spells
    · exact absurd h (hdecimal p)
  · exact .decimal h

theorem isNearest_scaled {m : ℕ} :
    IsNearest p.negative (p.scaled m).magnitude x ↔ x = (p.scaled m).toBinary64 :=
  Decimal.isNearest_iff (d := p.scaled m)

theorem read_of_spells (h : Spells t p) : read t = p.counted.toBinary64 := by
  rw [read, read?_eq_some_iff.2 ⟨p, h, rfl⟩]

theorem ofText_of_spells (h : Spells t p) :
    ofText (String.ofList t) = p.counted.toBinary64 := by
  rw [ofText, String.toList_ofList, Text.trim_eq_self h.isBlank, if_neg h.ne_nil, read_of_spells h]

theorem read?_eq_none (hdecimal : ∀ p, ¬ Spells t p) : read? t = none := by
  refine Option.eq_none_iff_forall_not_mem.2 fun d hd => ?_
  obtain ⟨p, hp, -⟩ := read?_eq_some_iff.1 hd
  exact hdecimal p hp

theorem read_of_isInfinity (h : IsInfinity t negative) : read t = infinity negative := by
  rw [read, read?_eq_none fun _ => h.not_spells]
  dsimp only
  rw [readInfinity?_eq_some_iff.2 ⟨negative, h, rfl⟩, Option.getD_some]

theorem read_of_not (hdecimal : ∀ p, ¬ Spells t p)
    (hinfinity : ∀ negative, ¬ IsInfinity t negative) : read t = nan := by
  have hnone : readInfinity? t = none := by
    refine Option.eq_none_iff_forall_not_mem.2 fun x hx => ?_
    obtain ⟨negative, h, -⟩ := readInfinity?_eq_some_iff.1 hx
    exact hinfinity negative h
  rw [read, read?_eq_none hdecimal]
  dsimp only
  rw [hnone, Option.getD_none]

/-- The number of a text is what is read from it, or 0 for nothing. -/
theorem isNumberOf_iff : IsNumberOf Parts.counted t x ↔
    x = if t = [] then zero false else read t := by
  constructor
  · intro h
    cases h with
    | empty => rw [if_pos rfl]
    | decimal hdecimal hnearest =>
      rw [if_neg hdecimal.ne_nil, read_of_spells hdecimal]
      exact isNearest_scaled.1 hnearest
    | infinity hinfinity => rw [if_neg (IsInfinity.ne_nil hinfinity), read_of_isInfinity hinfinity]
    | other hne hdecimal hinfinity => rw [if_neg hne, read_of_not hdecimal hinfinity]
  · rintro rfl
    by_cases hempty : t = []
    · rw [if_pos hempty, hempty]
      exact .empty
    rw [if_neg hempty]
    by_cases hdecimal : ∃ p, Spells t p
    · obtain ⟨p, hp⟩ := hdecimal
      rw [read_of_spells hp]
      exact .decimal hp (isNearest_scaled.2 rfl)
    by_cases hinfinity : ∃ negative, IsInfinity t negative
    · obtain ⟨negative, h⟩ := hinfinity
      rw [read_of_isInfinity h]
      exact .infinity h
    rw [not_exists] at hdecimal hinfinity
    rw [read_of_not hdecimal hinfinity]
    exact .other hempty hdecimal hinfinity

/-- Only the decimal that a text spells matters for its number. -/
theorem IsNumberOf.imp {value value' : Parts → Decimal}
    (hvalue : ∀ p, Spells t p → IsNearest p.negative (value p).magnitude x →
      IsNearest p.negative (value' p).magnitude x) (h : IsNumberOf value t x) :
    IsNumberOf value' t x := by
  cases h with
  | empty => exact .empty
  | decimal hdecimal hnearest => exact .decimal hdecimal (hvalue _ hdecimal hnearest)
  | infinity hinfinity => exact .infinity hinfinity
  | other hne hdecimal hinfinity => exact .other hne hdecimal hinfinity

/-- Where the exponents of decimals are moderate, a text has the number of the decimals that are
    written. -/
theorem isNumberOf_decimal_iff (h : ∀ p, Spells t p → p.Moderate) :
    IsNumberOf Parts.decimal t x ↔ IsNumberOf Parts.counted t x := by
  have hnearest (p : Parts) (hp : Spells t p) :
      IsNearest p.negative p.decimal.magnitude x ↔ IsNearest p.negative p.counted.magnitude x := by
    have hsame := hp.toBinary64_counted (h p hp)
    rw [Parts.counted, Parts.decimal] at hsame ⊢
    rw [isNearest_scaled, isNearest_scaled, hsame]
  exact ⟨.imp fun p hp => (hnearest p hp).1, .imp fun p hp => (hnearest p hp).2⟩

end Binary64

namespace Value

open Decimal Binary64

/-- Every text has the number of what is written in it between blanks: 0 for nothing, the infinity
    of the sign for its name, no number for what is neither that nor a decimal, and for a decimal
    the number nearest to it, with its exponent as it is counted. Of a text whose exponent is
    moderate that is the number nearest to the very decimal that is written. -/
theorem toNumber_string (s : String) : ∃ x, (Value.string s).toNumber = .ok x ∧
    (∀ y, (∃ t, Text.IsTrimmed s.toList t ∧ IsNumberOf Parts.counted t y) ↔ y = x) ∧
    ((∀ t p, Text.IsTrimmed s.toList t → Spells t p → p.Moderate) →
      ∀ y, (∃ t, Text.IsTrimmed s.toList t ∧ IsNumberOf Parts.decimal t y) ↔ y = x) := by
  have hcounted (y : Binary64) :
      (∃ t, Text.IsTrimmed s.toList t ∧ IsNumberOf Parts.counted t y) ↔ y = ofText s := by
    simp only [Text.isTrimmed_iff, exists_eq_left]
    exact isNumberOf_iff
  refine ⟨ofText s, rfl, hcounted, fun hmoderate y => ?_⟩
  rw [← hcounted y]
  refine exists_congr fun t => and_congr_right fun ht => ?_
  exact isNumberOf_decimal_iff fun p hp => hmoderate t p ht hp

end Value

/-! ## A decimal that undoes its exponent -/

namespace Decimal

/-- A decimal of one digit other than zero, so many places after the point, with an exponent. -/
def farDigit (places : Nat) (exponentDigits : List Char) : List Char :=
  ['0'] ++ ('.' :: (List.replicate places '0' ++ ['1']) ++ ('e' :: exponentDigits))

/-- The parts of it. -/
def farDigitParts (places : Nat) (exponentDigits : List Char) : Parts :=
  ⟨false, ['0'], List.replicate places '0' ++ ['1'], false, exponentDigits⟩

variable (places : Nat) {exponentDigits : List Char}

theorem spells_farDigit (hne : exponentDigits ≠ [])
    (hdigits : ∀ d ∈ exponentDigits, d.isDigit = true) :
    Spells (farDigit places exponentDigits) (farDigitParts places exponentDigits) := by
  have hfraction : ∀ d ∈ List.replicate places '0' ++ ['1'], d.isDigit = true := by
    refine List.forall_mem_append.2 ⟨fun d hd => ?_, List.forall_mem_singleton.2 rfl⟩
    rw [List.eq_of_mem_replicate hd]
    rfl
  exact .intro .omitted (List.forall_mem_singleton.2 rfl) (.point hfraction)
    (List.cons_ne_nil _ _) (.marked (.inl rfl) .omitted hne hdigits)

theorem scaled_farDigitParts (exponentDigits : List Char) (m : Nat) :
    (farDigitParts places exponentDigits).scaled m = ⟨false, 1, m - (places + 1)⟩ := by
  have hcoefficient :
      Nat.ofDigitChars 10 (['0'] ++ (List.replicate places '0' ++ ['1'])) 0 = 1 := by
    rw [← List.append_assoc, Nat.ofDigitChars_append, ofDigitChars_zeros]
    rfl
  rw [Parts.scaled, farDigitParts]
  dsimp only
  rw [hcoefficient, List.length_append, List.length_replicate, List.length_singleton]
  rfl

end Decimal

/-- A decimal of 65,536 places with an exponent of 655,360, which is beyond all numbers, is the
    number of the same digits with an exponent of 65,536, which is 1. -/
theorem Value.toNumber_string_undone :
    (Value.string (String.ofList (Decimal.farDigit 65535 "655360".toList))).toNumber =
        .ok (.ofNat 1) ∧
      (∃ t, Text.IsTrimmed (Decimal.farDigit 65535 "655360".toList) t ∧
        Binary64.IsNumberOf Decimal.Parts.decimal t (.infinity false)) ∧
      ¬ ∃ t, Text.IsTrimmed (Decimal.farDigit 65535 "655360".toList) t ∧
        Binary64.IsNumberOf Decimal.Parts.decimal t (.ofNat 1) := by
  have hspells : Decimal.Spells (Decimal.farDigit 65535 "655360".toList)
      (Decimal.farDigitParts 65535 "655360".toList) :=
    Decimal.spells_farDigit 65535 (by decide) (List.all_eq_true.1 rfl)
  have hvalue : (Decimal.farDigitParts 65535 "655360".toList).exponentValue = 655360 := by
    rw [Decimal.farDigitParts]
    decide
  have hcounted : (Decimal.farDigitParts 65535 "655360".toList).counted = ⟨false, 1, 0⟩ := by
    rw [Decimal.Parts.counted, hvalue, Decimal.countedSize, if_neg (by decide),
      Decimal.countedSize_of_lt (by decide), Decimal.scaled_farDigitParts]
    rfl
  have hdecimal : (Decimal.farDigitParts 65535 "655360".toList).decimal = ⟨false, 1, 589824⟩ := by
    rw [Decimal.Parts.decimal, hvalue, Decimal.scaled_farDigitParts]
    rfl
  have hinfinity : Decimal.toBinary64 ⟨false, 1, 589824⟩ = .infinity false := by decide +kernel
  have hnumber (x : Binary64) : Binary64.IsNumberOf Decimal.Parts.decimal
      (Decimal.farDigit 65535 "655360".toList) x ↔ x = .infinity false := by
    rw [Binary64.isNumberOf_of_spells hspells, Decimal.Parts.decimal, Binary64.isNearest_scaled,
      ← Decimal.Parts.decimal, hdecimal, hinfinity]
  refine ⟨?_, ⟨_, Text.isTrimmed_self hspells.isBlank, (hnumber _).2 rfl⟩, ?_⟩
  · rw [Value.toNumber, Binary64.ofText_of_spells hspells, hcounted]
    decide +kernel
  · rintro ⟨t, ht, hone⟩
    rw [← Text.trim_of_isTrimmed ht, Text.trim_eq_self hspells.isBlank, hnumber] at hone
    revert hone
    decide +kernel

end ValueBridge
