import ValueBridge.Heap.Text
import ValueBridge.Proofs.Decimal.Layout
import ValueBridge.Proofs.Text.Blank
import ValueBridge.Value.Number

/-!
# The text of a number and back

Every number is the number of its own text (`Heap.toNumber_hostText`): a NaN comes back as the
NaN that arithmetic produces, the negative zero without its sign, and every other number bit for
bit, from the least to the largest and the infinities. So the texts of numbers tell apart what
strict equality does, and no more.
-/

namespace ValueBridge

namespace Binary64

open Decimal

variable {x y : Binary64}

/-- A text that denotes a decimal is the number nearest to it, as it stands. -/
theorem ofText_of_denotes {cs : List Char} {d : Decimal} (h : Denotes cs d) :
    ofText (String.ofList cs) = d.toBinary64 := by
  obtain ⟨d', hread, -⟩ := id h
  have hne : cs ≠ [] := by
    rintro rfl
    cases hread
  rw [ofText, String.toList_ofList, Text.trim_eq_self (isBlank_of_read? hread), if_neg hne, h.read]

/-! ## The classes of numbers -/

theorem ofText_hostText_infinity (negative : Bool) :
    ofText (infinity negative).hostText = infinity negative := by
  cases negative <;> decide +kernel

theorem ofText_hostText_of_isFinite (hfinite : x.isFinite = true) (hzero : x.isZero = false) :
    ofText x.hostText = x := by
  obtain ⟨hlower, hupper⟩ := point_shortest hfinite hzero
  have hpoint : (x.shortest.point - 1).natAbs < exponentLimit := by
    simp only [underflowPower, overflowPower, exponentLimit] at hlower hupper ⊢
    omega
  have hdenotes := denotes_hostLayout (proper_shortest hfinite hzero) hpoint x.negative
  rw [hostText_of_isFinite hfinite hzero, ofText_of_denotes hdenotes,
    toBinary64_shortest hfinite hzero]

/-- The number that the text of a number stands for. -/
theorem ofText_hostText (x : Binary64) :
    ofText x.hostText = if x.isNaN then nan else if x.isZero then zero false else x := by
  by_cases hnan : x.isNaN = true
  · rw [if_pos hnan, hostText_of_isNaN hnan]
    decide +kernel
  by_cases hzero : x.isZero = true
  · rw [if_neg hnan, if_pos hzero, hostText_of_isZero hzero]
    decide +kernel
  rw [if_neg hnan, if_neg hzero]
  rw [Bool.not_eq_true] at hnan hzero
  by_cases hfinite : x.isFinite = true
  · exact ofText_hostText_of_isFinite hfinite hzero
  · rw [eq_infinity hnan (Bool.not_eq_true _ ▸ hfinite)]
    exact ofText_hostText_infinity x.negative

/-! ## Texts and equality -/

theorem equal_iff : x.equal y = true ↔
    x.isNaN = false ∧ y.isNaN = false ∧ (x = y ∨ x.isZero = true ∧ y.isZero = true) := by
  simp [equal, and_assoc]

theorem isNaN_ofText_hostText (x : Binary64) : (ofText x.hostText).isNaN = x.isNaN := by
  rw [ofText_hostText]
  by_cases hnan : x.isNaN = true
  · rw [if_pos hnan, hnan]
    rfl
  rw [if_neg hnan]
  split
  · exact (Bool.eq_false_iff.2 hnan).symm
  · rfl

/-- A number other than a NaN comes back equal. -/
theorem equal_ofText_hostText (x : Binary64) : (ofText x.hostText).equal x = !x.isNaN := by
  cases hnan : x.isNaN with
  | true =>
    rw [equal, isNaN_ofText_hostText, hnan]
    rfl
  | false =>
    refine equal_iff.2 ⟨(isNaN_ofText_hostText x).trans hnan, hnan, ?_⟩
    rw [ofText_hostText, hnan, if_neg Bool.false_ne_true]
    split
    · next hzero => exact .inr ⟨rfl, hzero⟩
    · exact .inl rfl

/-- The text of a NaN is that of no number. -/
theorem isNaN_of_hostText_eq (h : x.hostText = y.hostText) (hnan : x.isNaN = true) :
    y.isNaN = true := by
  rw [← isNaN_ofText_hostText, ← h, isNaN_ofText_hostText, hnan]

/-- Numbers have one text if and only if they are equal or both are NaNs. -/
theorem hostText_eq_iff (x y : Binary64) :
    x.hostText = y.hostText ↔ (x.equal y || x.isNaN && y.isNaN) = true := by
  rw [Bool.or_eq_true, Bool.and_eq_true, equal_iff]
  constructor
  · intro h
    by_cases hx : x.isNaN = true
    · exact .inr ⟨hx, isNaN_of_hostText_eq h hx⟩
    have hy : ¬ y.isNaN = true := fun hy => hx (isNaN_of_hostText_eq h.symm hy)
    refine .inl ⟨Bool.eq_false_iff.2 hx, Bool.eq_false_iff.2 hy, ?_⟩
    -- What their text is the number of is each of them, or the zero for a zero.
    have hread := ofText_hostText x
    rw [h, ofText_hostText, if_neg hx, if_neg hy] at hread
    by_cases hzero : x.isZero = true
    · by_cases hzero' : y.isZero = true
      · exact .inr ⟨hzero, hzero'⟩
      · rw [if_pos hzero, if_neg hzero'] at hread
        exact .inr ⟨hzero, hread ▸ rfl⟩
    · by_cases hzero' : y.isZero = true
      · rw [if_neg hzero, if_pos hzero'] at hread
        exact .inr ⟨hread ▸ rfl, hzero'⟩
      · rw [if_neg hzero, if_neg hzero'] at hread
        exact .inl hread.symm
  · rintro (⟨-, -, rfl | ⟨hx, hy⟩⟩ | ⟨hx, hy⟩)
    · rfl
    · rw [hostText_of_isZero hx, hostText_of_isZero hy]
    · rw [hostText_of_isNaN hx, hostText_of_isNaN hy]

end Binary64

/-! ## Values -/

/-- The text of a number is a text whose number is the same again: a NaN for a NaN, an infinity
    for itself, and for a finite number one that is strictly equal to it and, but for the sign of
    a zero, the same bit for bit. Two numbers have one text if and only if they are strictly equal,
    or both are NaNs. -/
theorem Heap.toNumber_hostText (h : Heap) (x : Binary64) :
    (∃ s y, h.hostText (.number x) = .ok s ∧ (Value.string s).toNumber = .ok y ∧
      y = (if x.isNaN then .nan else if x.isZero then .zero false else x) ∧
      y.isNaN = x.isNaN ∧ (Value.number y).strictEqual (.number x) = !x.isNaN) ∧
    ∀ x', h.hostText (.number x) = h.hostText (.number x') ↔
      ((Value.number x).strictEqual (.number x') || x.isNaN && x'.isNaN) = true := by
  refine ⟨⟨x.hostText, .ofText x.hostText, rfl, rfl, x.ofText_hostText, x.isNaN_ofText_hostText,
    x.equal_ofText_hostText⟩, fun x' => ?_⟩
  rw [Value.strictEqual, ← Binary64.hostText_eq_iff, Heap.hostText, Heap.hostText,
    Except.ok.injEq]

end ValueBridge
