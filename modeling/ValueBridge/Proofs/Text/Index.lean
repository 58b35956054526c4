import Mathlib.Data.List.Induction
import ValueBridge.Heap.Property

/-!
# Integer keys

An *integer key* is the decimal form of a natural, of any number of digits (`Text.IsInteger`): it
is the key of that natural, and of no other (`Text.isInteger_iff`). One below the limit of indices
names an index (`Text.index?_eq_some_iff`), and one that is not below it names none
(`Text.IsInteger.index?_of_le`).
-/

namespace ValueBridge

namespace Text

/-- The key is the decimal form of the number: it has digits alone, and some, and no zero before
    others. -/
structure IsInteger (key : String) (n : Nat) : Prop where
  ne_nil : key.toList ≠ []
  isDigit : ∀ c ∈ key.toList, c.isDigit = true
  head_ne : ∀ c cs, key.toList ≠ '0' :: c :: cs
  value : Nat.ofDigitChars 10 key.toList 0 = n

/-- A digit is that of its number. -/
theorem toDigits_of_isDigit {c : Char} (hc : c.isDigit = true) :
    c.toNat - '0'.toNat < 10 ∧ Nat.toDigits 10 (c.toNat - '0'.toNat) = [c] := by
  obtain ⟨hlow, hhigh⟩ := Char.isDigit_iff_toNat.1 hc
  simp only [Char.reduceToNat] at hlow hhigh ⊢
  have hlt : c.toNat - 48 < 10 := by omega
  have hchar : (c.toNat - 48).digitChar = c := by
    apply Char.toNat_inj.1
    rw [Nat.toNat_digitChar_of_lt_ten hlt]
    omega
  exact ⟨hlt, by rw [Nat.toDigits_of_lt_base hlt, hchar]⟩

/-- The digits of a natural have no zero before others. -/
theorem toDigits_ne_zero_cons (n : Nat) (c : Char) (cs : List Char) :
    Nat.toDigits 10 n ≠ '0' :: c :: cs := by
  induction n using Nat.strongRecOn generalizing c cs with | _ n ih
  intro h
  by_cases hlt : n < 10
  · rw [Nat.toDigits_of_lt_base hlt] at h
    exact List.cons_ne_nil c cs (List.cons.inj h).2.symm
  · rw [Nat.toDigits_of_base_le (by decide) (Nat.not_lt.1 hlt)] at h
    have hvalue : Nat.ofDigitChars 10 (Nat.toDigits 10 (n / 10)) 0 = n / 10 :=
      Nat.ofDigitChars_ten_toDigits
    -- The digits before the last one are those of a tenth, which is not zero.
    rcases hinit : Nat.toDigits 10 (n / 10) with _ | ⟨d, _ | ⟨d', ds⟩⟩ <;> rw [hinit] at h
    · exact Nat.toDigits_ne_nil hinit
    · obtain ⟨rfl, _⟩ := List.cons.inj h
      rw [hinit] at hvalue
      simp only [Nat.ofDigitChars_cons, Nat.ofDigitChars_nil] at hvalue
      omega
    · obtain ⟨rfl, _⟩ := List.cons.inj h
      exact ih (n / 10) (by omega) d' ds hinit

/-- Digits without a zero before others are those of their number. -/
theorem toDigits_ofDigitChars {cs : List Char} (hne : cs ≠ [])
    (hdigit : ∀ c ∈ cs, c.isDigit = true) (hhead : ∀ d ds, cs ≠ '0' :: d :: ds) :
    Nat.toDigits 10 (Nat.ofDigitChars 10 cs 0) = cs := by
  induction cs using List.reverseRecOn with
  | nil => exact absurd rfl hne
  | append_singleton cs c ih =>
    obtain ⟨hlt, hc⟩ := toDigits_of_isDigit (hdigit c (by simp))
    rw [Nat.ofDigitChars_append, Nat.ofDigitChars_cons, Nat.ofDigitChars_nil]
    rcases cs with _ | ⟨d, ds⟩
    · rw [Nat.ofDigitChars_nil, Nat.mul_zero, Nat.zero_add, hc, List.nil_append]
    · have hinit := ih (List.cons_ne_nil d ds)
        (fun c' hc' => hdigit c' (List.mem_append_left _ hc'))
        (fun d' ds' heq => hhead d' (ds' ++ [c]) (by rw [heq]; rfl))
      -- The digits before the last one begin with no zero, so that their number is none.
      have hpos : 0 < Nat.ofDigitChars 10 (d :: ds) 0 := by
        refine Nat.pos_of_ne_zero fun hzero => ?_
        rw [hzero, Nat.toDigits_zero] at hinit
        obtain ⟨rfl, rfl⟩ := List.cons.inj hinit
        exact hhead c [] rfl
      rw [← Nat.toDigits_append_toDigits (by decide) hpos hlt, hinit, hc]

/-- The integer keys are those of the naturals. -/
theorem isInteger_iff {key : String} {n : Nat} : IsInteger key n ↔ indexKey n = key := by
  constructor
  · intro h
    rw [indexKey, ← h.value, toDigits_ofDigitChars h.ne_nil h.isDigit h.head_ne,
      String.ofList_toList]
  · rintro rfl
    have hlist : (indexKey n).toList = Nat.toDigits 10 n := String.toList_ofList
    refine ⟨?_, fun c hc => ?_, fun c cs heq => ?_, ?_⟩
    · rw [hlist]
      exact Nat.toDigits_ne_nil
    · rw [hlist] at hc
      exact Nat.isDigit_of_mem_toDigits (by decide) (by decide) hc
    · rw [hlist] at heq
      exact toDigits_ne_zero_cons n c cs heq
    · rw [hlist, Nat.ofDigitChars_ten_toDigits]

theorem indexKey_injective : Function.Injective indexKey := by
  intro i i' h
  rw [← Nat.ofDigitChars_ten_toDigits (n := i), ← Nat.ofDigitChars_ten_toDigits (n := i'),
    String.ofList_injective h]

/-! ## Indices -/

/-- A key names an index if it is an integer key below the limit. -/
theorem index?_eq_some_iff {key : String} {n : Nat} :
    index? key = some n ↔ IsInteger key n ∧ n < indexLimit := by
  rw [isInteger_iff]
  constructor
  · intro h
    simp only [index?] at h
    split at h
    · next hkey =>
      obtain rfl := Option.some_inj.1 h
      exact ⟨by rw [indexKey, hkey.2.1, String.ofList_toList], hkey.2.2⟩
    · cases h
  · rintro ⟨rfl, hlt⟩
    have hlist : (indexKey n).toList = Nat.toDigits 10 n := String.toList_ofList
    have hall : (Nat.toDigits 10 n).all Char.isDigit = true :=
      List.all_eq_true.2 fun c hc => Nat.isDigit_of_mem_toDigits (by decide) (by decide) hc
    simp only [index?, hlist, Nat.ofDigitChars_ten_toDigits, hall, hlt, and_self, if_true]

/-- A key names one index. -/
theorem indexKey_of_index? {key : String} {index : Nat} (h : index? key = some index) :
    indexKey index = key :=
  isInteger_iff.1 (index?_eq_some_iff.1 h).1

namespace IsInteger

variable {key : String} {n : Nat} (hkey : IsInteger key n)

include hkey

theorem ne_lengthKey : key ≠ lengthKey := by
  rintro rfl
  cases hkey.isDigit 'l' (by decide)

theorem index?_of_lt (hn : n < indexLimit) : index? key = some n :=
  index?_eq_some_iff.2 ⟨hkey, hn⟩

/-- An integer key that is not below the limit names no index. -/
theorem index?_of_le (hn : indexLimit ≤ n) : index? key = none := by
  refine Option.eq_none_iff_forall_not_mem.2 fun m hm => ?_
  obtain ⟨hm, hlt⟩ := index?_eq_some_iff.1 hm
  rw [← hm.value, hkey.value] at hlt
  exact Nat.not_lt.2 hn hlt

end IsInteger

theorem indexKey_ne_lengthKey (index : Nat) : indexKey index ≠ lengthKey :=
  (isInteger_iff.2 rfl).ne_lengthKey

end Text

end ValueBridge
