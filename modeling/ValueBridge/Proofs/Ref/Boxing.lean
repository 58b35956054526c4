import Mathlib.Logic.ExistsUnique
import ValueBridge.Ref

/-!
# Boxing

What the readers of references find in 64-bit patterns. The boxed patterns are those that
have the mark, four bits of a tag and a slot side by side (`marked`, `isBoxed_iff`), and all
of them are NaNs. So a pattern is a number, a boxed slot or a foreign NaN, and only one of
these (`existsUnique_reading`).

A boxed slot gives back its slot and its tag (`slot?_boxed`, `tag?_boxed`), and a number that
is no NaN gives back itself (`number?_ofNumber`).
-/

namespace ValueBridge.Ref

theorem code_lt_tagSize (tag : Tag) : tag.code < tagSize := by
  cases tag <;> decide

/-- Bits are those of a tag if they are its code. -/
theorem ofCode?_eq_some_iff {code : Nat} {tag : Tag} :
    Tag.ofCode? code = some tag ↔ code = tag.code := by
  constructor
  · intro h
    simp only [Tag.ofCode?] at h
    split at h <;> cases h <;> rfl
  · rintro rfl
    cases tag <;> rfl

/-- The NaNs by their patterns without the sign. -/
theorem isNaN_toBinary64 {r : Ref} : r.toBinary64.isNaN = true ↔
    0x7FF0000000000000 < r.bits.toNat % 0x8000000000000000 :=
  decide_eq_true_iff

/-! ## Marked patterns -/

/-- The pattern of the mark, with tag bits that need not be those of a tag, and of a slot. -/
def marked (code : Nat) (slot : UInt32) : Ref :=
  ⟨UInt64.ofNat ((mark + code) * wordSize + slot.toNat)⟩

section

variable {code : Nat} (hcode : code < tagSize) (slot : UInt32)

include hcode

/-- The fields of a marked pattern do not overlap. -/
theorem toNat_bits_marked :
    (marked code slot).bits.toNat = (mark + code) * wordSize + slot.toNat := by
  have hslot : slot.toNat < 4294967296 := slot.toNat_lt
  refine UInt64.toNat_ofNat_of_lt' ?_
  simp only [tagSize, tagMask] at hcode
  simp only [mark, wordSize, UInt64.size]
  omega

theorem high_marked : (marked code slot).high = mark + code := by
  have hslot : slot.toNat < wordSize := slot.toNat_lt
  rw [high, toNat_bits_marked hcode, Nat.mul_comm, Nat.mul_add_div (by decide),
    Nat.div_eq_of_lt hslot, Nat.add_zero]

theorem low_marked : (marked code slot).low = slot := by
  have hslot : slot.toNat < wordSize := slot.toNat_lt
  rw [low, toNat_bits_marked hcode, Nat.mul_add_mod_of_lt hslot, UInt32.ofNat_toNat]

theorem isBoxed_marked : (marked code slot).isBoxed = true := by
  rw [isBoxed, high_marked hcode, beq_iff_eq]
  simp only [mark, tagSize, tagMask] at hcode ⊢
  omega

/-- The slot is read whatever the tag bits are. -/
theorem slot?_marked : (marked code slot).slot? = some slot := by
  rw [slot?, if_pos (isBoxed_marked hcode slot), low_marked hcode]

theorem tag?_marked : (marked code slot).tag? = Tag.ofCode? code := by
  have hmod : (mark + code) % tagSize = code := by
    simp only [mark, tagSize, tagMask] at hcode ⊢
    omega
  rw [tag?, if_pos (isBoxed_marked hcode slot), high_marked hcode, hmod]

end

variable {r : Ref}

/-- The boxed patterns are the marked ones. -/
theorem isBoxed_iff :
    r.isBoxed = true ↔ ∃ code slot, code < tagSize ∧ r = marked code slot := by
  constructor
  · intro h
    refine ⟨r.high % tagSize, r.low, Nat.mod_lt _ (by decide), ?_⟩
    have hbits : (mark + r.high % tagSize) * wordSize + r.low.toNat = r.bits.toNat := by
      have hlow : r.low.toNat = r.bits.toNat % wordSize :=
        UInt32.toNat_ofNat_of_lt' (Nat.mod_lt _ (by decide))
      rw [hlow]
      rw [isBoxed, beq_iff_eq] at h
      simp only [high, mark, tagSize, tagMask, wordSize] at h ⊢
      omega
    rw [marked, hbits, UInt64.ofNat_toNat]
  · rintro ⟨code, slot, hcode, rfl⟩
    exact isBoxed_marked hcode slot

/-- What is boxed is a NaN. -/
theorem isNaN_of_isBoxed (h : r.isBoxed = true) : r.toBinary64.isNaN = true := by
  have hlt : r.bits.toNat < 18446744073709551616 := r.bits.toNat_lt
  rw [isBoxed, beq_iff_eq] at h
  simp only [high, mark, tagSize, tagMask, wordSize] at h
  rw [isNaN_toBinary64]
  omega

theorem slot?_eq_some_iff {slot : UInt32} :
    r.slot? = some slot ↔ r.isBoxed = true ∧ r.low = slot := by
  rw [slot?]
  cases r.isBoxed <;> simp

theorem isBoxed_eq_false_iff : r.isBoxed = false ↔ r.slot? = none := by
  rw [slot?]
  cases r.isBoxed <;> simp

/-! ## Boxed slots -/

section

variable (slot : UInt32) (tag : Tag)

theorem boxed_eq_marked : boxed slot tag = marked tag.code slot := rfl

theorem isBoxed_boxed : (boxed slot tag).isBoxed = true :=
  isBoxed_marked (code_lt_tagSize tag) slot

@[simp] theorem low_boxed : (boxed slot tag).low = slot :=
  low_marked (code_lt_tagSize tag) slot

@[simp] theorem slot?_boxed : (boxed slot tag).slot? = some slot :=
  slot?_marked (code_lt_tagSize tag) slot

@[simp] theorem tag?_boxed : (boxed slot tag).tag? = some tag := by
  rw [boxed_eq_marked, tag?_marked (code_lt_tagSize tag), ofCode?_eq_some_iff]

/-- Every boxed slot is a NaN to arithmetic. -/
theorem isNaN_boxed : (boxed slot tag).toBinary64.isNaN = true :=
  isNaN_of_isBoxed (isBoxed_boxed slot tag)

@[simp] theorem number?_boxed : (boxed slot tag).number? = none :=
  if_pos (isNaN_boxed slot tag)

end

/-- A boxed slot tells slots and tags apart. -/
theorem boxed_inj {slot slot' : UInt32} {tag tag' : Tag} :
    boxed slot tag = boxed slot' tag' ↔ slot = slot' ∧ tag = tag' := by
  constructor
  · intro h
    have hslot := congrArg slot? h
    have htag := congrArg tag? h
    rw [slot?_boxed, slot?_boxed, Option.some_inj] at hslot
    rw [tag?_boxed, tag?_boxed, Option.some_inj] at htag
    exact ⟨hslot, htag⟩
  · rintro ⟨rfl, rfl⟩
    rfl

/-- A pattern with a slot and a tag is the boxed slot of these. -/
theorem eq_boxed {slot : UInt32} {tag : Tag} (hslot : r.slot? = some slot)
    (htag : r.tag? = some tag) : r = boxed slot tag := by
  obtain ⟨code, slot', hcode, rfl⟩ := isBoxed_iff.1 (slot?_eq_some_iff.1 hslot).1
  rw [slot?_marked hcode, Option.some_inj] at hslot
  rw [tag?_marked hcode, ofCode?_eq_some_iff] at htag
  rw [hslot, htag, boxed_eq_marked]

/-! ## Numbers -/

variable {x : Binary64}

theorem number?_ofNumber (h : x.isNaN = false) : (ofNumber x).number? = some x := by
  rw [number?, show (ofNumber x).toBinary64 = x from rfl, h]
  rfl

theorem isBoxed_ofNumber (h : x.isNaN = false) : (ofNumber x).isBoxed = false := by
  refine Bool.eq_false_iff.2 fun hboxed => ?_
  have hnan : x.isNaN = true := isNaN_of_isBoxed hboxed
  rw [h] at hnan
  cases hnan

/-- The number that is read has the bits of the pattern, which is then not boxed. -/
theorem of_number?_eq_some (h : r.number? = some x) : x.bits = r.bits ∧ r.slot? = none := by
  rw [number?] at h
  cases hnan : r.toBinary64.isNaN with
  | true =>
    rw [hnan, if_pos rfl] at h
    cases h
  | false =>
    rw [hnan, if_neg Bool.false_ne_true, Option.some_inj] at h
    subst h
    exact ⟨rfl, isBoxed_eq_false_iff.1 (isBoxed_ofNumber hnan)⟩

/-! ## Readings -/

/-- What a pattern may be taken for. -/
inductive Reading where
  | number
  | slot
  | foreign

/-- The readers take the pattern for this. -/
def ReadsAs (r : Ref) : Reading → Prop
  | .number => ∃ x, r.number? = some x ∧ x.bits = r.bits
  | .slot => ∃ slot, r.slot? = some slot
  | .foreign => r.number? = none ∧ r.slot? = none

/-- A pattern can be taken for one thing only. -/
theorem existsUnique_reading (r : Ref) : ∃! reading, r.ReadsAs reading := by
  cases hnumber : r.number? with
  | some x =>
    obtain ⟨hbits, hslot⟩ := of_number?_eq_some hnumber
    refine ⟨.number, ⟨x, hnumber, hbits⟩, fun reading h => ?_⟩
    cases reading <;> simp_all [ReadsAs]
  | none =>
    cases hslot : r.slot? with
    | some slot =>
      refine ⟨.slot, ⟨slot, hslot⟩, fun reading h => ?_⟩
      cases reading <;> simp_all [ReadsAs]
    | none =>
      refine ⟨.foreign, ⟨hnumber, hslot⟩, fun reading h => ?_⟩
      cases reading <;> simp_all [ReadsAs]

/-- Every pattern is a number, a boxed slot or a foreign NaN, and only one of these. Boxing
    is one to one, and its patterns are NaNs that give back the slot and the tag; every boxed
    pattern with the bits of a tag is one of them, and one with other tag bits still gives
    its slot. A slot comes back from its binary64 number, and the reference of a number is
    not boxed. -/
structure BoxingLaws : Prop where
  reading : ∀ r : Ref, ∃! reading, r.ReadsAs reading
  unboxed : ∀ slot tag, (boxed slot tag).toBinary64.isNaN = true ∧
    (boxed slot tag).number? = none ∧ (boxed slot tag).slot? = some slot ∧
    (boxed slot tag).tag? = some tag
  inj : ∀ slot slot' tag tag', boxed slot tag = boxed slot' tag' ↔ slot = slot' ∧ tag = tag'
  of_tag : ∀ r tag, r.tag? = some tag → ∃ slot, r.slot? = some slot ∧ r = boxed slot tag
  slot : ∀ r : Ref, r.isBoxed = true → r.slot? = some r.low
  unknown_tag : ∀ code slot, Tag.all.length ≤ code → code < tagSize →
    (marked code slot).slot? = some slot ∧ (marked code slot).tag? = none
  decode : ∀ slot, (encode slot).isNaN = true ∧ decode? (encode slot) = some slot
  number : ∀ x : Binary64, x.isNaN = false →
    (ofNumber x).isBoxed = false ∧ (ofNumber x).number? = some x

theorem boxing_laws : BoxingLaws where
  reading := existsUnique_reading
  unboxed slot tag :=
    ⟨isNaN_boxed slot tag, number?_boxed slot tag, slot?_boxed slot tag, tag?_boxed slot tag⟩
  inj _ _ _ _ := boxed_inj
  of_tag r tag htag := by
    -- Only boxed patterns have a tag.
    have hslot : r.slot? = some r.low := by
      cases hr : r.isBoxed with
      | true => exact if_pos hr
      | false =>
        rw [tag?, hr] at htag
        cases htag
    exact ⟨r.low, hslot, eq_boxed hslot htag⟩
  slot r hr := if_pos hr
  unknown_tag code slot hunknown hcode := by
    refine ⟨slot?_marked hcode slot, ?_⟩
    rw [tag?_marked hcode, Option.eq_none_iff_forall_ne_some]
    intro tag htag
    have htagCode : tag.code < Tag.all.length := by cases tag <;> decide
    rw [ofCode?_eq_some_iff] at htag
    omega
  decode slot := ⟨isNaN_boxed slot .none, slot?_boxed slot .none⟩
  number x hx := ⟨isBoxed_ofNumber hx, number?_ofNumber hx⟩

end ValueBridge.Ref
