import ValueBridge.Proofs.Heap
import ValueBridge.Proofs.Text.Index

/-!
# Properties after a write

A write changes the property that it is for, and no other property of anything
(`Heap.get_set_of_ne`). A plain object keeps every property as it was written, and so does a
function, but for its name (`Heap.get_set_self`).

A cell is changed by a write in one of two ways (`ObjectCell.Written`): the value is kept as
a property, or its byte in the buffer.
-/

namespace ValueBridge

/-! ## Cells -/

namespace ObjectCell

/-- What a write does to an object. -/
inductive Written (cell : ObjectCell) (key : String) (v : Value) : ObjectCell → Prop
  /-- The value is kept as a property. -/
  | property : (cell.bytes? = none ∨ key ≠ lengthKey ∧ Text.index? key = none) →
      Written cell key v { cell with properties := cell.properties.insert key v }
  /-- A byte takes the number of the value. -/
  | byte {bytes : Array UInt8} {index : Nat} : cell.bytes? = some bytes → key ≠ lengthKey →
      Text.index? key = some index →
      Written cell key v { cell with bytes? := some (bytes.setIfInBounds index v.toByte) }

variable {cell cell' : ObjectCell} {key k : String} {v w : Value}

theorem written_of_set? (h : cell.set? key v = some cell') : cell.Written key v cell' := by
  simp only [set?] at h
  split at h
  · next hbytes => exact Option.some_inj.1 h ▸ .property (.inl hbytes)
  · next bytes hbytes =>
    split at h
    · cases h
    · next hlength =>
      split at h
      · next index hindex =>
        split at h
        · exact Option.some_inj.1 h ▸ .byte hbytes hlength hindex
        · cases h
      · next hindex => exact Option.some_inj.1 h ▸ .property (.inr ⟨hlength, hindex⟩)

namespace Written

variable (h : cell.Written key v cell')

include h

/-- All other properties are as before. -/
theorem get_of_ne (hk : k ≠ key) : cell'.get k = cell.get k := by
  cases h with
  | property =>
    have hown : (cell.properties.insert key v).get? k = cell.properties.get? k := by
      rw [PropertyMap.get?_insert, if_neg hk]
    simp only [get, ownProperty, hown]
  | @byte bytes index hbytes _ hindex =>
    simp only [get, hbytes, Array.size_setIfInBounds]
    -- The byte is that of another index, as no two keys name the same.
    have hother {i : Nat} (hi : Text.index? k = some i) : index ≠ i := by
      rintro rfl
      exact hk ((Text.indexKey_of_index? hi).symm.trans (Text.indexKey_of_index? hindex))
    split
    · rfl
    · split
      · next i hi => rw [Array.getElem?_setIfInBounds_ne (hother hi)]
      · rfl

theorem isSome_bytes? : cell'.bytes?.isSome = cell.bytes?.isSome := by
  cases h with
  | property => rfl
  | byte hbytes => rw [hbytes]; rfl

/-- A plain object keeps the value. -/
theorem get_self (hbytes : cell.bytes? = none) : cell'.get key = v := by
  cases h with
  | property => simp [get, hbytes, ownProperty, PropertyMap.get?_insert]
  | byte hbytes' =>
    rw [hbytes] at hbytes'
    cases hbytes'

/-- What is kept was kept before, or is the value. -/
theorem property_cases (hw : cell'.properties.get? k = some w) :
    w = v ∨ cell.properties.get? k = some w := by
  cases h with
  | property =>
    rw [PropertyMap.get?_insert] at hw
    split at hw
    · exact .inl (Option.some_inj.1 hw).symm
    · exact .inr hw
  | byte => exact .inr hw

end Written

end ObjectCell

namespace FunctionCell

variable {cell cell' : FunctionCell} {key k : String} {v w : Value}

theorem eq_of_set? (h : cell.set? key v = some cell') :
    key ≠ nameKey ∧ cell' = { cell with properties := cell.properties.insert key v } := by
  rw [set?] at h
  split at h
  · cases h
  · next hname => exact ⟨hname, (Option.some_inj.1 h).symm⟩

theorem get_set?_of_ne (h : cell.set? key v = some cell') (hk : k ≠ key) :
    cell'.get k = cell.get k := by
  obtain ⟨_, rfl⟩ := eq_of_set? h
  simp only [get, PropertyMap.get?_insert, if_neg hk]

theorem get_set?_self (h : cell.set? key v = some cell') : cell'.get key = v := by
  obtain ⟨hname, rfl⟩ := eq_of_set? h
  simp [get, hname, PropertyMap.get?_insert]

theorem property_cases (h : cell.set? key v = some cell')
    (hw : cell'.properties.get? k = some w) : w = v ∨ cell.properties.get? k = some w := by
  obtain ⟨_, rfl⟩ := eq_of_set? h
  rw [PropertyMap.get?_insert] at hw
  split at hw
  · exact .inl (Option.some_inj.1 hw).symm
  · exact .inr hw

end FunctionCell

/-! ## Heaps -/

namespace Heap

variable {h h' : Heap} {target t v w : Value} {key k : String} {written : Bool}

/-- The value was made: what it names, if it names anything, is in the heap. -/
def Has (h : Heap) : Value → Prop
  | .object id => id.index < h.objects.size
  | .function id => id.index < h.functions.size
  | .symbol id => id.index < h.symbols.size
  | .undefined | .null | .bool _ | .number _ | .string _ => True

/-- The property is kept as it is written: one of a plain object, or one of a function that
    is not its name. -/
def PlainProperty (h : Heap) (target : Value) (key : String) : Prop :=
  match target with
  | .object id => (h.object id).bytes? = none
  | .function _ => key ≠ nameKey
  | _ => False

theorem object_putObject (h : Heap) (id id' : ObjectId) (cell : ObjectCell) :
    (h.putObject id cell).object id' =
      if id' = id ∧ id.index < h.objects.size then cell else h.object id' := by
  obtain ⟨i⟩ := id
  obtain ⟨i'⟩ := id'
  simp only [object, putObject, Array.getD_eq_getD_getElem?, Array.getElem?_setIfInBounds,
    ObjectId.mk.injEq]
  by_cases hi : i' = i
  · subst hi
    by_cases hlt : i' < h.objects.size <;> simp [hlt]
  · simp [hi, Ne.symm hi]

theorem function_putFunction (h : Heap) (id id' : FunctionId) (cell : FunctionCell) :
    (h.putFunction id cell).function id' =
      if id' = id ∧ id.index < h.functions.size then cell else h.function id' := by
  obtain ⟨i⟩ := id
  obtain ⟨i'⟩ := id'
  simp only [function, putFunction, Array.getD_eq_getD_getElem?, Array.getElem?_setIfInBounds,
    FunctionId.mk.injEq]
  by_cases hi : i' = i
  · subst hi
    by_cases hlt : i' < h.functions.size <;> simp [hlt]
  · simp [hi, Ne.symm hi]

/-- All that a write can do. -/
inductive Sets (h : Heap) (target : Value) (key : String) (v : Value) : Heap → Prop
  | refused : Sets h target key v h
  | object {id : ObjectId} {cell : ObjectCell} : target = .object id →
      (h.object id).Written key v cell → Sets h target key v (h.putObject id cell)
  | function {id : FunctionId} {cell : FunctionCell} : target = .function id →
      (h.function id).set? key v = some cell → Sets h target key v (h.putFunction id cell)

theorem sets_of_set (hset : h.set target key v = .ok (written, h')) : h.Sets target key v h' := by
  cases target with
  | object id =>
    cases hcell : (h.object id).set? key v with
    | none =>
      rw [set, setOf, hcell] at hset
      cases hset
      exact .refused
    | some cell =>
      rw [set, setOf, hcell] at hset
      cases hset
      exact .object rfl (ObjectCell.written_of_set? hcell)
  | function id =>
    cases hcell : (h.function id).set? key v with
    | none =>
      simp only [set, hcell] at hset
      cases hset
      exact .refused
    | some cell =>
      simp only [set, hcell] at hset
      cases hset
      exact .function rfl hcell
  | _ => cases hset

/-- A write changes no other property. -/
theorem Sets.get_of_ne (hs : h.Sets target key v h') (hne : ¬(t = target ∧ k = key)) :
    h'.get t k = h.get t k := by
  cases hs with
  | refused => rfl
  | @object id cell htarget hcell =>
    subst htarget
    cases t with
    | object id' =>
      simp only [get, getOf, object_putObject]
      split
      · next hid =>
        obtain ⟨rfl, _⟩ := hid
        rw [hcell.get_of_ne fun hk => hne ⟨rfl, hk⟩]
      · rfl
    | _ => rfl
  | @function id cell htarget hcell =>
    subst htarget
    cases t with
    | function id' =>
      simp only [get, function_putFunction]
      split
      · next hid =>
        obtain ⟨rfl, _⟩ := hid
        rw [FunctionCell.get_set?_of_ne hcell fun hk => hne ⟨rfl, hk⟩]
      · rfl
    | _ => rfl

theorem get_set_of_ne (hset : h.set target key v = .ok (written, h'))
    (hne : ¬(t = target ∧ k = key)) : h'.get t k = h.get t k :=
  (sets_of_set hset).get_of_ne hne

/-- A plain property holds what was written. -/
theorem get_set_self (hset : h.set target key v = .ok (written, h')) (hhas : h.Has target)
    (hplain : h.PlainProperty target key) : h'.get target key = .ok v := by
  cases target with
  | object id =>
    have hplain : (h.object id).bytes? = none := hplain
    have hlt : id.index < h.objects.size := hhas
    have hcell : (h.object id).set? key v =
        some { h.object id with properties := (h.object id).properties.insert key v } := by
      simp only [ObjectCell.set?, hplain]
    rw [set, setOf, hcell] at hset
    cases hset
    have hwritten := ObjectCell.written_of_set? hcell
    simp only [get, getOf, object_putObject, true_and]
    rw [if_pos hlt, hwritten.get_self hplain]
  | function id =>
    have hlt : id.index < h.functions.size := hhas
    have hcell : (h.function id).set? key v =
        some { h.function id with properties := (h.function id).properties.insert key v } :=
      if_neg hplain
    simp only [set, hcell] at hset
    cases hset
    simp only [get, function_putFunction, true_and]
    rw [if_pos hlt, FunctionCell.get_set?_self hcell]
  | _ => cases hplain

/-! ## What a write leaves as it was -/

/-- A write makes nothing. -/
theorem Sets.sizes (hs : h.Sets target key v h') :
    h'.objects.size = h.objects.size ∧ h'.functions.size = h.functions.size := by
  cases hs <;> simp [putObject, putFunction]

/-- A write changes no byte of a buffer unless its key is an index. -/
theorem Sets.keepsBut (hs : h.Sets target key v h')
    (hindex : Text.index? key = none) : h.KeepsBut key h' where
  objects_le := Nat.le_of_eq hs.sizes.1.symm
  functions_le := Nat.le_of_eq hs.sizes.2.symm
  bytes? id _ := by
    cases hs with
    | object _ hcell =>
      rw [object_putObject]
      split
      · next hid =>
        rw [hid.1]
        cases hcell with
        | property => rfl
        | byte _ _ hindex' =>
          rw [hindex] at hindex'
          cases hindex'
      · rfl
    | _ => rfl
  object id k _ hk := Except.ok.inj (hs.get_of_ne (t := .object id) fun heq => hk heq.2)
  function id k _ hk := Except.ok.inj (hs.get_of_ne (t := .function id) fun heq => hk heq.2)

/-- The heap after a write, or as it is if the value has no properties. -/
def afterSet (h : Heap) (target : Value) (key : String) (v : Value) : Heap :=
  match h.set target key v with
  | .ok (_, h') => h'
  | .error _ => h

theorem keepsBut_afterSet (hindex : Text.index? key = none) (h : Heap) (target v : Value) :
    h.KeepsBut key (h.afterSet target key v) := by
  rw [afterSet]
  cases hset : h.set target key v with
  | error fault => exact .refl key h
  | ok result => exact (sets_of_set hset).keepsBut hindex

/-- A plain property of the value holds what was written. -/
theorem get_afterSet (hhas : h.Has target) (hplain : h.PlainProperty target key) (v : Value) :
    (h.afterSet target key v).get target key = .ok v := by
  rw [afterSet]
  cases hset : h.set target key v with
  | error fault =>
    -- Only objects and functions have plain properties, and these can be written to.
    cases target with
    | function id =>
      rw [set] at hset
      split at hset <;> cases hset
    | object id => cases hset
    | _ => cases hplain
  | ok result => exact get_set_self hset hhas hplain

end Heap

end ValueBridge
