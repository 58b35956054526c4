import ValueBridge.Proofs.Heap.Evolution

/-!
# Integer keys of buffers

On a buffer, an integer key below the limit of indices is the key of the byte there
(`Heap.ByteKey`), or is refused past the end (`Heap.RefusedKey`). One that is not below the limit
is a key like any other, also on a buffer (`Heap.KeptKey`).

What is kept as properties of a buffer stays apart from its length and its bytes, whatever is
made and written (`Heap.Evolves.apart`).

* `Heap.integer_keys_of_buffer`: what an integer key does on a buffer.
-/

namespace ValueBridge

/-! ## Cells -/

namespace ObjectCell

variable {cell cell' : ObjectCell} {bytes : Array UInt8} {key : String} {n : Nat}

section

variable (hbytes : cell.bytes? = some bytes) (hkey : Text.IsInteger key n)

include hbytes hkey

theorem get_byte (hlimit : n < Text.indexLimit) (hn : n < bytes.size) :
    cell.get key = .number (.ofNat bytes[n].toNat) := by
  simp only [get, hbytes, hkey.ne_lengthKey, hkey.index?_of_lt hlimit, if_false,
    Array.getElem?_eq_getElem hn]

theorem set?_byte (hlimit : n < Text.indexLimit) (hn : n < bytes.size) (v : Value) :
    cell.set? key v = some { cell with bytes? := some (bytes.set n v.toByte) } := by
  simp only [set?, hbytes, hkey.ne_lengthKey, hkey.index?_of_lt hlimit, if_false, hn, if_true,
    Array.setIfInBounds, dif_pos]

theorem get_past (hlimit : n < Text.indexLimit) (hn : bytes.size ≤ n) :
    cell.get key = .undefined := by
  simp only [get, hbytes, hkey.ne_lengthKey, hkey.index?_of_lt hlimit, if_false,
    Array.getElem?_eq_none hn]

theorem set?_past (hlimit : n < Text.indexLimit) (hn : bytes.size ≤ n) (v : Value) :
    cell.set? key v = none := by
  simp only [set?, hbytes, hkey.ne_lengthKey, hkey.index?_of_lt hlimit, if_false,
    Nat.not_lt.2 hn]

theorem get_kept (hlimit : Text.indexLimit ≤ n) : cell.get key = cell.ownProperty key := by
  simp only [get, hbytes, hkey.ne_lengthKey, hkey.index?_of_le hlimit, if_false]

theorem set?_kept (hlimit : Text.indexLimit ≤ n) (v : Value) :
    cell.set? key v = some { cell with properties := cell.properties.insert key v } := by
  simp only [set?, hbytes, hkey.ne_lengthKey, hkey.index?_of_le hlimit, if_false]

end

/-- What is kept with a buffer as a property is none of its length and its bytes. -/
def Apart (cell : ObjectCell) : Prop :=
  cell.bytes?.isSome = true → ∀ key v, cell.properties.get? key = some v →
    key ≠ lengthKey ∧ Text.index? key = none

theorem apart_empty (bytes? : Option (Array UInt8)) : Apart ⟨.empty, bytes?⟩ :=
  fun _ _ _ => nofun

/-- A write to the length or a byte keeps no property. -/
theorem Written.apart {v : Value} (h : cell.Written key v cell') (hcell : cell.Apart) :
    cell'.Apart := by
  intro hsome k w hw
  rw [h.isSome_bytes?] at hsome
  cases h with
  | property hkey =>
    rw [PropertyMap.get?_insert] at hw
    split at hw
    · next hk =>
      rcases hkey with hnone | hkey
      · rw [hnone] at hsome
        cases hsome
      · exact hk ▸ hkey
    · exact hcell hsome k w hw
  | byte => exact hcell hsome k w hw

end ObjectCell

/-! ## Heaps -/

namespace Heap

variable {W : Value → String → Prop} {h h' : Heap} {id : ObjectId} {bytes : Array UInt8}
  {target v : Value} {key : String} {n : Nat}

/-- What buffers keep as properties is none of their lengths and bytes. -/
def Apart (h : Heap) : Prop :=
  ∀ id, (h.object id).Apart

theorem apart_of_empty : empty.Apart :=
  fun _ => ObjectCell.apart_empty none

theorem Sets.apart (hs : h.Sets target key v h') (hh : h.Apart) : h'.Apart := by
  intro id'
  cases hs with
  | refused => exact hh id'
  | @object id cell _ hcell =>
    rw [object_putObject]
    split
    · exact hcell.apart (hh id)
    · exact hh id'
  | function => exact hh id'

theorem Change.apart (hc : h.Change W h') (hh : h.Apart) : h'.Apart := by
  cases hc with
  | object bytes? =>
    intro id
    rw [object_allocObject]
    split
    · exact ObjectCell.apart_empty bytes?
    · exact hh id
  | function | symbol => exact hh
  | set _ _ hset => exact (sets_of_set hset).apart hh

theorem Evolves.apart (he : h.Evolves W h') (hh : h.Apart) : h'.Apart := by
  induction he with
  | refl => exact hh
  | tail _ hc ih => exact hc.apart ih

/-- The key is that of a byte of a buffer: this is read, and a write changes it and nothing
    else. -/
structure ByteKey (h : Heap) (id : ObjectId) (key : String) (bytes : Array UInt8) (n : Nat)
    (hn : n < bytes.size) : Prop where
  get : h.get (.object id) key = .ok (.number (.ofNat bytes[n].toNat))
  set : ∀ v, h.set (.object id) key v =
    .ok (true, h.putObject id { h.object id with bytes? := some (bytes.set n v.toByte) })

/-- The key has no property, and is refused one. -/
structure RefusedKey (h : Heap) (id : ObjectId) (key : String) : Prop where
  get : h.get (.object id) key = .ok .undefined
  set : ∀ v, h.set (.object id) key v = .ok (false, h)

/-- The key has a property that is kept with the object. -/
structure KeptKey (h : Heap) (id : ObjectId) (key : String) : Prop where
  get : h.get (.object id) key = .ok ((h.object id).ownProperty key)
  set : ∀ v, h.set (.object id) key v = .ok (true, h.putObject id
    { h.object id with properties := (h.object id).properties.insert key v })

section

variable (hbytes : (h.object id).bytes? = some bytes) (hkey : Text.IsInteger key n)

include hbytes hkey

theorem byteKey (hlimit : n < Text.indexLimit) (hn : n < bytes.size) :
    h.ByteKey id key bytes n hn where
  get := congrArg Except.ok (ObjectCell.get_byte hbytes hkey hlimit hn)
  set v := by rw [Heap.set, setOf, ObjectCell.set?_byte hbytes hkey hlimit hn]

theorem refusedKey (hlimit : n < Text.indexLimit) (hn : bytes.size ≤ n) :
    h.RefusedKey id key where
  get := congrArg Except.ok (ObjectCell.get_past hbytes hkey hlimit hn)
  set v := by rw [Heap.set, setOf, ObjectCell.set?_past hbytes hkey hlimit hn]

theorem keptKey (hlimit : Text.indexLimit ≤ n) : h.KeptKey id key where
  get := congrArg Except.ok (ObjectCell.get_kept hbytes hkey hlimit)
  set v := by rw [Heap.set, setOf, ObjectCell.set?_kept hbytes hkey hlimit]

end

/-- On a buffer, an integer key below the limit of indices is that of a byte, or past the end, where
    nothing is read and a write is refused. However the heap came about, none is kept as a property.
    Any other integer key is kept like the key of a plain object. -/
theorem integer_keys_of_buffer (he : empty.Evolves Anywhere h)
    (hbytes : (h.object id).bytes? = some bytes) (hkey : Text.IsInteger key n) :
    (n < Text.indexLimit →
      (∀ hn : n < bytes.size, h.ByteKey id key bytes n hn) ∧
      (bytes.size ≤ n → h.RefusedKey id key) ∧
      (h.object id).properties.get? key = none) ∧
    (Text.indexLimit ≤ n → h.KeptKey id key) := by
  refine ⟨fun hlimit => ⟨byteKey hbytes hkey hlimit, refusedKey hbytes hkey hlimit, ?_⟩,
    keptKey hbytes hkey⟩
  refine Option.eq_none_iff_forall_not_mem.2 fun v hv => ?_
  obtain ⟨_, hindex⟩ := he.apart apart_of_empty id (by rw [hbytes]; rfl) key v hv
  rw [hkey.index?_of_lt hlimit] at hindex
  cases hindex

/-- The last byte of a fresh buffer, and what is past its end. -/
theorem integer_keys_of_newBuffer :
    let (id, h) := empty.newBuffer #[1, 2]
    empty.Evolves Anywhere h ∧ (h.object id).bytes? = some #[1, 2] ∧ Text.IsInteger "1" 1 ∧
      Text.IsInteger "10" 10 ∧ h.ByteKey id "1" #[1, 2] 1 (by decide) ∧ h.RefusedKey id "10" := by
  have hevolves : empty.Evolves Anywhere (empty.newBuffer #[1, 2]).2 :=
    .of_change (.object (some #[1, 2]))
  have hbytes : ((empty.newBuffer #[1, 2]).2.object (empty.newBuffer #[1, 2]).1).bytes? =
      some #[1, 2] := rfl
  have hone : Text.IsInteger "1" 1 := Text.isInteger_iff.2 (by decide)
  have hten : Text.IsInteger "10" 10 := Text.isInteger_iff.2 (by decide)
  exact ⟨hevolves, hbytes, hone, hten,
    ((integer_keys_of_buffer hevolves hbytes hone).1 (by decide)).1 (by decide),
    ((integer_keys_of_buffer hevolves hbytes hten).1 (by decide)).2.1 (by decide)⟩

/-- A fresh buffer of two bytes keeps a property for the key past all indices. -/
theorem integer_key_kept :
    let (id, h) := empty.newBuffer #[1, 2]
    let key := "18446744073709551616"
    empty.Evolves Anywhere h ∧ (h.object id).bytes? = some #[1, 2] ∧
      Text.IsInteger key 18446744073709551616 ∧
      ∃ h', h.set (.object id) key (.number ⟨0x3ff0000000000000⟩) = .ok (true, h') ∧
        (h'.object id).properties.get? key = some (.number ⟨0x3ff0000000000000⟩) := by
  refine ⟨.of_change (.object (some #[1, 2])), rfl, Text.isInteger_iff.2 (by decide), ?_⟩
  exact ⟨_, rfl, by decide⟩

end Heap

end ValueBridge
