import ValueBridge.Engine.Standard
import ValueBridge.Proofs.Binary64.Exact
import ValueBridge.Proofs.Heap.Buffer
import ValueBridge.Proofs.Heap.Writes

/-!
# Runs of writes on a buffer

A fresh buffer after a run of writes, to it and to anything else (`Heap.buffer_run`): it has as
many bytes as before, each that of the last value written there, and as its properties the last
values written to all other keys. Its length and what is past its end are refused at all times.

Every write keeps the number of bytes, and no property by the key of the length or of an index
(`ObjectCell.IsBuffer`).
-/

namespace ValueBridge

/-- The key is neither that of the length nor that of an index, so that on a buffer, too, it is the
    key of a property. -/
def Text.IsPropertyKey (key : String) : Prop :=
  key ≠ lengthKey ∧ ∀ n, IsInteger key n → indexLimit ≤ n

theorem Text.isPropertyKey_iff {key : String} :
    IsPropertyKey key ↔ key ≠ lengthKey ∧ index? key = none := by
  refine and_congr_right fun _ => ?_
  rw [Option.eq_none_iff_forall_ne_some]
  simp only [ne_eq, index?_eq_some_iff, not_and, Nat.not_lt]

/-- The byte that stands for a value: its number, toward zero and modulo 256. A symbol has no
    number, and its byte is 0. -/
structure Value.HasByte (v : Value) (b : UInt8) : Prop where
  number : ∀ x, v.toNumber = .ok x → (b.toNat : Int) = x.integerPart % 256
  symbol : ∀ id, v = .symbol id → b = 0

theorem Value.hasByte_toByte (v : Value) : v.HasByte v.toByte where
  number x hx := by
    rw [toByte, hx]
    dsimp only
    cases hfinite : x.isFinite with
    | true => exact Binary64.toNat_toByte hfinite
    | false =>
      rw [Binary64.toByte_of_not_isFinite hfinite, Binary64.integerPart, hfinite]
      rfl
  symbol id hid := by
    rw [hid]
    rfl

/-! ## Cells -/

namespace ObjectCell

variable {cell cell' : ObjectCell} {bytes : Array UInt8} {key k : String} {v : Value} {size n : Nat}

theorem get_length (hbytes : cell.bytes? = some bytes) :
    cell.get lengthKey = .number (.ofNat bytes.size) := by
  simp only [get, hbytes, if_true]

theorem set?_length (hbytes : cell.bytes? = some bytes) (v : Value) :
    cell.set? lengthKey v = none := by
  simp only [set?, hbytes, if_true]

theorem get_property (hbytes : cell.bytes? = some bytes) (hkey : Text.IsPropertyKey key) :
    cell.get key = cell.ownProperty key := by
  obtain ⟨hlength, hindex⟩ := Text.isPropertyKey_iff.1 hkey
  simp only [get, hbytes, hlength, hindex, if_false]

theorem set?_property (hbytes : cell.bytes? = some bytes) (hkey : Text.IsPropertyKey key)
    (v : Value) :
    cell.set? key v = some { cell with properties := cell.properties.insert key v } := by
  obtain ⟨hlength, hindex⟩ := Text.isPropertyKey_iff.1 hkey
  simp only [set?, hbytes, hlength, hindex, if_false]

theorem afterSet_cases (cell : ObjectCell) (key : String) (v : Value) :
    cell.afterSet key v = cell ∨ cell.Written key v (cell.afterSet key v) := by
  rw [afterSet]
  cases hset : cell.set? key v with
  | none => exact .inl rfl
  | some cell' => exact .inr (written_of_set? hset)

/-- The object is a buffer of so many bytes, and none of its properties is in their place. -/
structure IsBuffer (size : Nat) (cell : ObjectCell) : Prop where
  bytes : ∃ bytes, cell.bytes? = some bytes ∧ bytes.size = size
  apart : cell.Apart

/-- The byte of a buffer at an index within it. -/
def byteAt (cell : ObjectCell) (index : Nat) : UInt8 :=
  (cell.bytes?.getD #[]).getD index 0

namespace IsBuffer

variable (hcell : cell.IsBuffer size)

include hcell

theorem afterSet (key : String) (v : Value) : (cell.afterSet key v).IsBuffer size := by
  rcases cell.afterSet_cases key v with heq | hwritten
  · rw [heq]
    exact hcell
  · refine ⟨?_, hwritten.apart hcell.apart⟩
    obtain ⟨bytes, hbytes, hsize⟩ := hcell.bytes
    generalize cell.afterSet key v = cell' at hwritten
    cases hwritten with
    | property => exact ⟨bytes, hbytes, hsize⟩
    | @byte bytes' index hbytes' =>
      obtain rfl := Option.some_inj.1 (hbytes.symm.trans hbytes')
      exact ⟨_, rfl, by rw [Array.size_setIfInBounds, hsize]⟩

/-- A byte after a write. -/
theorem byteAt_afterSet (hkey : Text.IsInteger key n) (hlimit : n < Text.indexLimit) (hn : n < size)
    (k : String) (v : Value) :
    (cell.afterSet k v).byteAt n = if k = key then v.toByte else cell.byteAt n := by
  obtain ⟨bytes, hbytes, rfl⟩ := hcell.bytes
  split
  · next hk =>
    rw [ObjectCell.afterSet, hk, set?_byte hbytes hkey hlimit hn]
    simp [byteAt, hn]
  · next hk =>
    rcases cell.afterSet_cases k v with heq | hwritten
    · rw [heq]
    · generalize cell.afterSet k v = cell' at hwritten
      cases hwritten with
      | property => rfl
      | @byte bytes' index hbytes' _ hindex =>
        -- The byte is that of another index, as no two keys name the same.
        have hne : index ≠ n := by
          rintro rfl
          exact hk ((Text.indexKey_of_index? hindex).symm.trans (Text.isInteger_iff.1 hkey))
        simp only [byteAt, hbytes', Option.getD_some, Array.getD_eq_getD_getElem?,
          Array.getElem?_setIfInBounds_ne hne]

/-- A property after a write. -/
theorem get?_afterSet (hkey : Text.IsPropertyKey key) (k : String) (v : Value) :
    (cell.afterSet k v).properties.get? key =
      if k = key then some v else cell.properties.get? key := by
  obtain ⟨bytes, hbytes, rfl⟩ := hcell.bytes
  split
  · next hk =>
    rw [ObjectCell.afterSet, hk, set?_property hbytes hkey, Option.getD_some,
      PropertyMap.get?_insert, if_pos rfl]
  · next hk =>
    rcases cell.afterSet_cases k v with heq | hwritten
    · rw [heq]
    · generalize cell.afterSet k v = cell' at hwritten
      cases hwritten with
      | property => rw [PropertyMap.get?_insert, if_neg (Ne.symm hk)]
      | byte => rfl

end IsBuffer

end ObjectCell

/-! ## Heaps -/

namespace Heap

variable {h : Heap} {id : ObjectId} {size : Nat}

/-- What a buffer reports with the given bytes, and with other properties bound as given. -/
structure ReportsBuffer (h : Heap) (id : ObjectId) (bytes : Array UInt8)
    (bound : String → Option Value) : Prop where
  bytes? : (h.object id).bytes? = some bytes
  get_length : h.get (.object id) lengthKey = .ok (.number (.ofNat bytes.size))
  set_length : ∀ v, h.set (.object id) lengthKey v = .ok (false, h)
  byte : ∀ key n, Text.IsInteger key n → n < Text.indexLimit →
    ∀ hn : n < bytes.size, h.ByteKey id key bytes n hn
  past : ∀ key n, Text.IsInteger key n → n < Text.indexLimit → bytes.size ≤ n →
    h.RefusedKey id key
  kept : ∀ key, Text.IsPropertyKey key → h.KeptKey id key
  property : ∀ key, Text.IsPropertyKey key → (h.object id).properties.get? key = bound key
  has : ∀ key, ¬Text.IsPropertyKey key → (h.object id).properties.contains key = false
  keys : ∀ key ∈ (h.object id).properties.keys, Text.IsPropertyKey key
  entries : ∀ e ∈ (h.object id).properties.entries, Text.IsPropertyKey e.1

theorem keptKey_of_isPropertyKey {bytes : Array UInt8} {key : String}
    (hbytes : (h.object id).bytes? = some bytes) (hkey : Text.IsPropertyKey key) :
    h.KeptKey id key where
  get := congrArg Except.ok (ObjectCell.get_property hbytes hkey)
  set v := by rw [Heap.set, setOf, ObjectCell.set?_property hbytes hkey]

/-- A buffer reports its bytes, and the properties that it keeps. -/
theorem reportsBuffer {bytes : Array UInt8} {bound : String → Option Value}
    (hcell : (h.object id).IsBuffer size) (hbytes : (h.object id).bytes? = some bytes)
    (hbound : ∀ key, Text.IsPropertyKey key → (h.object id).properties.get? key = bound key) :
    h.ReportsBuffer id bytes bound := by
  have hnone (key : String) (hkey : ¬Text.IsPropertyKey key) :
      (h.object id).properties.get? key = none := by
    refine Option.eq_none_iff_forall_ne_some.2 fun v hv => hkey (Text.isPropertyKey_iff.2 ?_)
    exact hcell.apart (by rw [hbytes]; rfl) key v hv
  have hkeys (key : String) (hkey : key ∈ (h.object id).properties.keys) :
      Text.IsPropertyKey key := by
    obtain ⟨v, hv⟩ := PropertyMap.mem_keys_iff.1 hkey
    exact Text.isPropertyKey_iff.2 (hcell.apart (by rw [hbytes]; rfl) key v hv)
  exact {
    bytes? := hbytes
    get_length := congrArg Except.ok (ObjectCell.get_length hbytes)
    set_length := fun v => by rw [Heap.set, setOf, ObjectCell.set?_length hbytes]
    byte := fun key n hkey hlimit hn => byteKey hbytes hkey hlimit hn
    past := fun key n hkey hlimit hn => refusedKey hbytes hkey hlimit hn
    kept := fun key hkey => keptKey_of_isPropertyKey hbytes hkey
    property := hbound
    has := fun key hkey => by rw [PropertyMap.contains, hnone key hkey]; rfl
    keys := hkeys
    entries := fun e he => hkeys e.1 (List.mem_map_of_mem he) }

/-- The constructor of buffers makes a buffer as an embedder does. -/
theorem newBuffer_of_run {receiver v : Value} {args : List Value} {h' : Heap}
    (hrun : Standard.run .bufferOf receiver args h = (.ok v, h')) :
    ∃ bytes, v = .object (h.newBuffer bytes).1 ∧ h' = (h.newBuffer bytes).2 := by
  rw [Standard.run] at hrun
  split at hrun
  · cases hrun
  · next bytes _ =>
    cases hrun
    exact ⟨bytes, rfl, rfl⟩

theorem isSome_bytes?_run (h : Heap) (ws : List Write) (id : ObjectId) :
    ((ws.foldl write h).object id).bytes?.isSome = (h.object id).bytes?.isSome :=
  foldl_invariant (I := fun h' => (h'.object id).bytes?.isSome = (h.object id).bytes?.isSome)
    (fun h' w heq => ((write_cases h' w).isSome_bytes? id).trans heq) rfl ws

/-- A buffer without properties after a run of writes. -/
theorem reportsBuffer_run {bytes : Array UInt8} (hid : h.Has (.object id))
    (hfresh : h.object id = ⟨.empty, some bytes⟩) (ws : List Write) :
    ∃ bytes', bytes'.size = bytes.size ∧
      (ws.foldl write h).ReportsBuffer id bytes' (lastWritten? ws (.object id)) ∧
      ∀ key n, Text.IsInteger key n → n < Text.indexLimit → ∀ hn : n < bytes.size,
        bytes'[n]? =
          some (((lastWritten? ws (.object id) key).map Value.toByte).getD bytes[n]) := by
  have hbuffer : (h.object id).IsBuffer bytes.size := by
    rw [hfresh]
    exact ⟨⟨bytes, rfl, rfl⟩, ObjectCell.apart_empty _⟩
  have hkeep (cell : ObjectCell) (k : String) (v : Value) (hcell : cell.IsBuffer bytes.size) :
      (cell.afterSet k v).IsBuffer bytes.size := hcell.afterSet k v
  obtain ⟨-, hrun⟩ := (follows_object id).run hkeep hid hbuffer ws
  obtain ⟨bytes', hbytes', hsize⟩ := hrun.bytes
  refine ⟨bytes', hsize, reportsBuffer hrun hbytes' fun key hkey => ?_,
    fun key n hkey hlimit hn => ?_⟩
  · rw [(follows_object id).get?_run hkeep (fun cell k v hcell => hcell.get?_afterSet hkey k v)
      hid hbuffer ws, hfresh, boundAfter]
    exact Option.or_none
  · have hbyte := (follows_object id).eq_run (f := fun cell => cell.byteAt n) hkeep
      (fun cell k v hcell => hcell.byteAt_afterSet hkey hlimit hn k v) hid hbuffer ws
    have hn' : n < bytes'.size := hsize ▸ hn
    rw [hfresh] at hbyte
    simp only [ObjectCell.byteAt, hbytes', Option.getD_some, Array.getD_eq_getD_getElem?,
      Array.getElem?_eq_getElem hn, Array.getElem?_eq_getElem hn'] at hbyte
    rw [Array.getElem?_eq_getElem hn', hbyte]

/-- A fresh buffer, made of bytes or by the constructor of buffers, after a run of writes, whatever
    is written to and which values are written. It has as many bytes as before, and each is that of
    the last value written at its index, or the first one. It reports its length and its bytes, and
    the values last written to all other keys. No other object has become a buffer, or ceased to be
    one. -/
theorem buffer_run (h : Heap) (bytes : Array UInt8) (ws : List Write) :
    let (id, h₁) := h.newBuffer bytes
    let h' := ws.foldl write h₁
    (∃ bytes', bytes'.size = bytes.size ∧
      h'.ReportsBuffer id bytes' (lastWritten? ws (.object id)) ∧
      ∀ key n, Text.IsInteger key n → n < Text.indexLimit → ∀ hn : n < bytes.size,
        bytes'[n]? = some (((lastWritten? ws (.object id) key).map Value.toByte).getD bytes[n])) ∧
    (∀ other, (h'.object other).bytes?.isSome = (h₁.object other).bytes?.isSome) ∧
    (∀ v : Value, v.HasByte v.toByte) ∧
    ∀ receiver args v h₂, Standard.run .bufferOf receiver args h = (.ok v, h₂) →
      ∃ bytes, v = .object (h.newBuffer bytes).1 ∧ h₂ = (h.newBuffer bytes).2 := by
  have hfresh : (h.newBuffer bytes).2.object (h.newBuffer bytes).1 = ⟨.empty, some bytes⟩ := by
    rw [newBuffer, object_allocObject]
    exact if_pos rfl
  exact ⟨reportsBuffer_run (has_allocObject h _) hfresh ws, isSome_bytes?_run _ ws,
    Value.hasByte_toByte, fun _ _ _ _ => newBuffer_of_run⟩

end Heap

end ValueBridge
