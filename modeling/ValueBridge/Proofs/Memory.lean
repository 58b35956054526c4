import Mathlib.Algebra.Group.Nat.Defs
import ValueBridge.Memory

/-!
# Reading what was written

A memory is seen byte by byte (`Memory.byte?`). Bytes that are written stand where they
were written and nowhere else (`getElem?_overwrite`), and a read finds the bytes that stand
there (`read?_bound`), so that what is written is read again for as long as nobody writes
to its bytes (`read?_overwrite`, `read?_congr`).

A reference is read as it was written, bit for bit (`readRef?_of_read?`).
-/

namespace ValueBridge

/-! ## Words as bytes -/

@[simp] theorem length_toLittleEndian (count n : Nat) :
    (toLittleEndian count n).length = count := by
  induction count generalizing n with
  | zero => rfl
  | succ count ih => rw [toLittleEndian, List.length_cons, ih]

theorem ofLittleEndian_cons (b : UInt8) (bytes : List UInt8) :
    ofLittleEndian (b :: bytes) = b.toNat + 256 * ofLittleEndian bytes := rfl

/-- So many bytes give back a natural that fits in them. -/
theorem ofLittleEndian_toLittleEndian (count n : Nat) :
    ofLittleEndian (toLittleEndian count n) = n % 256 ^ count := by
  induction count generalizing n with
  | zero => rw [Nat.pow_zero, Nat.mod_one]; rfl
  | succ count ih =>
    have hfirst : (UInt8.ofNat n).toNat = n % 256 := UInt8.toNat_ofNat'
    rw [toLittleEndian, ofLittleEndian_cons, hfirst, ih, Nat.pow_succ', Nat.mod_mul]

/-- The natural of bytes fits in as many. -/
theorem ofLittleEndian_lt (bytes : List UInt8) : ofLittleEndian bytes < 256 ^ bytes.length := by
  induction bytes with
  | nil => exact Nat.one_pos
  | cons b bytes ih =>
    have hb : b.toNat < 256 := b.toNat_lt
    rw [ofLittleEndian_cons, List.length_cons, Nat.pow_succ']
    omega

/-- The natural of bytes gives them back. -/
theorem toLittleEndian_ofLittleEndian (bytes : List UInt8) :
    toLittleEndian bytes.length (ofLittleEndian bytes) = bytes := by
  induction bytes with
  | nil => rfl
  | cons b bytes ih =>
    have hb : b.toNat < 256 := b.toNat_lt
    have hfirst : UInt8.ofNat (b.toNat + 256 * ofLittleEndian bytes) = b := by
      rw [← UInt8.toNat_inj, UInt8.toNat_ofNat']
      omega
    have hrest : (b.toNat + 256 * ofLittleEndian bytes) / 256 = ofLittleEndian bytes := by omega
    rw [List.length_cons, ofLittleEndian_cons, toLittleEndian, hfirst, hrest, ih]

namespace Memory

/-- The byte at a position; missing while unbound and past the end. -/
def byte? : Memory → Nat → Option UInt8
  | .unbound, _ => none
  | .bound bytes, i => bytes[i]?

variable {bytes bytes' : Array UInt8} {addr : UInt32} {length : Nat} {data : List UInt8}

/-! ## Bytes written -/

@[simp] theorem size_overwrite (bytes : Array UInt8) (position : Nat) (data : List UInt8) :
    (overwrite bytes position data).size = bytes.size := by
  induction data generalizing bytes position with
  | nil => rfl
  | cons b data ih => rw [overwrite, ih, Array.size_setIfInBounds]

/-- Bytes written stand at their place, and all others are as before. -/
theorem getElem?_overwrite (bytes : Array UInt8) (position : Nat) (data : List UInt8) (i : Nat)
    (h : position + data.length ≤ bytes.size) :
    (overwrite bytes position data)[i]? =
      if position ≤ i ∧ i < position + data.length then data[i - position]? else bytes[i]? := by
  induction data generalizing bytes position with
  | nil => rw [overwrite, List.length_nil, if_neg (by omega)]
  | cons b data ih =>
    rw [List.length_cons] at h ⊢
    rw [overwrite, ih _ _ (by rw [Array.size_setIfInBounds]; omega), Array.getElem?_setIfInBounds]
    by_cases hi : position = i
    · -- The first of the bytes is written here, and the others only after it.
      subst hi
      rw [if_neg (by omega), if_pos rfl, if_pos (by omega), if_pos (by omega), Nat.sub_self]
      rfl
    · rw [if_neg hi]
      by_cases hin : position + 1 ≤ i ∧ i < position + 1 + data.length
      · rw [if_pos hin, if_pos (by omega), show i - position = i - (position + 1) + 1 by omega,
          List.getElem?_cons_succ]
      · rw [if_neg hin, if_neg (by omega)]

/-! ## Bytes read -/

/-- A read of so many bytes finds those that stand there. -/
theorem read?_bound :
    (bound bytes).read? addr length = .ok (some data) ↔
      addr.toNat + length ≤ bytes.size ∧ data.length = length ∧
        ∀ i, i < length → data[i]? = bytes[addr.toNat + i]? := by
  rw [read?]
  by_cases hin : addr.toNat + length ≤ bytes.size
  · have hextract : (bytes.extract addr.toNat (addr.toNat + length)).toList.length = length := by
      rw [Array.length_toList, Array.size_extract]
      omega
    have hget (i : Nat) (hi : i < length) :
        (bytes.extract addr.toNat (addr.toNat + length)).toList[i]? = bytes[addr.toNat + i]? := by
      rw [Array.getElem?_toList, Array.getElem?_extract, if_pos (by omega)]
    rw [if_pos hin]
    constructor
    · rintro ⟨⟩
      exact ⟨hin, hextract, hget⟩
    · rintro ⟨_, hlength, hdata⟩
      refine congrArg (fun data => Except.ok (some data)) (List.ext_getElem? fun i => ?_)
      by_cases hi : i < length
      · rw [hget i hi, hdata i hi]
      · rw [List.getElem?_eq_none (by omega), List.getElem?_eq_none (by omega)]
  · rw [if_neg hin]
    exact iff_of_false (fun h => by cases h) fun h => hin h.1

/-- What was written is read. -/
theorem read?_overwrite (h : addr.toNat + data.length ≤ bytes.size) :
    (bound (overwrite bytes addr.toNat data)).read? addr data.length = .ok (some data) := by
  refine read?_bound.2 ⟨(size_overwrite ..).symm ▸ h, rfl, fun i hi => ?_⟩
  rw [getElem?_overwrite _ _ _ _ h, if_pos (by omega), Nat.add_sub_cancel_left]

/-- A read of some bytes depends on these alone. -/
theorem read?_congr (hpos : 0 < length)
    (hread : (bound bytes).read? addr length = .ok (some data))
    (h : ∀ i, addr.toNat ≤ i → i < addr.toNat + length → bytes'[i]? = bytes[i]?) :
    (bound bytes').read? addr length = .ok (some data) := by
  obtain ⟨hin, hlength, hdata⟩ := read?_bound.1 hread
  refine read?_bound.2 ⟨?_, hlength, fun i hi => ?_⟩
  · -- The last of the bytes is there, hence all are.
    have hlast : addr.toNat + length - 1 < bytes.size := by omega
    have hlast' := h (addr.toNat + length - 1) (by omega) (by omega)
    rw [Array.getElem?_eq_getElem hlast] at hlast'
    have := (Array.getElem?_eq_some_iff.1 hlast').1
    omega
  · rw [hdata i hi, h _ (by omega) (by omega)]

/-! ## Bytes kept -/

/-- The memories have the same bytes, but perhaps at the given positions. -/
structure AgreesBut (P : Nat → Prop) (m m' : Memory) : Prop where
  isBound : m'.isBound = m.isBound
  size : m'.size = m.size
  byte? : ∀ i, ¬P i → m'.byte? i = m.byte? i

theorem AgreesBut.refl (P : Nat → Prop) (m : Memory) : AgreesBut P m m :=
  ⟨rfl, rfl, fun _ _ => rfl⟩

theorem AgreesBut.mono {P Q : Nat → Prop} {m m' : Memory} (h : AgreesBut P m m')
    (hPQ : ∀ i, P i → Q i) : AgreesBut Q m m' :=
  ⟨h.isBound, h.size, fun i hi => h.byte? i fun hP => hi (hPQ i hP)⟩

theorem AgreesBut.trans {P : Nat → Prop} {m m' m'' : Memory} (h : AgreesBut P m m')
    (h' : AgreesBut P m' m'') : AgreesBut P m m'' :=
  ⟨h'.isBound.trans h.isBound, h'.size.trans h.size,
    fun i hi => (h'.byte? i hi).trans (h.byte? i hi)⟩

/-- Bytes written leave those before and after them. -/
theorem agreesBut_overwrite {P : Nat → Prop} (h : addr.toNat + data.length ≤ bytes.size)
    (hP : ∀ i, addr.toNat ≤ i → i < addr.toNat + data.length → P i) :
    AgreesBut P (.bound bytes) (.bound (overwrite bytes addr.toNat data)) where
  isBound := rfl
  size := size_overwrite ..
  byte? i hi := by
    rw [Memory.byte?, getElem?_overwrite _ _ _ _ h, if_neg fun hin => hi (hP i hin.1 hin.2)]
    rfl

/-! ## References -/

theorem length_refBytes (r : Ref) : (refBytes r).length = refSize :=
  length_toLittleEndian _ _

theorem ofLittleEndian_refBytes (r : Ref) : ofLittleEndian (refBytes r) = r.bits.toNat := by
  rw [refBytes, ofLittleEndian_toLittleEndian]
  exact Nat.mod_eq_of_lt r.bits.toNat_lt

/-- The bytes of a reference tell all of its bits. -/
theorem refBytes_inj {r r' : Ref} : refBytes r = refBytes r' ↔ r = r' := by
  refine ⟨fun h => ?_, congrArg refBytes⟩
  have hbits := congrArg ofLittleEndian h
  rw [ofLittleEndian_refBytes, ofLittleEndian_refBytes, UInt64.toNat_inj] at hbits
  exact congrArg Ref.mk hbits

/-- Any bytes that are as many as those of a reference are those of one. -/
theorem exists_refBytes (h : data.length = refSize) : ∃ r, refBytes r = data := by
  refine ⟨⟨UInt64.ofNat (ofLittleEndian data)⟩, ?_⟩
  have hfits : ofLittleEndian data < 256 ^ refSize := h ▸ ofLittleEndian_lt data
  rw [refBytes, UInt64.toNat_ofNat_of_lt' hfits, ← h, toLittleEndian_ofLittleEndian]

/-- There are the bytes of a reference wherever there is room for them. -/
theorem exists_read?_refBytes (h : addr.toNat + refSize ≤ bytes.size) :
    ∃ r, (bound bytes).read? addr refSize = .ok (some (refBytes r)) := by
  have hlength : (bytes.extract addr.toNat (addr.toNat + refSize)).toList.length = refSize := by
    rw [Array.length_toList, Array.size_extract]
    omega
  obtain ⟨r, hr⟩ := exists_refBytes hlength
  exact ⟨r, by rw [hr, read?, if_pos h]⟩

/-- A reference is read bit for bit. -/
theorem readRef?_of_read? {m : Memory} {r : Ref}
    (h : m.read? addr refSize = .ok (some (refBytes r))) : m.readRef? addr = .ok (some r) := by
  rw [readRef?, readNatural?, h]
  simp only [Except.map, Option.map_some, ofLittleEndian_refBytes, UInt64.ofNat_toNat]

end Memory

end ValueBridge
