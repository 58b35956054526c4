import ValueBridge.Proofs.Bridge.Delivery

/-!
# Accesses to a bound memory

An access to a bound memory is to so many bytes from an address on. If these lie in memory, and
the end of them is not wrapped, a read is made of the bytes that stand there (`Memory.Finds`), and
a write leaves the data in their place and nothing else changed (`Memory.Puts`). If they do not,
both are refused with what was asked for.

A read may overlap what was written before in any way: byte by byte it finds what was written, or
what stood there (`Memory.Overwritten.getElem?_of_stands`). So the words of a reference are found
at the address and four bytes after it (`Memory.Overwritten.readWord?_low`, `readWord?_high`).

* `Memory.access_laws`: all of it, for every way to read.
-/

namespace ValueBridge

/-- The bytes of the lower part of a natural come before those of the upper one. -/
theorem toLittleEndian_add (low high n : Nat) :
    toLittleEndian (low + high) n =
      toLittleEndian low n ++ toLittleEndian high (n / 256 ^ low) := by
  induction low generalizing n with
  | zero => rw [Nat.zero_add, Nat.pow_zero, Nat.div_one, toLittleEndian, List.nil_append]
  | succ low ih =>
    rw [Nat.succ_add, toLittleEndian, toLittleEndian, ih, List.cons_append, Nat.div_div_eq_div_mul,
      Nat.pow_succ']

namespace Memory

/-- The bytes stand in memory from the address on. -/
structure Stands (bytes : Array UInt8) (addr : UInt32) (found : List UInt8) : Prop where
  inBounds : addr.toNat + found.length ≤ bytes.size
  getElem? : ∀ i, i < found.length → found[i]? = bytes[addr.toNat + i]?

/-- The result of a read of so many bytes: what is made of those that stand there, or a refusal
    if they are not all in memory. -/
structure Finds {α : Type} (bytes : Array UInt8) (addr : UInt32) (length : Nat)
    (make : List UInt8 → α) (result : Except BridgeFault α) : Prop where
  accepted : addr.toNat + length ≤ bytes.size →
    ∃ found, found.length = length ∧ Stands bytes addr found ∧ result = .ok (make found)
  refused : bytes.size < addr.toNat + length → result = .error (.outOfBounds addr length bytes.size)

/-- The bytes are as many as before, and the same but for the data from the address on. -/
structure Overwritten (bytes : Array UInt8) (addr : UInt32) (data : List UInt8)
    (bytes' : Array UInt8) : Prop where
  inBounds : addr.toNat + data.length ≤ bytes.size
  size : bytes'.size = bytes.size
  getElem? : ∀ i, bytes'[i]? =
    if addr.toNat ≤ i ∧ i < addr.toNat + data.length then data[i - addr.toNat]? else bytes[i]?

/-- The outcome of a write to a memory of these bytes: the data overwrites bytes and nothing else
    is changed, or the write is refused as a whole if there is no room for the data. -/
structure Puts (bytes : Array UInt8) (addr : UInt32) (data : List UInt8) (s : State)
    (outcome : Except BridgeFault Unit × State) : Prop where
  accepted : addr.toNat + data.length ≤ bytes.size →
    ∃ bytes', outcome = (.ok (), { s with memory := .bound bytes' }) ∧
      Overwritten bytes addr data bytes'
  refused : bytes.size < addr.toNat + data.length →
    outcome = (.error (.outOfBounds addr data.length bytes.size), s)

variable {α β : Type} {bytes bytes' : Array UInt8} {addr high : UInt32} {length : Nat}
  {data found : List UInt8} {make : List UInt8 → α} {result : Except BridgeFault α} {r : Ref}

/-! ## Reads -/

theorem read?_of_stands (h : Stands bytes addr found) :
    (bound bytes).read? addr found.length = .ok (some found) :=
  read?_bound.2 ⟨h.inBounds, rfl, h.getElem?⟩

namespace Stands

/-- The first of the bytes stand by themselves. -/
theorem left {after : List UInt8} (h : Stands bytes addr (data ++ after)) :
    Stands bytes addr data := by
  have hin := h.inBounds
  rw [List.length_append] at hin
  refine ⟨by omega, fun i hi => ?_⟩
  rw [← h.getElem? i (by rw [List.length_append]; omega), List.getElem?_append_left hi]

/-- The bytes of a natural are read as a word as far as it fits. -/
theorem readWord? {n : Nat} (h : Stands bytes addr (toLittleEndian 4 n)) :
    (bound bytes).readWord? addr = .ok (some (UInt32.ofNat (n % Ref.wordSize))) := by
  have hread := read?_of_stands h
  rw [length_toLittleEndian] at hread
  rw [Memory.readWord?, readNatural?, hread]
  simp only [Except.map, Option.map_some, ofLittleEndian_toLittleEndian]
  rfl

theorem readRef? (h : Stands bytes addr (refBytes r)) :
    (bound bytes).readRef? addr = .ok (some r) := by
  have hread := read?_of_stands h
  rw [length_refBytes] at hread
  exact readRef?_of_read? hread

/-- The bytes of a reference are read as a number of the same bits. -/
theorem readNumber? (h : Stands bytes addr (refBytes r)) :
    (bound bytes).readNumber? addr = .ok (some r.toBinary64) := by
  have hread := read?_of_stands h
  rw [length_refBytes, refSize] at hread
  rw [Memory.readNumber?, readNatural?, hread]
  simp only [Except.map, Option.map_some, ofLittleEndian_refBytes, UInt64.ofNat_toNat]
  rfl

theorem readWord?_low (h : Stands bytes addr (refBytes r)) :
    (bound bytes).readWord? addr = .ok (some r.low) := by
  rw [refBytes, show refSize = 4 + 4 from rfl, toLittleEndian_add] at h
  exact h.left.readWord?

end Stands

/-- What is made of the result of a read is made of the bytes. -/
theorem Finds.map (h : Finds bytes addr length make result) (f : α → β) :
    Finds bytes addr length (fun found => f (make found)) (result.map f) where
  accepted hin := by
    obtain ⟨found, hlength, hstands, rfl⟩ := h.accepted hin
    exact ⟨found, hlength, hstands, rfl⟩
  refused hout := by
    rw [h.refused hout]
    rfl

theorem finds_read? (bytes : Array UInt8) (addr : UInt32) (length : Nat) :
    Finds bytes addr length some ((bound bytes).read? addr length) where
  accepted hin := by
    obtain ⟨data, hread⟩ : ∃ data, (bound bytes).read? addr length = .ok (some data) :=
      ⟨_, if_pos hin⟩
    obtain ⟨_, rfl, hdata⟩ := read?_bound.1 hread
    exact ⟨data, rfl, ⟨hin, hdata⟩, hread⟩
  refused hout := if_neg (Nat.not_le.2 hout)

theorem finds_readNatural? (bytes : Array UInt8) (addr : UInt32) (length : Nat) :
    Finds bytes addr length (fun found => some (ofLittleEndian found))
      ((bound bytes).readNatural? addr length) :=
  (finds_read? bytes addr length).map (Option.map ofLittleEndian)

theorem finds_readWord? (bytes : Array UInt8) (addr : UInt32) :
    Finds bytes addr 4 (fun found => some (UInt32.ofNat (ofLittleEndian found)))
      ((bound bytes).readWord? addr) :=
  (finds_readNatural? bytes addr 4).map (Option.map UInt32.ofNat)

theorem finds_readNumber? (bytes : Array UInt8) (addr : UInt32) :
    Finds bytes addr 8 (fun found => some ⟨UInt64.ofNat (ofLittleEndian found)⟩)
      ((bound bytes).readNumber? addr) :=
  (finds_readNatural? bytes addr 8).map (Option.map fun n => Binary64.mk (UInt64.ofNat n))

theorem finds_readRef? (bytes : Array UInt8) (addr : UInt32) :
    Finds bytes addr refSize (fun found => some ⟨UInt64.ofNat (ofLittleEndian found)⟩)
      ((bound bytes).readRef? addr) :=
  (finds_readNatural? bytes addr refSize).map (Option.map fun n => Ref.mk (UInt64.ofNat n))

theorem finds_readText (bytes : Array UInt8) (addr length : UInt32) :
    Finds bytes addr length.toNat Utf8.decode ((bound bytes).readText addr length) :=
  (finds_read? bytes addr length.toNat).map fun bytes? => Utf8.decode (bytes?.getD [])

/-- A check is a read of which nothing is made. -/
theorem finds_check (bytes : Array UInt8) (addr : UInt32) (length : Nat) :
    Finds bytes addr length (fun _ => ()) ((bound bytes).check addr length) := by
  have hcheck : (bound bytes).check addr length =
      ((bound bytes).read? addr length).map fun _ => () := by
    rw [check, read?]
    split <;> rfl
  rw [hcheck]
  exact (finds_read? bytes addr length).map fun _ => ()

/-! ## Writes -/

theorem overwritten_overwrite (h : addr.toNat + data.length ≤ bytes.size) :
    Overwritten bytes addr data (overwrite bytes addr.toNat data) :=
  ⟨h, size_overwrite .., fun i => getElem?_overwrite _ _ _ i h⟩

theorem puts_writeBytes {s : State} (hmem : s.memory = .bound bytes) (addr : UInt32)
    (data : List UInt8) : Puts bytes addr data s (Bridge.writeBytes addr data s) where
  accepted hin := ⟨_, Bridge.writeBytes_bound hmem hin, overwritten_overwrite hin⟩
  refused hout := Bridge.writeBytes_out hmem (Nat.not_le.2 hout)

/-! ## Reads after a write -/

namespace Overwritten

/-- Byte by byte, a read finds what was written or what stood there before. -/
theorem getElem?_of_stands {addr' : UInt32} (h : Overwritten bytes addr data bytes')
    (hstands : Stands bytes' addr' found) {i : Nat} (hi : i < found.length) :
    found[i]? =
      if addr.toNat ≤ addr'.toNat + i ∧ addr'.toNat + i < addr.toNat + data.length then
        data[addr'.toNat + i - addr.toNat]?
      else bytes[addr'.toNat + i]? := by
  rw [hstands.getElem? i hi, h.getElem?]

/-- A part of what was written stands where it was written. -/
theorem stands_part {before after : List UInt8}
    (h : Overwritten bytes addr (before ++ (data ++ after)) bytes')
    (hhigh : high.toNat = addr.toNat + before.length) : Stands bytes' high data := by
  have hin := h.inBounds
  rw [List.length_append, List.length_append] at hin
  refine ⟨by rw [hhigh, h.size]; omega, fun i hi => ?_⟩
  have hpart : (before ++ (data ++ after))[addr.toNat + before.length + i - addr.toNat]? =
      data[i]? := by
    rw [Nat.add_assoc, Nat.add_sub_cancel_left, List.getElem?_append_right (by omega),
      Nat.add_sub_cancel_left, List.getElem?_append_left hi]
  rw [hhigh, h.getElem?, if_pos, hpart]
  rw [List.length_append, List.length_append]
  omega

/-- What was written stands where it was written. -/
theorem stands (h : Overwritten bytes addr data bytes') : Stands bytes' addr data := by
  have hwhole : Overwritten bytes addr ([] ++ (data ++ [])) bytes' := by
    rwa [List.nil_append, List.append_nil]
  exact stands_part hwhole rfl

/-- What stood beside what was written stands there still. -/
theorem stands_of_disjoint {addr' : UInt32} (h : Overwritten bytes addr data bytes')
    (hstands : Stands bytes addr' found)
    (hdisjoint : addr.toNat + data.length ≤ addr'.toNat ∨ addr'.toNat + found.length ≤ addr.toNat) :
    Stands bytes' addr' found := by
  refine ⟨by rw [h.size]; exact hstands.inBounds, fun i hi => ?_⟩
  rw [hstands.getElem? i hi, h.getElem?, if_neg (by omega)]

variable (h : Overwritten bytes addr (refBytes r) bytes')

include h

theorem readRef?_self : (bound bytes').readRef? addr = .ok (some r) :=
  h.stands.readRef?

/-- The low word of a reference stands at its address. -/
theorem readWord?_low : (bound bytes').readWord? addr = .ok (some r.low) :=
  h.stands.readWord?_low

/-- The high word of a reference stands after the low one. -/
theorem readWord?_high (hhigh : high.toNat = addr.toNat + 4) :
    ∃ w, (bound bytes').readWord? high = .ok (some w) ∧ w.toNat = r.high := by
  rw [refBytes, show refSize = 4 + 4 from rfl, toLittleEndian_add] at h
  have hlength : (toLittleEndian 4 r.bits.toNat).length = 4 := length_toLittleEndian 4 _
  have hstands : Stands bytes' high (toLittleEndian 4 (r.bits.toNat / 256 ^ 4)) := by
    rw [← List.append_nil (toLittleEndian 4 (_ / _))] at h
    exact stands_part h (hlength ▸ hhigh)
  have hbits : r.bits.toNat < 18446744073709551616 := r.bits.toNat_lt
  have hword : r.bits.toNat / 256 ^ 4 % Ref.wordSize = r.high := by
    simp only [Ref.high, Ref.wordSize]
    omega
  refine ⟨_, hstands.readWord?, ?_⟩
  rw [hword, UInt32.toNat_ofNat_of_lt']
  simp only [Ref.high, Ref.wordSize, UInt32.size]
  omega

end Overwritten

/-! ## All accesses -/

/-- In a bound memory, every read of a word, a number, a reference, a text, or of nothing but the
    bounds, is made of the bytes that stand at the address if they lie in memory, and is refused
    otherwise. None may be past the end, but to read no bytes at the end is to read. A write puts
    the data in the place of as many bytes, or is refused and changes nothing. What is read
    afterwards is what was written where it was written, and what stood there before elsewhere. So a
    reference is read bit for bit, its low word at its address, which is the slot of a boxed one,
    and its high word after it. -/
theorem access_laws (bytes : Array UInt8) (addr : UInt32) :
    let m : Memory := .bound bytes
    (Finds bytes addr 4 (fun found => some (UInt32.ofNat (ofLittleEndian found)))
        (m.readWord? addr) ∧
      Finds bytes addr 8 (fun found => some ⟨UInt64.ofNat (ofLittleEndian found)⟩)
        (m.readNumber? addr) ∧
      Finds bytes addr refSize (fun found => some ⟨UInt64.ofNat (ofLittleEndian found)⟩)
        (m.readRef? addr) ∧
      (∀ length, Finds bytes addr length.toNat Utf8.decode (m.readText addr length)) ∧
      ∀ length, Finds bytes addr length (fun _ => ()) (m.check addr length)) ∧
    (∀ s : State, s.memory = m →
      (∀ data, Puts bytes addr data s (Bridge.writeBytes addr data s)) ∧
      ∀ r, Puts bytes addr (refBytes r) s (Bridge.writeRef addr r s)) ∧
    (∀ data bytes', Overwritten bytes addr data bytes' → ∀ addr' found, Stands bytes' addr' found →
      ∀ i, i < found.length → found[i]? =
        if addr.toNat ≤ addr'.toNat + i ∧ addr'.toNat + i < addr.toNat + data.length then
          data[addr'.toNat + i - addr.toNat]?
        else bytes[addr'.toNat + i]?) ∧
    ∀ r bytes', Overwritten bytes addr (refBytes r) bytes' →
      (bound bytes').readRef? addr = .ok (some r) ∧
      (bound bytes').readWord? addr = .ok (some r.low) ∧
      (∀ slot, r.slot? = some slot → (bound bytes').readWord? addr = .ok (some slot)) ∧
      ∀ high : UInt32, high.toNat = addr.toNat + 4 →
        ∃ w, (bound bytes').readWord? high = .ok (some w) ∧ w.toNat = r.high := by
  intro m
  refine ⟨⟨finds_readWord? bytes addr, finds_readNumber? bytes addr, finds_readRef? bytes addr,
    finds_readText bytes addr, finds_check bytes addr⟩, fun s hs =>
    ⟨puts_writeBytes hs addr, fun r => puts_writeBytes hs addr (refBytes r)⟩,
    fun _ _ h _ _ hstands _ => h.getElem?_of_stands hstands, fun r bytes' h =>
    ⟨h.readRef?_self, h.readWord?_low, fun slot hslot => ?_, fun _ => h.readWord?_high⟩⟩
  -- The slot of a boxed reference is its low word.
  rw [Ref.slot?] at hslot
  split at hslot
  · rw [← Option.some_inj.1 hslot]
    exact h.readWord?_low
  · cases hslot

end Memory

end ValueBridge
