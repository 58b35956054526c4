import ValueBridge.Proofs.Import.Property
import ValueBridge.Proofs.Text.Utf8

/-!
# Texts through the bridge

A guest asks for the length of the text of a slot, and then for a copy of its bytes. The two
calls agree (`Import.Gives`): the length is that of the bytes that are copied, as a whole or not
at all, and a slot without a text is refused by both for one reason (`Import.Withholds`).

A text that the guest makes of well-formed bytes gives it these bytes back, wherever the copy
goes (`Import.texts_run_create`).
-/

namespace ValueBridge

/-- The memory has the data at the address, and is as the other elsewhere. -/
structure Memory.Writes (m : Memory) (addr : UInt32) (data : List UInt8) (m' : Memory) :
    Prop where
  written : m'.read? addr data.length = .ok (some data)
  elsewhere : m.AgreesBut (fun i => addr.toNat ≤ i ∧ i < addr.toNat + data.length) m'

theorem Memory.writes_overwrite {bytes : Array UInt8} {addr : UInt32} {data : List UInt8}
    (h : addr.toNat + data.length ≤ bytes.size) :
    Writes (.bound bytes) addr data (.bound (overwrite bytes addr.toNat data)) where
  written := read?_overwrite h
  elsewhere := agreesBut_overwrite h fun _ hle hlt => ⟨hle, hlt⟩

namespace Import

open ValueBridge.Action Bridge

/-- The text of the slot has these bytes: it has their length, unless that is no word, and they
    are copied if there is room for them all, and none if not. -/
structure Gives (id : UInt32) (data : List UInt8) (s : State) : Prop where
  length : valueStringLen id s =
    (if data.length < Ref.wordSize then .ok data.length else .error (.textTooLong data.length), s)
  /-- A text that exceeds the capacity is skipped. -/
  skipped : ∀ addr capacity, capacity.toNat < data.length →
    ∃ log, valueStringCopy id addr capacity s = (.ok (), { s with log })
  copied : ∀ addr capacity, data.length ≤ capacity.toNat →
    addr.toNat + data.length ≤ s.memory.size →
    ∃ memory, valueStringCopy id addr capacity s = (.ok (), { s with memory }) ∧
      s.memory.Writes addr data memory
  refused : ∀ addr capacity, data.length ≤ capacity.toNat →
    s.memory.size < addr.toNat + data.length →
    valueStringCopy id addr capacity s =
      (.error (.outOfBounds addr data.length s.memory.size), s)

/-- The slot has no text, and both calls say why. -/
structure Withholds (id : UInt32) (fault : BridgeFault) (s : State) : Prop where
  length : valueStringLen id s = (.error fault, s)
  copy : ∀ addr capacity, valueStringCopy id addr capacity s = (.error fault, s)

variable {s : State} {id : UInt32} {bytes : Array UInt8} {text : String} {fault : BridgeFault}

/-! ## One text -/

/-- The text of the slot is looked for first. -/
theorem valueStringCopy_bound (hmem : s.memory = .bound bytes) (id addr capacity : UInt32) :
    valueStringCopy id addr capacity s = (slotText id >>= fun text =>
      let data := Utf8.encode text
      if capacity.toNat < data.length then report (.copySkipped id data.length capacity)
      else writeBytes addr data) s := by
  have hbound : s.memory.isBound = true := by rw [hmem]; rfl
  rw [valueStringCopy, get_bind]
  simp only [hbound, if_true]

theorem gives_of_slotText (hmem : s.memory = .bound bytes) (htext : s.slotText id = .ok text) :
    Gives id (Utf8.encode text) s := by
  have hslot : slotText id s = (.ok text, s) := (slotText_apply id s).trans (by rw [htext])
  have hsize : s.memory.size = bytes.size := by rw [hmem]; rfl
  refine ⟨?_, fun addr capacity hcapacity => ?_, fun addr capacity hcapacity hin => ?_,
    fun addr capacity hcapacity hout => ?_⟩
  · rw [valueStringLen, bind_of_ok hslot]
    split <;> rfl
  · refine ⟨s.log.push (.copySkipped id (Utf8.encode text).length capacity), ?_⟩
    rw [valueStringCopy_bound hmem, bind_of_ok hslot, if_pos hcapacity]
    rfl
  · rw [hsize] at hin
    refine ⟨_, ?_, hmem ▸ Memory.writes_overwrite hin⟩
    rw [valueStringCopy_bound hmem, bind_of_ok hslot, if_neg (Nat.not_lt.2 hcapacity)]
    exact writeBytes_bound hmem hin
  · rw [hsize] at hout
    rw [valueStringCopy_bound hmem, bind_of_ok hslot, if_neg (Nat.not_lt.2 hcapacity), hsize]
    exact writeBytes_out hmem (Nat.not_le.2 hout)

theorem withholds_of_slotText (hmem : s.memory = .bound bytes)
    (hfault : s.slotText id = .error fault) : Withholds id fault s := by
  have hslot : slotText id s = (.error fault, s) := (slotText_apply id s).trans (by rw [hfault])
  refine ⟨?_, fun addr capacity => ?_⟩
  · rw [valueStringLen, bind_of_error hslot]
  · rw [valueStringCopy_bound hmem, bind_of_error hslot]

/-! ## All values -/

/-- Only a symbol has no text. -/
theorem hostText_cases (h : Heap) (v : Value) :
    (∃ text, h.hostText v = .ok text) ∨
      (∃ symbol, v = .symbol symbol) ∧ h.hostText v = .error .symbolToString := by
  cases v with
  | symbol symbol => exact .inr ⟨⟨symbol, rfl⟩, rfl⟩
  | _ => exact .inl ⟨_, rfl⟩

theorem slotText_of_load {v : Value} (hload : s.table.load id = .ok v) :
    s.slotText id = (s.heap.hostText v).mapError .host := by
  rw [State.slotText, hload]
  rfl

/-! ## Making texts -/

/-- A text is delivered as it was read. -/
theorem valueStringCreate_of_ok {out addr length : UInt32} {s' : State}
    (hread : s.memory.read? addr length.toNat = .ok (some (Utf8.encode text)))
    (hcreate : valueStringCreate out addr length s = (.ok (), s')) :
    ∃ log, storeRef out (.string text) { s with log } = (.ok (), s') := by
  obtain ⟨log, h⟩ := readText_apply addr length s
  rw [Memory.readText_of_read? hread] at h
  rw [valueStringCreate, bind_of_ok h] at hcreate
  exact ⟨log, hcreate⟩

/-- The slot of a text that is delivered holds it. -/
theorem storeRef_string_of_ok {out : UInt32} {s' : State} (h : s.table.WellFormed)
    (hmem : s.memory = .bound bytes) (hstore : storeRef out (.string text) s = (.ok (), s')) :
    ∃ id bytes', s'.memory = .bound bytes' ∧ bytes'.size = bytes.size ∧
      s'.memory.readRef? out = .ok (some (.boxed id .string)) ∧
      s'.table.load id = .ok (.string text) := by
  rcases storeRef_cases out (.string text) s with ⟨hnone, _⟩ | ⟨fault, hfault⟩ |
    ⟨bytes', ref, table, log, hmem', hin, hstored, hs'⟩
  · rw [hmem] at hnone
    cases hnone
  · rw [hstore] at hfault
    cases hfault
  · rw [hmem] at hmem'
    cases hmem'
    rw [hstore] at hs'
    obtain rfl := congrArg Prod.snd hs'
    rcases (Table.step_of_store hstored).of_store h rfl with ⟨hfailed, _⟩ |
      ⟨id, hboxed, _, _, hload⟩
    · cases hfailed
    · cases hboxed
      exact ⟨id, _, rfl, Memory.size_overwrite .., Memory.readRef?_overwrite _ hin, hload⟩

/-- With a table after any operations, and a bound memory: if a text is made of well-formed bytes,
    its slot has their number for a length, and gives a copy of them. Every live slot gives the
    text of its value, unless it holds a symbol; then it has none, and no more has a slot that is
    not live. -/
theorem texts_run_create (global runtime : Value) (ops : List Table.Op) (heap : Heap)
    (bytes : Array UInt8) (log : Array Event) :
    let s : State := ⟨heap, (Table.create global runtime).run ops, .bound bytes, log⟩
    (∀ out addr length text s', valueStringCreate out addr length s = (.ok (), s') →
      s.memory.read? addr length.toNat = .ok (some (Utf8.encode text)) →
      ∃ id, s'.memory.readRef? out = .ok (some (.boxed id .string)) ∧
        s'.table.load id = .ok (.string text) ∧ s'.memory.size = bytes.size ∧
        (valueStringLen id s').1 = .ok length.toNat ∧ Gives id (Utf8.encode text) s') ∧
    (∀ id v, s.table.load id = .ok v → (∀ symbol, v ≠ .symbol symbol) →
      ∃ text, heap.hostText v = .ok text ∧ Gives id (Utf8.encode text) s) ∧
    (∀ id symbol, s.table.load id = .ok (.symbol symbol) →
      Withholds id (.host .symbolToString) s) ∧
    ∀ id, s.table.isLive id = false →
      ∃ fault, s.table.load id = .error fault ∧ Withholds id fault s := by
  intro s
  have hmem : s.memory = .bound bytes := rfl
  refine ⟨fun out addr length text s' hcreate hread => ?_, fun id v hload hsymbol => ?_,
    fun id symbol hload => ?_, fun id hdead => ?_⟩
  · obtain ⟨log', hstore⟩ := valueStringCreate_of_ok hread hcreate
    obtain ⟨id, bytes', hmem', hsize, href, hload⟩ :=
      storeRef_string_of_ok (s := { s with log := log' }) (.run_create global runtime ops) hmem
        hstore
    have hgives := gives_of_slotText hmem' (slotText_of_load hload)
    have hlength : (Utf8.encode text).length = length.toNat := (Memory.read?_bound.1 hread).2.1
    have hword : (Utf8.encode text).length < Ref.wordSize := hlength ▸ length.toNat_lt
    refine ⟨id, href, hload, by rw [hmem']; exact hsize, ?_, hgives⟩
    rw [hgives.length, if_pos hword, hlength]
  · rcases hostText_cases heap v with ⟨text, htext⟩ | ⟨⟨symbol, rfl⟩, _⟩
    · refine ⟨text, htext, gives_of_slotText hmem ((slotText_of_load hload).trans ?_)⟩
      exact congrArg (Except.mapError BridgeFault.host) htext
    · exact absurd rfl (hsymbol symbol)
  · exact withholds_of_slotText hmem (slotText_of_load hload)
  · cases hload : s.table.load id with
    | ok v =>
      rw [Table.isLive_of_load hload] at hdead
      cases hdead
    | error fault =>
      refine ⟨fault, rfl, withholds_of_slotText hmem ?_⟩
      rw [State.slotText, hload]
      rfl

end Import

end ValueBridge
