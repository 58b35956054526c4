import ValueBridge.Proofs.Import.Safety

/-!
# Properties through the bridge

A property is set to what the reference stands for, under the key that the bytes are read as
(`Import.valueSet_of_ok`). To get a property is to deliver its value (`Import.valueGet_apply`),
and does nothing to the heap (`Import.heap_valueGet`). What is delivered is loaded again, and
a delivery into the memory is refused only if all slots are live (`Bridge.storeRef_loads`).
-/

namespace ValueBridge

open ValueBridge.Action

variable {s s' : State} {addr : UInt32} {target v : Value} {key : String}

/-- A reference that is written is read. -/
theorem Memory.readRef?_overwrite {bytes : Array UInt8} (ref : Ref)
    (hin : addr.toNat + refSize ≤ bytes.size) :
    (bound (overwrite bytes addr.toNat (refBytes ref))).readRef? addr = .ok (some ref) := by
  have hlength := length_refBytes ref
  have hread : (bound (overwrite bytes addr.toNat (refBytes ref))).read? addr
      (refBytes ref).length = .ok (some (refBytes ref)) := read?_overwrite (hlength ▸ hin)
  exact readRef?_of_read? (hlength ▸ hread)

namespace Bridge

/-- The value is loaded from the address where it is delivered. -/
theorem storeRef_loads {global runtime : Value} {bytes : Array UInt8} (h : s.table.WellFormed)
    (hsingletons : ∀ x : Singleton, s.table.load x.slot = .ok (x.value global runtime))
    (hmem : s.memory = .bound bytes) (hin : addr.toNat + Memory.refSize ≤ bytes.size) :
    (∃ s', storeRef addr v s = (.ok (), s') ∧ s'.heap = s.heap ∧ s'.memory.isBound = true ∧
        (loadRef addr s').1 = .ok v.received) ∨
      storeRef addr v s = (.error .tableFull, s) ∧ ∀ id, s.table.isLive id = true := by
  cases hstore : s.table.store v with
  | ok stored =>
    obtain ⟨ref, table⟩ := stored
    obtain ⟨log, hstored⟩ := storeRef_of_ok hmem hin hstore
    refine .inl ⟨_, hstored, rfl, rfl, ?_⟩
    have hload := loadRef_apply (s := { s with
      table
      memory := .bound (Memory.overwrite bytes addr.toNat (Memory.refBytes ref))
      log }) (Memory.readRef?_overwrite ref hin) (Table.isSettled_store hstore)
    refine (congrArg Prod.fst hload).trans ?_
    exact Table.standsFor_store h hsingletons hstore
  | error fault =>
    have hs := s.table.step (.store v)
    rw [Table.result, Table.perform, hstore] at hs
    cases himm : Table.immediate? v with
    | some ref =>
      rw [Table.store, himm] at hstore
      cases hstore
    | none =>
      rcases hs.of_store h himm with ⟨hfault, _, hlive⟩ | ⟨_, hr, _⟩
      · cases hfault
        refine .inr ⟨?_, hlive⟩
        rw [storeRef_in hmem hin, bind_of_error (storeValue_of_error hstore)]
      · cases hr

end Bridge

namespace Import

open Bridge

/-- The property of the value of a slot is set to what the reference stands for. -/
theorem valueSet_of_ok {object keyAddr keyLength valueAddr : UInt32}
    (hset : valueSet object keyAddr keyLength valueAddr s = (.ok (), s'))
    (htarget : s.table.load object = .ok target)
    (hkey : s.memory.readText keyAddr keyLength = .ok key) :
    ∃ v written, (loadRef valueAddr s).1 = .ok v ∧
      s.heap.set target key v = .ok (written, s'.heap) := by
  obtain ⟨log, htext⟩ := readText_apply keyAddr keyLength s
  rw [hkey] at htext
  rw [valueSet, bind_of_ok (loadValue_of_ok htarget), bind_of_ok htext, bind_apply] at hset
  have hvalue : (loadRef valueAddr { s with log }).1 = (loadRef valueAddr s).1 := by
    rw [loadRef_fst, loadRef_fst]
  obtain ⟨log', hlog'⟩ := reads_loadRef valueAddr { s with log }
  rcases hload : loadRef valueAddr { s with log } with ⟨fault | v, t⟩ <;>
    rw [hload] at hset hvalue hlog'
  · cases hset
  obtain rfl : t = { s with log := log' } := hlog'
  dsimp only at hset
  rw [get_bind] at hset
  cases hwritten : s.heap.set target key v with
  | error fault =>
    rw [lift_bind_of_error (by rw [hwritten]; rfl)] at hset
    cases hset
  | ok written =>
    obtain ⟨written, heap⟩ := written
    rw [lift_bind_of_ok (by rw [hwritten]; rfl)] at hset
    refine ⟨v, written, hvalue.symm, ?_⟩
    cases written <;> cases hset <;> exact hwritten

/-- To get a property is to deliver its value. -/
theorem valueGet_apply (out : UInt32) {object keyAddr keyLength : UInt32}
    (htarget : s.table.load object = .ok target)
    (hkey : s.memory.readText keyAddr keyLength = .ok key)
    (hget : s.heap.get target key = .ok v) :
    ∃ log, valueGet out object keyAddr keyLength s = storeRef out v { s with log } := by
  obtain ⟨log, htext⟩ := readText_apply keyAddr keyLength s
  rw [hkey] at htext
  refine ⟨log, ?_⟩
  rw [valueGet, bind_of_ok (loadValue_of_ok htarget), bind_of_ok htext, get_bind]
  exact lift_bind_of_ok (by rw [hget]; rfl) _

/-- To get a property does nothing to the heap. -/
theorem heap_valueGet (out object keyAddr keyLength : UInt32) (s : State) :
    (valueGet out object keyAddr keyLength s).2.heap = s.heap := by
  have hframe : Frame fun s s' : State => s'.heap = s.heap :=
    ⟨fun _ _ => rfl, fun h h' => h'.trans h⟩
  have hstore (v : Value) : (storeRef out v).Within fun s s' : State => s'.heap = s.heap := by
    intro s
    rcases storeRef_cases out v s with ⟨_, h⟩ | ⟨_, h⟩ | ⟨_, _, _, _, _, _, _, h⟩ <;> rw [h]
  refine Within.bind hframe (.of_reads hframe (reads_loadValue object)) (fun target => ?_) s
  refine .bind hframe (.of_reads hframe (reads_readText keyAddr keyLength)) fun key => ?_
  exact .bind hframe (.get hframe) fun t => .bind hframe (.lift hframe _) hstore

end Import

end ValueBridge
