import ValueBridge.Proofs.Import.Unbound
import ValueBridge.Proofs.Instance.Run

/-!
# Instances without memory

While no memory is bound, a call that works on the memory leaves the table and the bytes as they
are, and does to the heap what comes of an empty key and of references that stand for undefined
(`Instance.perform_unbound`). If the engine is harmless, all that was there is as it was but for
properties of the empty key.

* `Instance.call_without_memory`: what such a call leaves as it was, and what it does.
* `Instance.get_valueSet_unbound`: setting a property sets that of the empty key to undefined, so
  that it loses what it was (`Instance.empty_key_lost`).
-/

namespace ValueBridge

namespace Instance

variable {i : Instance} {c : Call}

theorem memory_of_not_bound (hbound : i.bound = false) : i.memory = .unbound := by
  rw [memory, hbound, if_neg Bool.false_ne_true]

/-- What a call does without memory: all that is left of it is on the heap. -/
theorem perform_unbound (e : Engine) (hbound : i.bound = false) (hc : needsMemory c = true) :
    ∃ log, (i.perform (c.perform e)).2 =
      { i with heap := c.unboundHeap e i.table i.heap, log } := by
  have hmem : i.state.memory = .unbound := memory_of_not_bound hbound
  have hrelease : ∀ id, c ≠ .valueDeinit id := by
    rintro id rfl
    cases hc
  have hheap := Call.heap_perform_unbound hmem e c
  have hstore := Call.sameStore_perform_unbound hmem e hrelease
  refine ⟨(c.perform e i.state).2.log, ?_⟩
  rw [perform_eq, resume, hheap, hstore.table, hstore.memory, hmem]
  rfl

/-! ## The empty key -/

/-- What a value has under the empty key is lost as a property of it is set. -/
theorem get_valueSet_unbound (e : Engine) {object : UInt32} {target : Value}
    (hbound : i.bound = false) (hload : i.table.load object = .ok target)
    (hhas : i.heap.Has target) (hplain : i.heap.PlainProperty target "")
    (keyAddr keyLength valueAddr : UInt32) :
    (i.perform ((Call.valueSet object keyAddr keyLength valueAddr).perform e)).2.heap.get target ""
      = .ok .undefined := by
  obtain ⟨log, h⟩ :=
    perform_unbound (c := .valueSet object keyAddr keyLength valueAddr) e hbound rfl
  rw [h]
  dsimp only
  rw [Call.unboundHeap, hload]
  exact Heap.get_afterSet hhas hplain .undefined

/-- A call that works on the memory while none is bound leaves the table and the bytes as they
    are. On the heap there is what comes of an empty key and of undefined, and all that was there
    is as it was but for properties of the empty key, if the engine is harmless. -/
theorem call_without_memory (e : Engine) (c : Call) (i : Instance) (hbound : i.bound = false)
    (hc : needsMemory c = true) :
    let i' := (i.perform (c.perform e)).2
    i'.table = i.table ∧ i'.bytes = i.bytes ∧ i'.heap = c.unboundHeap e i.table i.heap ∧
      (e.Harmless → i.heap.KeepsBut "" i'.heap) := by
  obtain ⟨log, h⟩ := perform_unbound e hbound hc
  dsimp only
  rw [h]
  exact ⟨rfl, rfl, rfl, fun he => Call.keepsBut_unboundHeap he c i.table i.heap⟩

/-- A bridge whose global object has a value under the empty key. -/
theorem call_without_memory_valueSet :
    let (r, h) := Realm.create .empty
    let i := create .default r (r.define h "" (.number ⟨0x3ff0000000000000⟩)) #[]
    let c := Call.valueSet Singleton.global.slot 0 0 0
    let i' := (i.perform (c.perform .standard)).2
    i.bound = false ∧ needsMemory c = true ∧ i'.table = i.table ∧ i'.bytes = i.bytes ∧
      i'.heap = c.unboundHeap .standard i.table i.heap ∧ i.heap.KeepsBut "" i'.heap := by
  obtain ⟨htable, hbytes, hheap, hkeeps⟩ := call_without_memory .standard
    (.valueSet Singleton.global.slot 0 0 0)
    (create .default (Realm.create .empty).1 ((Realm.create .empty).1.define (Realm.create .empty).2
      "" (.number ⟨0x3ff0000000000000⟩)) #[]) rfl rfl
  exact ⟨rfl, rfl, htable, hbytes, hheap, hkeeps Engine.harmless_standard⟩

/-- The global object of a fresh bridge loses what it has under the empty key. -/
theorem empty_key_lost :
    let (r, h) := Realm.create .empty
    let i := create .default r (r.define h "" (.number ⟨0x3ff0000000000000⟩)) #[]
    let i' := (i.perform ((Call.valueSet Singleton.global.slot 0 0 0).perform .standard)).2
    i.Reachable ∧ i.bound = false ∧
      i.heap.get (.object r.global) "" = .ok (.number ⟨0x3ff0000000000000⟩) ∧
      i'.heap.get (.object r.global) "" = .ok .undefined := by
  let r := (Realm.create .empty).1
  let i := create .default r
    (r.define (Realm.create .empty).2 "" (.number ⟨0x3ff0000000000000⟩)) #[]
  have hload : i.table.load Singleton.global.slot = .ok (.object r.global) := rfl
  have hhas : i.heap.Has (.object r.global) := by
    change r.global.index < i.heap.objects.size
    decide +kernel
  have hplain : i.heap.PlainProperty (.object r.global) "" := by
    change (i.heap.object r.global).bytes? = none
    decide +kernel
  refine ⟨.create _ _ _ _, rfl, by decide +kernel, ?_⟩
  exact get_valueSet_unbound .standard rfl hload hhas hplain 0 0 0

end Instance

end ValueBridge
