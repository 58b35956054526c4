import ValueBridge.Proofs.Bridge.Safety
import ValueBridge.Proofs.Import.Effect

/-!
# Calls change the heap as they may

A call of an import is safe if the functions of the host are (`Call.safe_perform`): the heap
goes on by changes, and the table holds nothing but what was made. A call writes to a property
only if it sets that property, or runs a function of the host (`Call.MayWrite`).
-/

namespace ValueBridge

namespace Bridge

open ValueBridge.Action

/-- What is read is the text of the bytes. -/
theorem readText_apply (addr length : UInt32) (s : State) :
    ∃ log, readText addr length s = (s.memory.readText addr length, { s with log }) := by
  rw [readText, get_bind]
  cases hbound : s.memory.isBound with
  | true => exact ⟨s.log, rfl⟩
  | false => exact ⟨s.log.push (.readSkipped addr), rfl⟩

end Bridge

namespace Import

open ValueBridge.Action Bridge

variable {s : State} {e : Engine}

theorem has_loadArgsFrom (hs : s.Sound) {argsAddr : UInt32} {taken args : List Value}
    {index : UInt32} {left : Nat} (htaken : ∀ v ∈ taken, s.heap.Has v)
    (h : (loadArgsFrom argsAddr taken index left s).1 = .ok args) : ∀ v ∈ args, s.heap.Has v := by
  induction left generalizing taken index s with
  | zero =>
    cases h
    simpa using htaken
  | succ left ih =>
    rw [loadArgsFrom] at h
    cases haddr : Memory.elementAddress argsAddr index with
    | error fault =>
      rw [lift_bind_of_error haddr] at h
      cases h
    | ok addr =>
      rw [lift_bind_of_ok haddr, bind_apply] at h
      obtain ⟨log, hlog⟩ := reads_loadRef addr s
      have hhas {v : Value} (hv : (loadRef addr s).1 = .ok v) : s.heap.Has v := has_loadRef hs hv
      rcases hload : loadRef addr s with ⟨fault | v, t⟩ <;> rw [hload] at h hlog hhas
      · cases h
      · obtain rfl : t = { s with log } := hlog
        exact ih (s := { s with log }) (hs.log log) (List.forall_mem_cons.2 ⟨hhas rfl, htaken⟩) h

/-- The arguments were made. -/
theorem has_loadArgs (hs : s.Sound) {argsAddr argCount : UInt32} {args : List Value}
    (h : (loadArgs argsAddr argCount s).1 = .ok args) : ∀ v ∈ args, s.heap.Has v :=
  has_loadArgsFrom hs (List.forall_mem_nil _) h

/-! ## Imports -/

variable {W : Value → String → Prop}

theorem safe_valueGet (hs : s.Sound) (out object keyAddr keyLength : UInt32) :
    (valueGet out object keyAddr keyLength).Safe W (fun _ _ => True) s := by
  refine .bind_reads (reads_loadValue object) hs fun target log _ => ?_
  refine .bind_reads (reads_readText keyAddr keyLength) (hs.log _) fun key log _ => ?_
  refine .bind_get (.bind_lift (hs.log _) fun v hget => safe_storeRef (hs.log _) ?_ out)
  exact hs.closed.has_get (of_mapError_ok hget)

/-- The property that is named is all that is written. -/
theorem safe_valueSet (hs : s.Sound) (object keyAddr keyLength valueAddr : UInt32)
    (hW : ∀ target key, s.table.load object = .ok target →
      s.memory.readText keyAddr keyLength = .ok key → W target key) :
    (valueSet object keyAddr keyLength valueAddr).Safe W (fun _ _ => True) s := by
  refine .bind_reads (reads_loadValue object) hs fun target log' htarget => ?_
  refine .bind_reads (reads_readText keyAddr keyLength) (hs.log _) fun key log hkey => ?_
  have hhas {v : Value} (hv : (loadRef valueAddr { s with log }).1 = .ok v) : s.heap.Has v :=
    has_loadRef (hs.log log) hv
  refine .bind_reads (reads_loadRef valueAddr) (hs.log _) fun v _ hv => ?_
  refine .bind_get (.bind_lift (hs.log _) fun (written, heap) hset => ?_)
  obtain ⟨_, htext⟩ := readText_apply keyAddr keyLength { s with log := log' }
  rw [htext] at hkey
  have hwritten : s.heap.Evolves W heap :=
    .of_change (.set (hW target key htarget hkey) (hhas hv) (of_mapError_ok hset))
  have hsound := hs.heap hwritten
  cases written <;> exact ⟨hwritten, hsound.log _, fun _ _ => trivial⟩

theorem safe_valueObjectCreate (hs : s.Sound) (out : UInt32) :
    (valueObjectCreate out).Safe W (fun _ _ => True) s := by
  have hobject : s.heap.Evolves W s.heap.newObject.2 := .of_change (.object none)
  have hhost : (host fun h => (.ok h.newObject.1, h.newObject.2)).Safe W
      (fun id h => h.Has (.object id)) s := by
    refine ⟨hobject, hs.heap hobject, ?_⟩
    rintro _ ⟨⟩
    exact Heap.has_allocObject s.heap .plain
  exact hhost.bind fun id t _ ht hid => safe_storeRef ht hid out

theorem safe_valueStringCreate (hs : s.Sound) (out addr length : UInt32) :
    (valueStringCreate out addr length).Safe W (fun _ _ => True) s :=
  .bind_reads (reads_readText addr length) hs fun text _ _ =>
    safe_storeRef (hs.log _) (v := .string text) trivial out

theorem safe_valueStringCopy (hs : s.Sound) (id addr capacity : UInt32) :
    (valueStringCopy id addr capacity).Safe W (fun _ _ => True) s := by
  rcases valueStringCopy_cases id addr capacity s with ⟨log, h⟩ | ⟨_, _, _, _, _, _, h⟩
  · exact .of_heap_eq (by rw [h]) (h ▸ hs.log log)
  · refine .of_heap_eq (by rw [h]) ?_
    rw [h]
    exact ⟨hs.closed, hs.has⟩

theorem safe_valueNew (he : e.Lawful) (hs : s.Sound) (out constructor argsAddr argCount : UInt32) :
    (valueNew e out constructor argsAddr argCount).Safe Heap.Anywhere (fun _ _ => True) s := by
  refine .bind_reads (reads_loadValue constructor) hs fun f log _ => ?_
  refine .bind_reads (reads_loadArgs argsAddr argCount) (hs.log _) fun args log hargs => ?_
  have hargs := has_loadArgs (hs.log _) hargs
  refine .bind (safe_host (hs.log _) ?_) fun v t _ ht hv => safe_storeRef ht hv out
  unfold Engine.construct
  split
  · exact he _ _ _ _ hs.closed trivial hargs
  · exact Heap.comesTo_error _ _

theorem safe_funcApply (he : e.Lawful) (hs : s.Sound)
    (out function receiverAddr argsAddr argCount : UInt32) :
    (funcApply e out function receiverAddr argsAddr argCount).Safe Heap.Anywhere
      (fun _ _ => True) s := by
  refine .bind_reads (reads_loadValue function) hs fun f log _ => ?_
  refine .bind_reads (reads_loadRef receiverAddr) (hs.log _) fun receiver log hreceiver => ?_
  refine .bind_reads (reads_loadArgs argsAddr argCount) (hs.log _) fun args log hargs => ?_
  have hreceiver := has_loadRef (hs.log _) hreceiver
  have hargs := has_loadArgs (hs.log _) hargs
  refine .bind (safe_host (hs.log _) ?_) fun v t _ ht hv => safe_storeRef ht hv out
  unfold Engine.call
  split
  · exact he _ _ _ _ hs.closed hreceiver hargs
  · exact Heap.comesTo_error _ _

end Import

namespace Call

open ValueBridge.Action Bridge Import

variable {s : State} {e : Engine}

/-- The call may write to the property of the value. -/
def MayWrite (s : State) : Call → Value → String → Prop
  | .valueSet object keyAddr keyLength _, target, key =>
    s.table.load object = .ok target ∧ s.memory.readText keyAddr keyLength = .ok key
  | .valueNew .., _, _ | .funcApply .., _, _ => True
  | _, _, _ => False

/-- A call changes the heap by changes, with writes to the properties to which it may write. -/
theorem safe_perform (he : e.Lawful) (hs : s.Sound) (c : Call) :
    (c.perform e).Safe (c.MayWrite s) (fun _ _ => True) s := by
  cases c with
  | valueGet out object keyAddr keyLength => exact (safe_valueGet hs ..).bind_pure _
  | valueSet object keyAddr keyLength valueAddr =>
    exact (safe_valueSet hs _ _ _ _ fun _ _ htarget hkey => ⟨htarget, hkey⟩).bind_pure _
  | valueDeinit id => exact (safe_releaseValue hs id).bind_pure _
  | valueObjectCreate out => exact (safe_valueObjectCreate hs out).bind_pure _
  | valueStringCreate out addr length => exact (safe_valueStringCreate hs ..).bind_pure _
  | valueStringLen id =>
    exact .bind_pure (P := fun _ _ => True)
      (.of_reads (reads_valueStringLen id) hs fun _ _ => trivial) _
  | valueStringCopy id addr capacity => exact (safe_valueStringCopy hs ..).bind_pure _
  | valueNew out constructor argsAddr argCount => exact (safe_valueNew he hs ..).bind_pure _
  | funcApply out function receiverAddr argsAddr argCount =>
    exact (safe_funcApply he hs ..).bind_pure _

end Call

end ValueBridge
