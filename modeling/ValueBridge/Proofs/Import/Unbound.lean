import ValueBridge.Proofs.Engine.Harmless
import ValueBridge.Proofs.Import.Property

/-!
# Imports without memory

While no memory is bound, a key is the empty text and a reference stands for undefined, and no
value is delivered. A call that works on the memory then leaves the table as it is
(`Call.sameStore_perform_unbound`), but what it asks of the host happens all the same
(`Call.heap_perform_unbound`): a property is set, an object is made, a function runs.

If the functions of the host are harmless, all that was there is as it was, but for properties of
the empty key (`Call.keepsBut_unboundHeap`).
-/

namespace ValueBridge

open ValueBridge.Action

/-! ## What is read -/

namespace Bridge

variable {s : State}

theorem readText_unbound (addr length : UInt32) (hmem : s.memory = .unbound) :
    ∃ log, readText addr length s = (.ok "", { s with log }) := by
  obtain ⟨log, h⟩ := readText_apply addr length s
  exact ⟨log, h.trans (by rw [hmem]; rfl)⟩

theorem loadRef_unbound (addr : UInt32) (hmem : s.memory = .unbound) :
    loadRef addr s = (.ok .undefined, s) := by
  have hread : readRef? addr s = (.ok none, s) := by
    rw [readRef?, get_bind, lift_bind_of_ok (by rw [hmem]; rfl)]
    rfl
  rw [loadRef, bind_of_ok hread]
  rfl

end Bridge

namespace Import

open Bridge

/-- The address of every argument is a word. -/
def ArgsFit (argsAddr argCount : UInt32) : Prop :=
  argsAddr.toNat + Memory.refSize * argCount.toNat < Ref.wordSize + Memory.refSize

instance (argsAddr argCount : UInt32) : Decidable (ArgsFit argsAddr argCount) :=
  inferInstanceAs (Decidable (_ < _))

/-- The arguments that are found without memory. -/
def undefinedArgs (argCount : UInt32) : List Value :=
  List.replicate argCount.toNat .undefined

variable {s : State} {argsAddr argCount index : UInt32} {taken : List Value} {left : Nat}

/-- An argument whose address is a word is taken to be undefined. -/
theorem loadArgsFrom_succ_unbound (hmem : s.memory = .unbound)
    (hword : argsAddr.toNat + Memory.refSize * index.toNat < Ref.wordSize) :
    loadArgsFrom argsAddr taken index (left + 1) s =
      loadArgsFrom argsAddr (.undefined :: taken) (index + 1) left s := by
  have haddr : Memory.elementAddress argsAddr index =
      .ok (UInt32.ofNat (argsAddr.toNat + Memory.refSize * index.toNat)) := if_pos hword
  rw [loadArgsFrom, lift_bind_of_ok haddr, bind_of_ok (loadRef_unbound _ hmem)]

theorem loadArgsFrom_unbound (hmem : s.memory = .unbound)
    (hindex : index.toNat + left < Ref.wordSize)
    (hfit : argsAddr.toNat + Memory.refSize * (index.toNat + left) <
      Ref.wordSize + Memory.refSize) :
    loadArgsFrom argsAddr taken index left s =
      (.ok (taken.reverse ++ List.replicate left .undefined), s) := by
  induction left generalizing taken index with
  | zero =>
    rw [List.replicate_zero, List.append_nil]
    rfl
  | succ left ih =>
    have hword : argsAddr.toNat + Memory.refSize * index.toNat < Ref.wordSize := by
      rw [Memory.refSize] at hfit ⊢
      omega
    have hlast := toNat_succ_add hindex
    rw [loadArgsFrom_succ_unbound hmem hword, ih (by rwa [hlast]) (by rwa [hlast]),
      List.reverse_cons, List.append_assoc, List.replicate_succ]
    rfl

/-- If the last address is no word, the first one that is none is the fault. -/
theorem loadArgsFrom_unbound_of_not_fit (hmem : s.memory = .unbound)
    (hindex : index.toNat + left < Ref.wordSize) (hleft : 0 < left)
    (hfit : ¬argsAddr.toNat + Memory.refSize * (index.toNat + left) <
      Ref.wordSize + Memory.refSize) :
    ∃ fault, loadArgsFrom argsAddr taken index left s = (.error fault, s) := by
  induction left generalizing taken index with
  | zero => cases hleft
  | succ left ih =>
    by_cases hword : argsAddr.toNat + Memory.refSize * index.toNat < Ref.wordSize
    · have hlast := toNat_succ_add hindex
      rw [loadArgsFrom_succ_unbound hmem hword]
      refine ih (by rwa [hlast]) ?_ (by rwa [hlast])
      rw [Memory.refSize] at hfit hword
      omega
    · rw [loadArgsFrom]
      exact ⟨_, lift_bind_of_error (if_neg hword) s⟩

theorem loadArgs_unbound (hmem : s.memory = .unbound) (hfit : ArgsFit argsAddr argCount) :
    loadArgs argsAddr argCount s = (.ok (undefinedArgs argCount), s) := by
  have hzero : (0 : UInt32).toNat + argCount.toNat = argCount.toNat := Nat.zero_add _
  refine loadArgsFrom_unbound hmem ?_ ?_ <;> rw [hzero]
  · exact argCount.toNat_lt
  · exact hfit

theorem loadArgs_unbound_of_not_fit (hmem : s.memory = .unbound)
    (hfit : ¬ArgsFit argsAddr argCount) :
    ∃ fault, loadArgs argsAddr argCount s = (.error fault, s) := by
  have hzero : (0 : UInt32).toNat + argCount.toNat = argCount.toNat := Nat.zero_add _
  have hcount : 0 < argCount.toNat := by
    have haddr := argsAddr.toNat_lt
    rw [ArgsFit, Memory.refSize, Ref.wordSize] at hfit
    omega
  refine loadArgsFrom_unbound_of_not_fit hmem ?_ hcount ?_ <;> rw [hzero]
  · exact argCount.toNat_lt
  · exact hfit

end Import

/-! ## What happens on the heap -/

open Import in
/-- The heap after a call that finds no memory. -/
def Call.unboundHeap (e : Engine) (t : Table) (h : Heap) : Call → Heap
  | .valueSet object _ _ _ =>
    match t.load object with
    | .ok target => h.afterSet target "" .undefined
    | .error _ => h
  | .valueObjectCreate _ => h.newObject.2
  | .valueNew _ constructor argsAddr argCount =>
    match t.load constructor with
    | .ok f =>
      if ArgsFit argsAddr argCount then (e.construct f (undefinedArgs argCount) h).2 else h
    | .error _ => h
  | .funcApply _ function _ argsAddr argCount =>
    match t.load function with
    | .ok f =>
      if ArgsFit argsAddr argCount then (e.call f .undefined (undefinedArgs argCount) h).2 else h
    | .error _ => h
  | .valueGet .. | .valueDeinit _ | .valueStringCreate .. | .valueStringLen _
  | .valueStringCopy .. => h

namespace Import

open Bridge

variable {s : State} {e : Engine}

theorem heap_valueSet_unbound (hmem : s.memory = .unbound)
    (object keyAddr keyLength valueAddr : UInt32) :
    (valueSet object keyAddr keyLength valueAddr s).2.heap =
      (Call.valueSet object keyAddr keyLength valueAddr).unboundHeap e s.table s.heap := by
  rw [valueSet, Call.unboundHeap]
  cases htarget : s.table.load object with
  | error fault => rw [bind_of_error (loadValue_of_error htarget)]
  | ok target =>
    obtain ⟨log, hkey⟩ := readText_unbound keyAddr keyLength hmem
    have hvalue := loadRef_unbound valueAddr (s := { s with log }) hmem
    rw [bind_of_ok (loadValue_of_ok htarget), bind_of_ok hkey, bind_of_ok hvalue, get_bind]
    dsimp only [Heap.afterSet]
    rcases s.heap.set target "" .undefined with fault | ⟨_ | _, heap⟩ <;> rfl

theorem heap_valueStringCreate_unbound (hmem : s.memory = .unbound) (out addr length : UInt32) :
    (valueStringCreate out addr length s).2.heap = s.heap := by
  obtain ⟨log, htext⟩ := readText_unbound addr length hmem
  rw [valueStringCreate, bind_of_ok htext, storeRef_unbound (s := { s with log }) hmem]

theorem heap_valueStringCopy_unbound (hmem : s.memory = .unbound) (id addr capacity : UInt32) :
    (valueStringCopy id addr capacity s).2.heap = s.heap := by
  rcases valueStringCopy_cases id addr capacity s with ⟨log, h⟩ | ⟨_, _, _, hbound, _⟩
  · rw [h]
  · rw [hmem] at hbound
    cases hbound

/-- What the host does is all that happens, as the value that comes of it is not delivered. -/
theorem heap_host_unbound {α : Type} (hmem : s.memory = .unbound) (out : UInt32)
    (op : Heap → Outcome α) (value : α → Value) :
    ((host op >>= fun a => storeRef out (value a)) s).2.heap = (op s.heap).2 := by
  rw [bind_apply]
  rcases hop : op s.heap with ⟨fault | a, heap⟩
  · simp only [host, hop, Except.mapError]
  · simp only [host, hop, Except.mapError]
    rw [storeRef_unbound (s := { s with heap }) hmem]

theorem heap_valueObjectCreate_unbound (hmem : s.memory = .unbound) (out : UInt32) :
    (valueObjectCreate out s).2.heap = s.heap.newObject.2 :=
  heap_host_unbound hmem out _ .object

/-- The host is given undefined for every argument, unless these are refused. -/
theorem heap_loadArgs_unbound (hmem : s.memory = .unbound) (out argsAddr argCount : UInt32)
    (op : List Value → Heap → Outcome Value) :
    ((loadArgs argsAddr argCount >>= fun args => host (op args) >>= storeRef out) s).2.heap =
      if ArgsFit argsAddr argCount then (op (undefinedArgs argCount) s.heap).2 else s.heap := by
  by_cases hfit : ArgsFit argsAddr argCount
  · rw [if_pos hfit, bind_of_ok (loadArgs_unbound hmem hfit)]
    exact heap_host_unbound hmem out _ id
  · obtain ⟨fault, h⟩ := loadArgs_unbound_of_not_fit hmem hfit
    rw [if_neg hfit, bind_of_error h]

theorem heap_valueNew_unbound (hmem : s.memory = .unbound)
    (out constructor argsAddr argCount : UInt32) :
    (valueNew e out constructor argsAddr argCount s).2.heap =
      (Call.valueNew out constructor argsAddr argCount).unboundHeap e s.table s.heap := by
  rw [valueNew, Call.unboundHeap]
  cases hload : s.table.load constructor with
  | error fault => rw [bind_of_error (loadValue_of_error hload)]
  | ok f =>
    rw [bind_of_ok (loadValue_of_ok hload)]
    exact heap_loadArgs_unbound hmem out argsAddr argCount (e.construct f)

theorem heap_funcApply_unbound (hmem : s.memory = .unbound)
    (out function receiverAddr argsAddr argCount : UInt32) :
    (funcApply e out function receiverAddr argsAddr argCount s).2.heap =
      (Call.funcApply out function receiverAddr argsAddr argCount).unboundHeap e s.table
        s.heap := by
  rw [funcApply, Call.unboundHeap]
  cases hload : s.table.load function with
  | error fault => rw [bind_of_error (loadValue_of_error hload)]
  | ok f =>
    rw [bind_of_ok (loadValue_of_ok hload), bind_of_ok (loadRef_unbound receiverAddr hmem)]
    exact heap_loadArgs_unbound hmem out argsAddr argCount (e.call f .undefined)

end Import

namespace Call

open Bridge Import

variable {s : State} {e : Engine}

theorem heap_perform_unbound (hmem : s.memory = .unbound) (e : Engine) (c : Call) :
    (c.perform e s).2.heap = c.unboundHeap e s.table s.heap := by
  -- What is made of the result of an import leaves the heap alone.
  have hanswer {α : Type} (x : Action α) (answer : α → Answer) :
      ((x >>= fun a => pure (answer a)) s).2.heap = (x s).2.heap := by
    rw [bind_apply]
    rcases x s with ⟨_ | _, _⟩ <;> rfl
  cases c with
  | valueGet out object keyAddr keyLength =>
    exact (hanswer _ _).trans (heap_valueGet out object keyAddr keyLength s)
  | valueSet object keyAddr keyLength valueAddr =>
    exact (hanswer _ _).trans (heap_valueSet_unbound hmem object keyAddr keyLength valueAddr)
  | valueDeinit id =>
    obtain ⟨log, hrelease⟩ := Bridge.releaseValue_apply id s
    refine (hanswer _ _).trans ?_
    rw [hrelease]
    rfl
  | valueObjectCreate out =>
    exact (hanswer _ _).trans (heap_valueObjectCreate_unbound hmem out)
  | valueStringCreate out addr length =>
    exact (hanswer _ _).trans (heap_valueStringCreate_unbound hmem out addr length)
  | valueStringLen id =>
    obtain ⟨log, h⟩ := reads_valueStringLen id s
    refine (hanswer _ _).trans ?_
    rw [h]
    rfl
  | valueStringCopy id addr capacity =>
    exact (hanswer _ _).trans (heap_valueStringCopy_unbound hmem id addr capacity)
  | valueNew out constructor argsAddr argCount =>
    exact (hanswer _ _).trans (heap_valueNew_unbound hmem out constructor argsAddr argCount)
  | funcApply out function receiverAddr argsAddr argCount =>
    exact (hanswer _ _).trans
      (heap_funcApply_unbound hmem out function receiverAddr argsAddr argCount)

/-- No value is delivered and no text copied, so that a slot can only be released. -/
theorem sameStore_perform_unbound (hmem : s.memory = .unbound) (e : Engine) {c : Call}
    (hc : ∀ id, c ≠ .valueDeinit id) : s.SameStore (c.perform e s).2 := by
  have heffect := effect_perform e c s
  generalize c.perform e s = outcome at heffect ⊢
  obtain ⟨r, s'⟩ := outcome
  cases heffect with
  | quiet hsame => exact hsame
  | delivered _ hdelivery =>
    cases hdelivery with
    | lost _ hsame => exact hsame
    | written hbound =>
      rw [hmem] at hbound
      cases hbound
  | copied _ hbound =>
    rw [hmem] at hbound
    cases hbound
  | released => exact absurd rfl (hc _)

/-! ## What is left as it was -/

variable {c : Call}

/-- Unless a property is set, everything is as it was. -/
theorem keeps_unboundHeap (he : e.Harmless)
    (hset : ∀ object keyAddr keyLength valueAddr, c ≠ .valueSet object keyAddr keyLength valueAddr)
    (t : Table) (h : Heap) : h.Keeps (c.unboundHeap e t h) := by
  cases c with
  | valueSet object keyAddr keyLength valueAddr => exact absurd rfl (hset _ _ _ _)
  | valueObjectCreate out => exact .allocObject h .plain
  | valueNew out constructor argsAddr argCount =>
    rw [unboundHeap]
    split
    · split
      · exact he.keeps_construct _ _ h
      · exact .refl h
    · exact .refl h
  | funcApply out function receiverAddr argsAddr argCount =>
    rw [unboundHeap]
    split
    · split
      · exact he.keeps_call _ _ h
      · exact .refl h
    · exact .refl h
  | _ => exact .refl h

/-- Everything is as it was but for properties of the empty key. -/
theorem keepsBut_unboundHeap (he : e.Harmless) (c : Call) (t : Table) (h : Heap) :
    h.KeepsBut "" (c.unboundHeap e t h) := by
  cases c with
  | valueSet object keyAddr keyLength valueAddr =>
    rw [unboundHeap]
    split
    · exact Heap.keepsBut_afterSet (by decide) h _ _
    · exact .refl "" h
  | _ => exact (keeps_unboundHeap he (by rintro _ _ _ _ ⟨⟩) t h).keepsBut ""

end Call

end ValueBridge
