import ValueBridge.Proofs.Import.Arguments
import ValueBridge.Proofs.Import.Unbound
import ValueBridge.Proofs.Instance.Run

/-!
# Bounds without memory

While no memory is bound, nothing that is read or written has bounds, at whatever address
(`Action.Boundless`). What has bounds all the same are the addresses of arguments, each of which
has to be a word: a call with arguments ends out of bounds of a memory that is not there if one of
them is none (`Call.OverflowsAt`), and no call does otherwise
(`Instance.out_of_bounds_without_memory`).
-/

namespace ValueBridge

/-- The result is not that something is out of bounds. -/
def InBounds {α : Type} (result : Except BridgeFault α) : Prop :=
  ∀ addr length size, result ≠ .error (.outOfBounds addr length size)

section InBounds

variable {α β : Type}

theorem inBounds_ok (a : α) : InBounds (.ok a) :=
  nofun

theorem InBounds.bind {result : Except BridgeFault α} {f : α → Except BridgeFault β}
    (h : InBounds result) (hf : ∀ a, InBounds (f a)) : InBounds (result >>= f) := by
  rcases result with fault | a
  · rintro addr length size ⟨⟩
    exact h addr length size rfl
  · exact hf a

theorem inBounds_mapError_host (result : Except Fault α) : InBounds (result.mapError .host) := by
  rcases result with fault | a <;> exact nofun

theorem inBounds_load (t : Table) (id : UInt32) : InBounds (t.load id) :=
  t.load_ne_outOfBounds id

theorem inBounds_slotText (s : State) (id : UInt32) : InBounds (s.slotText id) :=
  .bind (inBounds_load s.table id) fun v => inBounds_mapError_host (s.heap.hostText v)

end InBounds

/-! ## Actions without bounds -/

namespace Action

variable {α β : Type} {s s' : State} {x : Action α} {f : α → Action β}

/-- From the state, the action does not end out of bounds, and leaves no memory bound. -/
structure Boundless (x : Action α) (s : State) : Prop where
  inBounds : InBounds (x s).1
  memory : (x s).2.memory = .unbound

namespace Boundless

theorem of_eq {result : Except BridgeFault α} (h : x s = (result, s')) (hresult : InBounds result)
    (hmem : s'.memory = .unbound) : x.Boundless s := by
  refine ⟨?_, ?_⟩ <;> rw [h]
  · exact hresult
  · exact hmem

theorem pure (hmem : s.memory = .unbound) (a : α) : (Pure.pure a : Action α).Boundless s :=
  ⟨inBounds_ok a, hmem⟩

theorem lift (hmem : s.memory = .unbound) {result : Except BridgeFault α}
    (hresult : InBounds result) : (Action.lift result).Boundless s :=
  ⟨hresult, hmem⟩

theorem host (hmem : s.memory = .unbound) (op : Heap → Outcome α) :
    (Action.host op).Boundless s :=
  ⟨inBounds_mapError_host _, hmem⟩

theorem bind (hx : x.Boundless s)
    (hf : ∀ a s', s'.memory = .unbound → (f a).Boundless s') : (x >>= f).Boundless s := by
  obtain ⟨hbounds, hmem⟩ := hx
  rcases hxs : x s with ⟨fault | a, s'⟩ <;> rw [hxs] at hbounds hmem
  · refine .of_eq (bind_of_error hxs) ?_ hmem
    rintro _ _ _ ⟨⟩
    exact hbounds _ _ _ rfl
  · obtain ⟨hresult, hmem'⟩ := hf a s' hmem
    exact .of_eq (bind_of_ok hxs) hresult hmem'

theorem bind_pure (hx : x.Boundless s) (g : α → β) :
    (x >>= fun a => Pure.pure (g a)).Boundless s :=
  .bind hx fun _ _ hmem => .pure hmem _

theorem get_bind {f : State → Action β} (h : (f s).Boundless s) :
    (MonadState.get >>= f).Boundless s :=
  .of_eq (Action.get_bind f s) h.inBounds h.memory

end Boundless

/-- What is made of the result is not a fault. -/
theorem bind_pure_eq_error_iff {g : α → β} {fault : BridgeFault} :
    ((x >>= fun a => pure (g a)) s).1 = .error fault ↔ (x s).1 = .error fault := by
  rw [bind_apply]
  rcases x s with ⟨fault' | a, s'⟩
  · exact ⟨fun h => by cases h; rfl, fun h => by cases h; rfl⟩
  · exact iff_of_false nofun nofun

end Action

namespace Bridge

open ValueBridge.Action

variable {s : State}

theorem boundless_loadValue (hmem : s.memory = .unbound) (id : UInt32) :
    (loadValue id).Boundless s :=
  .get_bind (.lift hmem (inBounds_load s.table id))

theorem boundless_releaseValue (hmem : s.memory = .unbound) (id : UInt32) :
    (releaseValue id).Boundless s := by
  obtain ⟨log, h⟩ := releaseValue_apply id s
  exact .of_eq h (inBounds_ok _) hmem

theorem boundless_readText (hmem : s.memory = .unbound) (addr length : UInt32) :
    (readText addr length).Boundless s := by
  obtain ⟨log, h⟩ := readText_unbound addr length hmem
  exact .of_eq h (inBounds_ok "") hmem

theorem boundless_loadRef (hmem : s.memory = .unbound) (addr : UInt32) :
    (loadRef addr).Boundless s :=
  .of_eq (loadRef_unbound addr hmem) (inBounds_ok _) hmem

theorem boundless_storeRef (hmem : s.memory = .unbound) (addr : UInt32) (v : Value) :
    (storeRef addr v).Boundless s :=
  .of_eq (storeRef_unbound hmem) (inBounds_ok ()) hmem

end Bridge

namespace Import

open ValueBridge.Action Bridge

variable {s : State}

/-! ## Imports without arguments -/

theorem boundless_slotText (hmem : s.memory = .unbound) (id : UInt32) :
    (slotText id).Boundless s :=
  .of_eq (slotText_apply id s) (inBounds_slotText s id) hmem

theorem boundless_valueGet (hmem : s.memory = .unbound) (out object keyAddr keyLength : UInt32) :
    (valueGet out object keyAddr keyLength).Boundless s := by
  refine .bind (boundless_loadValue hmem object) fun target s hmem => ?_
  refine .bind (boundless_readText hmem keyAddr keyLength) fun key s hmem => .get_bind ?_
  refine .bind (.lift hmem (inBounds_mapError_host _)) fun v s hmem => ?_
  exact boundless_storeRef hmem out v

theorem boundless_valueSet (hmem : s.memory = .unbound)
    (object keyAddr keyLength valueAddr : UInt32) :
    (valueSet object keyAddr keyLength valueAddr).Boundless s := by
  refine .bind (boundless_loadValue hmem object) fun target s hmem => ?_
  refine .bind (boundless_readText hmem keyAddr keyLength) fun key s hmem => ?_
  refine .bind (boundless_loadRef hmem valueAddr) fun v s hmem => .get_bind ?_
  refine .bind (.lift hmem (inBounds_mapError_host _)) fun (written, heap) s hmem => ?_
  cases written <;> exact ⟨inBounds_ok (), hmem⟩

theorem boundless_valueObjectCreate (hmem : s.memory = .unbound) (out : UInt32) :
    (valueObjectCreate out).Boundless s :=
  .bind (.host hmem _) fun id _ hmem => boundless_storeRef hmem out (.object id)

theorem boundless_valueStringCreate (hmem : s.memory = .unbound) (out addr length : UInt32) :
    (valueStringCreate out addr length).Boundless s :=
  .bind (boundless_readText hmem addr length) fun text _ hmem =>
    boundless_storeRef hmem out (.string text)

theorem boundless_valueStringLen (hmem : s.memory = .unbound) (id : UInt32) :
    (valueStringLen id).Boundless s := by
  refine .bind (boundless_slotText hmem id) fun text s hmem => ?_
  dsimp only
  split
  · exact .pure hmem _
  · exact .lift hmem nofun

theorem boundless_valueStringCopy (hmem : s.memory = .unbound) (id addr capacity : UInt32) :
    (valueStringCopy id addr capacity).Boundless s := by
  refine .get_bind ?_
  rw [hmem]
  exact .pure hmem ()

/-! ## Imports with arguments -/

variable {argsAddr argCount : UInt32} {i : Nat}

/-- Of so many arguments at the address, this one is the first whose own address is no word. -/
structure OverflowsAt (argsAddr argCount : UInt32) (i : Nat) : Prop where
  lt : i < argCount.toNat
  wordSize_le : Ref.wordSize ≤ argsAddr.toNat + Memory.refSize * i
  before : ∀ j, j < i → argsAddr.toNat + Memory.refSize * j < Ref.wordSize

theorem argument_unbound (hmem : s.memory = .unbound) (argsAddr : UInt32) (i : Nat) :
    argument argsAddr s i =
      if argsAddr.toNat + Memory.refSize * i < Ref.wordSize then .ok .undefined
      else .error (.outOfBounds argsAddr ((i + 1) * Memory.refSize) 0) := by
  rw [argument, loadRef_unbound _ hmem]

/-- Arguments are undefined as long as their addresses are words. -/
theorem loadArgs_eq_error_iff_of_unbound (hmem : s.memory = .unbound) (fault : BridgeFault) :
    (loadArgs argsAddr argCount s).1 = .error fault ↔
      ∃ i, OverflowsAt argsAddr argCount i ∧
        fault = .outOfBounds argsAddr ((i + 1) * Memory.refSize) 0 := by
  rw [(gathers_loadArgs argsAddr argCount s).error_iff]
  simp only [argument_unbound hmem]
  constructor
  · rintro ⟨i, hlt, hfault, hbefore⟩
    split at hfault
    · cases hfault
    · next hword =>
      cases hfault
      refine ⟨i, ⟨hlt, Nat.not_lt.1 hword, fun j hj => ?_⟩, rfl⟩
      obtain ⟨v, hv⟩ := hbefore j hj
      split at hv
      · assumption
      · cases hv
  · rintro ⟨i, hover, rfl⟩
    exact ⟨i, hover.lt, if_neg (Nat.not_lt.2 hover.wordSize_le),
      fun j hj => ⟨_, if_pos (hover.before j hj)⟩⟩

/-- What takes arguments, and then has no bounds, is out of bounds as its arguments are. -/
theorem TakesArgs.eq_outOfBounds_iff {x : Action Unit} {next : List Value → Action Unit}
    (htakes : TakesArgs argsAddr argCount s x next) (hmem : s.memory = .unbound)
    (hnext : ∀ args s', s'.memory = .unbound → (next args).Boundless s')
    {addr : UInt32} {length size : Nat} :
    (x s).1 = .error (.outOfBounds addr length size) ↔
      ∃ i, OverflowsAt argsAddr argCount i ∧
        addr = argsAddr ∧ length = (i + 1) * Memory.refSize ∧ size = 0 := by
  have hargs (fault : BridgeFault) : (loadArgs argsAddr argCount s).1 = .error fault ↔ _ :=
    loadArgs_eq_error_iff_of_unbound hmem fault
  constructor
  · intro hx
    cases hload : (loadArgs argsAddr argCount s).1 with
    | error fault =>
      obtain ⟨i, hover, rfl⟩ := (hargs fault).1 hload
      rw [htakes.error _ hload] at hx
      cases hx
      exact ⟨i, hover, rfl, rfl, rfl⟩
    | ok args =>
      obtain ⟨log, h⟩ := htakes.ok args hload
      rw [h] at hx
      exact absurd hx ((hnext args { s with log } hmem).inBounds addr length size)
  · rintro ⟨i, hover, rfl, rfl, rfl⟩
    exact htakes.error _ ((hargs _).2 ⟨i, hover, rfl⟩)

end Import

/-! ## Calls -/

namespace Call

open ValueBridge.Action Import Bridge

variable {s : State} {e : Engine} {c : Call} {slot argsAddr argCount addr : UInt32}
  {length size : Nat}

/-- The slot of what is called with arguments, and the address and the number of these. -/
def arguments? : Call → Option (UInt32 × UInt32 × UInt32)
  | .valueNew _ constructor argsAddr argCount => some (constructor, argsAddr, argCount)
  | .funcApply _ function _ argsAddr argCount => some (function, argsAddr, argCount)
  | .valueGet .. | .valueSet .. | .valueDeinit _ | .valueObjectCreate _ | .valueStringCreate ..
  | .valueStringLen _ | .valueStringCopy .. => none

/-- A live slot is called with arguments at the address, of which this one is the first whose own
    address is no word. -/
def OverflowsAt (t : Table) (c : Call) (argsAddr : UInt32) (i : Nat) : Prop :=
  ∃ slot argCount f, c.arguments? = some (slot, argsAddr, argCount) ∧ t.load slot = .ok f ∧
    Import.OverflowsAt argsAddr argCount i

theorem boundless_perform (hmem : s.memory = .unbound) (e : Engine) (hc : c.arguments? = none) :
    (c.perform e).Boundless s := by
  cases c with
  | valueGet out object keyAddr keyLength =>
    exact (boundless_valueGet hmem out object keyAddr keyLength).bind_pure _
  | valueSet object keyAddr keyLength valueAddr =>
    exact (boundless_valueSet hmem object keyAddr keyLength valueAddr).bind_pure _
  | valueDeinit id => exact (boundless_releaseValue hmem id).bind_pure _
  | valueObjectCreate out => exact (boundless_valueObjectCreate hmem out).bind_pure _
  | valueStringCreate out addr length =>
    exact (boundless_valueStringCreate hmem out addr length).bind_pure _
  | valueStringLen id => exact (boundless_valueStringLen hmem id).bind_pure _
  | valueStringCopy id addr capacity =>
    exact (boundless_valueStringCopy hmem id addr capacity).bind_pure _
  | valueNew out constructor argsAddr argCount => cases hc
  | funcApply out function receiverAddr argsAddr argCount => cases hc

/-- What a live slot is called with decides, if the call goes on without bounds. -/
theorem eq_outOfBounds_iff_of_takesArgs {x : Action Unit}
    {next : Value → List Value → Action Unit}
    (hc : c.arguments? = some (slot, argsAddr, argCount)) (hmem : s.memory = .unbound)
    (hdead : ∀ fault, s.table.load slot = .error fault → (x s).1 = .error fault)
    (hlive : ∀ f, s.table.load slot = .ok f → TakesArgs argsAddr argCount s x (next f))
    (hnext : ∀ f args s', s'.memory = .unbound → (next f args).Boundless s') :
    (x s).1 = .error (.outOfBounds addr length size) ↔
      ∃ i, c.OverflowsAt s.table addr i ∧ length = (i + 1) * Memory.refSize ∧ size = 0 := by
  cases hload : s.table.load slot with
  | error fault =>
    rw [hdead fault hload]
    refine iff_of_false (fun h => ?_) fun ⟨i, ⟨slot', _, f, hc', hf, _⟩, _⟩ => ?_
    · cases h
      exact inBounds_load s.table slot addr length size hload
    · rw [hc] at hc'
      cases hc'
      rw [hload] at hf
      cases hf
  | ok f =>
    rw [(hlive f hload).eq_outOfBounds_iff hmem (hnext f)]
    refine exists_congr fun i => ⟨?_, ?_⟩
    · rintro ⟨hover, rfl, hfault⟩
      exact ⟨⟨slot, argCount, f, hc, hload, hover⟩, hfault⟩
    · rintro ⟨⟨slot', _, _, hc', _, hover⟩, hfault⟩
      rw [hc] at hc'
      cases hc'
      exact ⟨hover, rfl, hfault⟩

/-- A call ends out of bounds of a memory that is not there as its arguments do. -/
theorem perform_eq_outOfBounds_iff (hmem : s.memory = .unbound) (e : Engine) (c : Call) :
    (c.perform e s).1 = .error (.outOfBounds addr length size) ↔
      ∃ i, c.OverflowsAt s.table addr i ∧ length = (i + 1) * Memory.refSize ∧ size = 0 := by
  have hnext (out : UInt32) (op : Heap → Outcome Value) (s' : State)
      (hmem' : s'.memory = .unbound) : (Action.host op >>= storeRef out).Boundless s' :=
    .bind (.host hmem' op) fun v _ h => boundless_storeRef h out v
  cases hc : c.arguments? with
  | none =>
    refine iff_of_false ((boundless_perform hmem e hc).inBounds addr length size) ?_
    rintro ⟨i, ⟨_, _, _, hc', _⟩, _⟩
    rw [hc] at hc'
    cases hc'
  | some arguments =>
    cases c with
    | valueNew out constructor argsAddr argCount =>
      refine bind_pure_eq_error_iff.trans (eq_outOfBounds_iff_of_takesArgs rfl hmem
        (fun fault hdead => ?_) (fun f => takesArgs_valueNew) fun f args => hnext out _)
      rw [Import.valueNew, bind_of_error (loadValue_of_error hdead)]
    | funcApply out function receiverAddr argsAddr argCount =>
      refine bind_pure_eq_error_iff.trans (eq_outOfBounds_iff_of_takesArgs rfl hmem
        (fun fault hdead => ?_)
        (fun f hf => takesArgs_funcApply hf (congrArg Prod.fst (loadRef_unbound _ hmem)))
        fun f args => hnext out _)
      rw [Import.funcApply, bind_of_error (loadValue_of_error hdead)]
    | _ => cases hc

end Call

/-! ## Instances -/

namespace Instance

/-- A call by the guest ends with the faults of the same call by the host. -/
theorem exists_invoke_eq_error_iff (e : Engine) (i : Instance) (c : Call) :
    ∃ log, ∀ fault, (i.invoke e c).1 = .error fault ↔
      ({ i with log }.perform (c.perform e)).1 = .error fault := by
  obtain ⟨log, hinvoke⟩ := exists_invoke_eq e i c
  refine ⟨log, fun fault => ?_⟩
  rw [hinvoke]
  obtain ⟨r, i', hperform⟩ : ∃ r i', { i with log }.perform (c.perform e) = (r, i') :=
    ⟨_, _, rfl⟩
  rw [hperform]
  cases r with
  | ok answer => exact iff_of_false nofun nofun
  | error fault' => exact Iff.rfl

/-- A call while no memory is bound ends out of bounds if a live slot is called with arguments of
    which some address is no word. The fault is that of the first of these: the bytes of the
    arguments up to it do not fit into none. No other call ends out of bounds, whatever its
    addresses, lengths and counts. -/
theorem out_of_bounds_without_memory (heap : Heap) (table : Table) (bytes : Array UInt8)
    (log : Array Event) (e : Engine) (c : Call) (addr : UInt32) (length size : Nat) :
    let i : Instance := ⟨heap, table, bytes, false, log⟩
    let fault := BridgeFault.outOfBounds addr length size
    let overflows := ∃ k, c.OverflowsAt table addr k ∧ length = (k + 1) * Memory.refSize ∧ size = 0
    ((i.perform (c.perform e)).1 = .error fault ↔ overflows) ∧
      ((i.invoke e c).1 = .error fault ↔ overflows) := by
  intro i fault overflows
  obtain ⟨log', hinvoke⟩ := exists_invoke_eq_error_iff e i c
  have hmem : i.state.memory = .unbound := rfl
  refine ⟨Call.perform_eq_outOfBounds_iff hmem e c, (hinvoke fault).trans ?_⟩
  exact Call.perform_eq_outOfBounds_iff (s := { i.state with log := log' }) hmem e c

/-- In a fresh bridge without memory, a function is called with two arguments, the first of which
    has the last address but three. -/
theorem arguments_out_of_bounds :
    let (r, h) := Realm.create .empty
    let (f, h) := h.newFunction "f" (some .count) none
    let i := (create .default r h #[]).next (.storeValue (.function f))
    i.Reachable ∧ i.bound = false ∧ i.table.load 7 = .ok (.function f) ∧
      (i.perform ((Call.funcApply 0 7 0 4294967292 2).perform .standard)).1 =
        .error (.outOfBounds 4294967292 16 0) := by
  refine ⟨.next _ (.create _ _ _ _), rfl, ?_, ?_⟩
  · decide +kernel
  · decide +kernel

end Instance

end ValueBridge
