import ValueBridge.Proofs.Import.Arguments
import ValueBridge.Proofs.Instance.Property
import ValueBridge.Proofs.Memory.Access
import ValueBridge.Proofs.Table.Turnover

/-!
# A program that gives back what it took

The program finds a function by its name, which takes a slot for it, applies it to one argument and
releases the slot (`Instance.doubleViaHost`). It reads the slot from its memory, before the
application and after it, so that all depends on what stands there: each reference that is written
leaves those before it as they are (`Instance.IsPrepared`).

The application takes a slot for the result at most, and not that of the function, which is live.
So it is the slot of the function that is freed in the end (`Instance.givesBack_of_release`).

* `Instance.doubleViaHost_turnover`: what the program comes to, for every argument.
-/

namespace ValueBridge

namespace Instance

open Memory (Stands)

variable {i : Instance} {e : Engine} {c : Call} {v : Value} {out : UInt32}

/-! ## Calls that deliver -/

/-- With a bound memory, a call by the guest is the same call by the host, but for the report of a
    fault. -/
theorem invoke_of_bound (hbound : i.bound = true) (e : Engine) (c : Call) :
    i.invoke e c = match i.perform (c.perform e) with
      | (.ok answer, i') => (.ok (guestAnswer answer), i')
      | (.error fault, i') =>
        (.error fault, if needsMemory c then i'.report (.trapped fault) else i') := by
  rewrite [invoke, hbound, Bool.not_true, Bool.and_false, if_neg Bool.false_ne_true]
  rfl

/-- What an action does to all but the memory is done to the instance. -/
theorem perform_of_kept {α : Type} {action : Action α} {result : Except BridgeFault α} {heap : Heap}
    {table : Table} {log : Array Event} (hbound : i.bound = true)
    (h : action i.state = (result, { i.state with heap, table, log })) :
    i.perform action = (result, { i with heap, table, log }) := by
  have hstate : { i.state with heap, table, log } = ⟨heap, table, .bound i.bytes, log⟩ := by
    rw [← memory_of_bound hbound]
  rw [perform_eq, h, hstate]
  rfl

theorem invoke_of_error (hbound : i.bound = true) {fault : BridgeFault} {heap : Heap}
    {log : Array Event}
    (hperform : c.perform e i.state = (.error fault, { i.state with heap, log })) :
    ∃ log, i.invoke e c = (.error fault, { i with heap, log }) := by
  have hkept : i.perform (c.perform e) = (.error fault, { i with heap, log }) :=
    perform_of_kept hbound hperform
  rw [invoke_of_bound hbound, hkept]
  dsimp only
  split
  · exact ⟨log.push (.trapped fault), rfl⟩
  · exact ⟨log, rfl⟩

/-- A call that comes to the delivery of a value stores it and writes its reference, or fails as the
    value cannot be stored. -/
theorem invoke_of_storeRef (hbound : i.bound = true)
    (hin : out.toNat + Memory.refSize ≤ i.bytes.size) {heap : Heap} {log : Array Event}
    (hperform : c.perform e i.state =
      (Bridge.storeRef out v >>= fun _ => pure .nothing) { i.state with heap, log }) :
    (∃ fault log, i.table.store v = .error fault ∧
      i.invoke e c = (.error fault, { i with heap, log })) ∨
    ∃ ref table log, i.table.store v = .ok (ref, table) ∧
      i.invoke e c = (.ok .nothing, { i with
        heap
        table
        bytes := Memory.overwrite i.bytes out.toNat (Memory.refBytes ref)
        log }) := by
  have hmem : ({ i.state with heap, log } : State).memory = .bound i.bytes := memory_of_bound hbound
  rcases Bridge.storeRef_cases_in hmem hin v with ⟨fault, hstore, h⟩ | ⟨ref, table, log, hstore, h⟩
  · rw [Action.bind_of_error h] at hperform
    obtain ⟨log, hinvoke⟩ := invoke_of_error hbound hperform
    exact .inl ⟨fault, log, hstore, hinvoke⟩
  · rw [Action.bind_of_ok h] at hperform
    refine .inr ⟨ref, table, log, hstore, ?_⟩
    rw [invoke_of_bound hbound, perform_eq, hperform]
    rfl

/-- A call that comes to the delivery of what the host makes fails as the host does, or as the value
    cannot be stored. -/
theorem invoke_of_host (hbound : i.bound = true)
    (hin : out.toNat + Memory.refSize ≤ i.bytes.size) {op : Heap → Outcome Value}
    {log : Array Event} (hperform : c.perform e i.state =
      ((Action.host op >>= Bridge.storeRef out) >>= fun _ => pure .nothing) { i.state with log }) :
    (∃ fault heap log, i.invoke e c = (.error fault, { i with heap, log })) ∨
    ∃ v heap ref table log, op i.heap = (.ok v, heap) ∧ i.table.store v = .ok (ref, table) ∧
      i.invoke e c = (.ok .nothing, { i with
        heap
        table
        bytes := Memory.overwrite i.bytes out.toNat (Memory.refBytes ref)
        log }) := by
  rcases hop : op i.heap with ⟨result, heap⟩
  have hhost : Action.host op { i.state with log } =
      (result.mapError .host, { i.state with heap, log }) := Action.host_of_eq hop
  cases result with
  | error fault =>
    rw [Action.bind_of_error (Action.bind_of_error hhost)] at hperform
    obtain ⟨log, hinvoke⟩ := invoke_of_error hbound hperform
    exact .inl ⟨_, heap, log, hinvoke⟩
  | ok v =>
    have hstored : c.perform e i.state =
        (Bridge.storeRef out v >>= fun _ => pure .nothing) { i.state with heap, log } := by
      rw [hperform, Action.bind_apply, Action.bind_of_ok hhost, Action.bind_apply]
    rcases invoke_of_storeRef hbound hin hstored with
      ⟨fault, log, _, hinvoke⟩ | ⟨ref, table, log, hstore, hinvoke⟩
    · exact .inl ⟨fault, heap, log, hinvoke⟩
    · exact .inr ⟨v, heap, ref, table, log, rfl, hstore, hinvoke⟩

/-! ## The steps of the program -/

/-- The call that finds the function. -/
def findCall : Call :=
  .valueGet functionAddr Singleton.global.slot nameAddr
    (UInt32.ofNat (Utf8.encode functionName).length)

/-- The call that applies the function of a slot. -/
def applyCall (slot : UInt32) : Call :=
  .funcApply resultAddr slot receiverAddr argumentAddr 1

/-- The instance in which the program applies the function that it found. -/
def prepared (e : Engine) (i : Instance) (argument : UInt64) : Instance :=
  ((i.invoke e findCall).2.poke receiverAddr (Memory.refBytes Singleton.undefined.ref)).poke
    argumentAddr (Memory.refBytes ⟨argument⟩)

/-- The function is found, and takes a slot unless none is left. -/
theorem invoke_findCall {global f : Value} (hbound : i.bound = true)
    (hname : Stands i.bytes nameAddr (Utf8.encode functionName))
    (hglobal : i.table.load Singleton.global.slot = .ok global)
    (hget : i.heap.get global functionName = .ok f) (e : Engine) :
    (∃ fault log, i.table.store f = .error fault ∧
      i.invoke e findCall = (.error fault, { i with log })) ∨
    ∃ ref table log, i.table.store f = .ok (ref, table) ∧
      i.invoke e findCall = (.ok .nothing, { i with
        table
        bytes := Memory.overwrite i.bytes functionAddr.toNat (Memory.refBytes ref)
        log }) := by
  have hlength : (UInt32.ofNat (Utf8.encode functionName).length).toNat =
      (Utf8.encode functionName).length := by decide
  have hkey : i.state.memory.readText nameAddr
      (UInt32.ofNat (Utf8.encode functionName).length) = .ok functionName := by
    refine Memory.readText_of_read? ?_
    rw [memory_of_bound hbound, hlength]
    exact Memory.read?_of_stands hname
  obtain ⟨log, hvalueGet⟩ := Import.valueGet_apply functionAddr (s := i.state) hglobal hkey hget
  have hin : functionAddr.toNat + Memory.refSize ≤ i.bytes.size := by
    have := hname.inBounds
    have hname : nameAddr.toNat = 1024 := rfl
    have hout : functionAddr.toNat + Memory.refSize = 8 := rfl
    omega
  have hperform : findCall.perform e i.state =
      (Bridge.storeRef functionAddr f >>= fun _ => pure .nothing) { i.state with log } := by
    rw [findCall, Call.perform, Action.bind_apply, hvalueGet, Action.bind_apply]
  exact invoke_of_storeRef hbound hin hperform

/-- The function is applied to what the argument stands for, and the result is stored. The
    application fails if the argument stands for nothing, if the function fails, or if the result
    cannot be stored. -/
theorem invoke_applyCall {f : Value} {slot : UInt32} {r : Ref} (hbound : i.bound = true)
    (hf : i.table.load slot = .ok f)
    (hundefined : i.table.load Singleton.undefined.slot = .ok .undefined)
    (hreceiver : Stands i.bytes receiverAddr (Memory.refBytes Singleton.undefined.ref))
    (hargument : Stands i.bytes argumentAddr (Memory.refBytes r))
    (hin : resultAddr.toNat + Memory.refSize ≤ i.bytes.size) (e : Engine) :
    (∃ fault heap log, i.invoke e (applyCall slot) = (.error fault, { i with heap, log })) ∨
    ∃ arg v heap ref table log, i.table.standsFor r.settled = .ok arg ∧
      e.call f .undefined [arg] i.heap = (.ok v, heap) ∧ i.table.store v = .ok (ref, table) ∧
      i.invoke e (applyCall slot) = (.ok .nothing, { i with
        heap
        table
        bytes := Memory.overwrite i.bytes resultAddr.toNat (Memory.refBytes ref)
        log }) := by
  have hmem := memory_of_bound hbound
  have hundefinedRef : (Bridge.loadRef receiverAddr i.state).1 = .ok .undefined := by
    have hsettled : Singleton.undefined.ref.settled = Singleton.undefined.ref :=
      if_pos (Ref.isSettled_boxed _ _)
    rw [Bridge.loadRef_fst, hmem, hreceiver.readRef?]
    change i.table.standsFor Singleton.undefined.ref.settled = .ok .undefined
    rw [hsettled, Singleton.ref, Table.standsFor_boxed, hundefined]
  have hread : i.state.memory.readRef? argumentAddr = .ok (some r) := hmem ▸ hargument.readRef?
  rcases Import.funcApply_one e resultAddr hf hundefinedRef hread with
    ⟨fault, log, _, happly⟩ | ⟨arg, log, harg, happly⟩
  · have hperform : (applyCall slot).perform e i.state = (.error fault, { i.state with log }) :=
      Action.bind_of_error happly
    obtain ⟨log, hinvoke⟩ := invoke_of_error hbound hperform
    exact .inl ⟨fault, i.heap, log, hinvoke⟩
  · have hperform : (applyCall slot).perform e i.state =
        ((Action.host (e.call f .undefined [arg]) >>= Bridge.storeRef resultAddr) >>=
          fun _ => pure .nothing) { i.state with log } := by
      rw [applyCall, Call.perform, Action.bind_apply, happly]
      exact (Action.bind_apply _ _ _).symm
    rcases invoke_of_host hbound hin hperform with
      hfailed | ⟨v, heap, ref, table, log, hcall, hstore, hinvoke⟩
    · exact .inl hfailed
    · exact .inr ⟨arg, v, heap, ref, table, log, harg, hcall, hstore, hinvoke⟩

/-- The guest reads the slot of a boxed reference that stands in memory. -/
theorem peekWord_of_stands {addr slot : UInt32} {tag : Tag}
    (h : Stands i.bytes addr (Memory.refBytes (.boxed slot tag))) : i.peekWord addr = .ok slot := by
  rw [peekWord, h.readWord?_low, Ref.low_boxed]
  rfl

/-- The guest reads a reference that stands in memory as a number. -/
theorem peekNumber_of_stands {addr : UInt32} {r : Ref}
    (h : Stands i.bytes addr (Memory.refBytes r)) : i.peekNumber addr = .ok r.toBinary64 := by
  rw [peekNumber, h.readNumber?]
  rfl

theorem invoke_valueDeinit (hbound : i.bound = true) (e : Engine) (slot : UInt32) :
    ∃ log, i.invoke e (.valueDeinit slot) =
      (.ok .nothing, { i with table := (i.table.release slot).2, log }) := by
  obtain ⟨log, hrelease⟩ := Bridge.releaseValue_apply slot i.state
  have hperform : (Call.valueDeinit slot).perform e i.state =
      (.ok (.released (i.table.release slot).1),
        { i.state with table := (i.table.release slot).2, log }) := by
    rw [Call.perform, Action.bind_of_ok hrelease]
    rfl
  refine ⟨log, ?_⟩
  rw [invoke_of_bound hbound, perform_of_kept hbound hperform]
  rfl

/-! ## The scratch memory -/

/-- The end of the memory that the program writes to. -/
def scratchSize : Nat := 32

/-- A reference is written to the scratch memory. -/
theorem overwritten_scratch {bytes bytes' : Array UInt8} {addr : UInt32} {r : Ref}
    (hbytes : bytes' = Memory.overwrite bytes addr.toNat (Memory.refBytes r))
    (hin : scratchSize ≤ bytes.size) (haddr : addr.toNat + Memory.refSize ≤ scratchSize) :
    Memory.Overwritten bytes addr (Memory.refBytes r) bytes' ∧
      Memory.AgreesBut (· < scratchSize) (.bound bytes) (.bound bytes') ∧
      scratchSize ≤ bytes'.size := by
  have hroom : addr.toNat + (Memory.refBytes r).length ≤ scratchSize := by
    rw [Memory.length_refBytes]
    exact haddr
  have hfits := Nat.le_trans hroom hin
  rw [hbytes]
  refine ⟨Memory.overwritten_overwrite hfits, ?_, ?_⟩
  · exact Memory.agreesBut_overwrite hfits fun k _ hk => Nat.lt_of_lt_of_le hk hroom
  · rw [Memory.size_overwrite]
    exact hin

/-- What stands beside the place of a reference stays when one is written there. -/
theorem stands_of_aside {bytes bytes' : Array UInt8} {addr addr' : UInt32} {r r' : Ref}
    (h : Memory.Overwritten bytes addr (Memory.refBytes r) bytes')
    (hstands : Stands bytes addr' (Memory.refBytes r'))
    (haside : addr'.toNat + Memory.refSize ≤ addr.toNat) :
    Stands bytes' addr' (Memory.refBytes r') :=
  h.stands_of_disjoint hstands (.inr (by rwa [Memory.length_refBytes]))

/-- The function has a slot, and its reference, the receiver and the argument stand in memory. -/
structure IsPrepared (i : Instance) (table : Table) (functionRef argument : Ref)
    (j : Instance) : Prop where
  table_eq : j.table = table
  heap_eq : j.heap = i.heap
  bound_eq : j.bound = i.bound
  function : Stands j.bytes functionAddr (Memory.refBytes functionRef)
  receiver : Stands j.bytes receiverAddr (Memory.refBytes Singleton.undefined.ref)
  argument : Stands j.bytes argumentAddr (Memory.refBytes argument)
  agreesBut : Memory.AgreesBut (· < scratchSize) (.bound i.bytes) (.bound j.bytes)

theorem isPrepared_prepared {ref : Ref} {table : Table} {log : Array Event}
    (hin : scratchSize ≤ i.bytes.size)
    (hfind : i.invoke e findCall = (.ok .nothing, { i with
      table
      bytes := Memory.overwrite i.bytes functionAddr.toNat (Memory.refBytes ref)
      log })) (argument : UInt64) :
    IsPrepared i table ref ⟨argument⟩ (i.prepared e argument) := by
  obtain ⟨bytes₁, hbytes₁⟩ : ∃ bytes₁,
      bytes₁ = Memory.overwrite i.bytes functionAddr.toNat (Memory.refBytes ref) := ⟨_, rfl⟩
  obtain ⟨bytes₂, hbytes₂⟩ : ∃ bytes₂, bytes₂ = Memory.overwrite bytes₁ receiverAddr.toNat
      (Memory.refBytes Singleton.undefined.ref) := ⟨_, rfl⟩
  obtain ⟨bytes₃, hbytes₃⟩ : ∃ bytes₃, bytes₃ = Memory.overwrite bytes₂ argumentAddr.toNat
      (Memory.refBytes ⟨argument⟩) := ⟨_, rfl⟩
  have hprepared : i.prepared e argument = { i with table, bytes := bytes₃, log } := by
    rw [prepared, hfind, poke, poke, ← hbytes₁, ← hbytes₂, ← hbytes₃]
  obtain ⟨hfunction, hagrees, hin⟩ := overwritten_scratch hbytes₁ hin (by decide)
  obtain ⟨hreceiver, hagrees', hin⟩ := overwritten_scratch hbytes₂ hin (by decide)
  obtain ⟨hargument, hagrees'', -⟩ := overwritten_scratch hbytes₃ hin (by decide)
  rw [hprepared]
  refine ⟨rfl, rfl, rfl, ?_, ?_, hargument.stands, (hagrees.trans hagrees').trans hagrees''⟩
  · exact stands_of_aside hargument (stands_of_aside hreceiver hfunction.stands (by decide))
      (by decide)
  · exact stands_of_aside hargument hreceiver.stands (by decide)

/-! ## The program -/

section Runs

variable {argument : UInt64} {slot : UInt32} {answer : Answer} {fault : BridgeFault}
  {i' j : Instance} {tag : Tag} {r : Ref}

theorem doubleViaHost_of_unfound (hfind : i.invoke e findCall = (.error fault, j))
    (argument : UInt64) : i.doubleViaHost e argument = (.error fault, j) := by
  rw [findCall] at hfind
  rw [doubleViaHost]
  dsimp only
  rw [hfind]

/-- Once the function is found, the program goes on from the instance with the function's slot and
    the arguments in memory. -/
theorem doubleViaHost_of_found (hfind : i.invoke e findCall = (.ok answer, i'))
    (hfunction : Stands (i.prepared e argument).bytes functionAddr
      (Memory.refBytes (.boxed slot tag))) :
    i.doubleViaHost e argument = match (i.prepared e argument).invoke e (applyCall slot) with
      | (.error fault, j) => (.error fault, j)
      | (.ok _, j) => match j.peekWord functionAddr with
        | .error fault => (.error fault, j)
        | .ok function => match j.invoke e (.valueDeinit function) with
          | (.error fault, j) => (.error fault, j)
          | (.ok _, j) => (j.peekNumber resultAddr, j) := by
  have hprepared : (i'.poke receiverAddr (Memory.refBytes Singleton.undefined.ref)).poke
      argumentAddr (Memory.refBytes ⟨argument⟩) = i.prepared e argument := by
    rw [prepared, hfind]
  rw [findCall] at hfind
  rw [doubleViaHost]
  dsimp only
  rw [hfind]
  dsimp only
  rw [hprepared, peekWord_of_stands hfunction]
  rfl

theorem doubleViaHost_of_unapplied (hfind : i.invoke e findCall = (.ok answer, i'))
    (hfunction : Stands (i.prepared e argument).bytes functionAddr
      (Memory.refBytes (.boxed slot tag)))
    (happly : (i.prepared e argument).invoke e (applyCall slot) = (.error fault, j)) :
    i.doubleViaHost e argument = (.error fault, j) := by
  rw [doubleViaHost_of_found hfind hfunction, happly]

theorem doubleViaHost_of_applied (hfind : i.invoke e findCall = (.ok answer, i'))
    (hfunction : Stands (i.prepared e argument).bytes functionAddr
      (Memory.refBytes (.boxed slot tag)))
    (happly : (i.prepared e argument).invoke e (applyCall slot) = (.ok answer, j))
    (hbound : j.bound = true)
    (hkept : Stands j.bytes functionAddr (Memory.refBytes (.boxed slot tag)))
    (hresult : Stands j.bytes resultAddr (Memory.refBytes r)) :
    ∃ log, i.doubleViaHost e argument =
      (.ok r.toBinary64, { j with table := (j.table.release slot).2, log }) := by
  obtain ⟨log, hrelease⟩ := invoke_valueDeinit hbound e slot
  refine ⟨log, ?_⟩
  rw [doubleViaHost_of_found hfind hfunction, happly]
  dsimp only
  rw [peekWord_of_stands hkept]
  dsimp only
  rw [hrelease]
  dsimp only
  have hread : ({ j with table := (j.table.release slot).2, log } : Instance).peekNumber
      resultAddr = .ok r.toBinary64 := peekNumber_of_stands hresult
  rw [hread]

end Runs

/-- The number at the address of the result, where the function came to a number. -/
theorem toBinary64_of_store_number {t t' : Table} {r : Ref} {y : Binary64}
    (hstore : t.store (.number y) = .ok (r, t')) :
    r.toBinary64 = if y.isNaN then Singleton.nan.ref.toBinary64 else y := by
  cases hstore
  split <;> rfl

/-- The function's slot is given back, and waits at the front of the pool. The result has a slot if
    it takes one, and is the number itself if it is one. -/
structure GivesBack (t : Table) (slot : UInt32) (v : Value) (x : Binary64) (t' : Table) :
    Prop where
  free : t'.slot? slot = some .free
  pool : t'.pool.head? = some slot
  live : t'.stats.live = t.stats.live + if Table.takesSlot v then 1 else 0
  number : ∀ y, v = .number y → x = if y.isNaN then Singleton.nan.ref.toBinary64 else y

/-- A value takes a slot, and the slot is released after another value is stored. -/
theorem givesBack_of_release {t t₁ t₂ : Table} {slot : UInt32} {f v : Value} {r : Ref}
    (h : t.WellFormed) (h₁ : t₁.WellFormed) (ht : t.Takes slot f t₁)
    (hstore : t₁.store v = .ok (r, t₂)) :
    GivesBack t slot v r.toBinary64 (t₂.release slot).2 := by
  have h₂ := h₁.of_step (Table.step_of_store hstore)
  -- The result may take a slot, but not this one, which is live.
  have hslot := Table.slot?_of_store h₁ ht.slot?_eq hstore
  have hvacates := Table.vacates_of_release h₂ ht.lastSlot_lt hslot
  have hlive := hvacates.stats_live h₂ (h₂.apply (.release slot))
  rw [Table.stats_live_of_store h₁ hstore, ht.stats_live h h₁] at hlive
  refine ⟨hvacates.slot?_eq, ?_, by omega, ?_⟩
  · rw [hvacates.pool_eq, List.head?_cons]
  · rintro y rfl
    exact toBinary64_of_store_number hstore

/-- What an application comes to where the function has a slot: it fails, and the table is as it
    was, or the result is stored, and what stands in memory for the function stays there. -/
theorem invoke_applyCall_prepared {p : Instance} {t : Table} {f : Value} {slot : UInt32}
    {argument : Ref} (hp : IsPrepared i t (.boxed slot .function) argument p)
    (hbound : i.bound = true) (hin : scratchSize ≤ i.bytes.size) (hf : t.load slot = .ok f)
    (hundefined : t.load Singleton.undefined.slot = .ok .undefined) (e : Engine) :
    (∃ fault j, p.invoke e (applyCall slot) = (.error fault, j) ∧ j.table = t ∧
      Memory.AgreesBut (· < scratchSize) (.bound i.bytes) (.bound j.bytes)) ∨
    ∃ arg v r j, p.invoke e (applyCall slot) = (.ok .nothing, j) ∧ j.bound = true ∧
      t.standsFor argument.settled = .ok arg ∧ (e.call f .undefined [arg] i.heap).1 = .ok v ∧
      t.store v = .ok (r, j.table) ∧
      Stands j.bytes functionAddr (Memory.refBytes (.boxed slot .function)) ∧
      Stands j.bytes resultAddr (Memory.refBytes r) ∧
      Memory.AgreesBut (· < scratchSize) (.bound i.bytes) (.bound j.bytes) := by
  have hsize : scratchSize ≤ p.bytes.size := by
    have : p.bytes.size = i.bytes.size := hp.agreesBut.size
    omega
  obtain rfl := hp.table_eq
  have hbound' := hp.bound_eq.trans hbound
  rcases invoke_applyCall hbound' hf hundefined hp.receiver hp.argument hsize e with
    ⟨fault, heap, log, happly⟩ | ⟨arg, v, heap, r, table, log, harg, hcall, hstore, happly⟩
  · exact .inl ⟨fault, _, happly, rfl, hp.agreesBut⟩
  · obtain ⟨bytes, hbytes⟩ : ∃ bytes,
        bytes = Memory.overwrite p.bytes resultAddr.toNat (Memory.refBytes r) := ⟨_, rfl⟩
    obtain ⟨hresult, hagrees, -⟩ := overwritten_scratch hbytes hsize (by decide)
    rw [← hbytes] at happly
    rw [hp.heap_eq] at hcall
    refine .inr ⟨arg, v, r, _, happly, hbound', harg, ?_, hstore,
      stands_of_aside hresult hp.function (by decide), hresult.stands, hp.agreesBut.trans hagrees⟩
    rw [hcall]

theorem scratchSize_le (hname : Stands i.bytes nameAddr (Utf8.encode functionName)) :
    scratchSize ≤ i.bytes.size := by
  have hin := hname.inBounds
  have haddr : nameAddr.toNat = 1024 := rfl
  rw [scratchSize]
  omega

/-- Undefined is in its slot, whatever was stored. -/
theorem load_undefined_of_store {ref : Ref} {t : Table} (hi : i.Reachable)
    (hstore : i.table.store v = .ok (ref, t)) :
    t.load Singleton.undefined.slot = .ok .undefined := by
  obtain ⟨_, _, hsingletons⟩ := hi.singletons
  rw [← Table.apply_store hstore]
  exact Table.load_apply hi.wellFormed (hsingletons .undefined) (Table.not_frees_store _ _ _)

/-- In a reachable instance with bound memory, where the name of the function stands and the global
    of that name is a function, the program comes to one of three ends, for every argument.

    * No slot is left for the function. The program fails, and the table is as it was.
    * The application fails, and the program with it. The one change to the table is that the
      function has a slot.
    * The application ends, and so does the program. The function was applied to what the argument
      stands for, and its slot is given back.

    Of the memory, the first bytes change at most. -/
theorem doubleViaHost_turnover {global : Value} {f : FunctionId} (hi : i.Reachable)
    (hbound : i.bound = true) (hname : Stands i.bytes nameAddr (Utf8.encode functionName))
    (hglobal : i.table.load Singleton.global.slot = .ok global)
    (hget : i.heap.get global functionName = .ok (.function f)) (e : Engine) (argument : UInt64) :
    let outcome := i.doubleViaHost e argument
    let j := outcome.2
    Memory.AgreesBut (· < scratchSize) (.bound i.bytes) (.bound j.bytes) ∧
      ((∃ fault, i.table.store (.function f) = .error fault ∧ outcome.1 = .error fault ∧
          j.table = i.table) ∨
        ∃ slot t, i.table.store (.function f) = .ok (.boxed slot .function, t) ∧
          i.table.Takes slot (.function f) t ∧ t.stats.live = i.table.stats.live + 1 ∧
          let applied := (i.prepared e argument).invoke e (applyCall slot)
          (∀ fault, applied.1 = .error fault → outcome.1 = .error fault ∧ j.table = t) ∧
            ∀ answer, applied.1 = .ok answer → ∃ arg v x,
              t.standsFor (Ref.mk argument).settled = .ok arg ∧
                (e.call (.function f) .undefined [arg] i.heap).1 = .ok v ∧ outcome.1 = .ok x ∧
                GivesBack i.table slot v x j.table) := by
  intro outcome j
  have hin := scratchSize_le hname
  rcases invoke_findCall hbound hname hglobal hget e with
    ⟨fault, log, hstore, hfind⟩ | ⟨ref, t, log, hstore, hfind⟩
  · have houtcome : outcome = (.error fault, { i with log }) :=
      doubleViaHost_of_unfound hfind argument
    have hj : j = { i with log } := congrArg Prod.snd houtcome
    rw [houtcome, hj]
    exact ⟨.refl _ _, .inl ⟨fault, hstore, rfl, rfl⟩⟩
  obtain ⟨slot, rfl, htakes⟩ := Table.takes_of_store hi.wellFormed rfl hstore
  have hp := isPrepared_prepared hin hfind argument
  have ht := hi.wellFormed.of_step (Table.step_of_store hstore)
  have hlive := htakes.stats_live hi.wellFormed ht
  have hf : t.load slot = .ok (.function f) := Table.load_eq_ok_iff.2 ⟨1, htakes.slot?_eq⟩
  rcases invoke_applyCall_prepared hp hbound hin hf (load_undefined_of_store hi hstore) e with
    ⟨fault, k, happly, htable, hagrees⟩ |
    ⟨arg, v, r, k, happly, hbound', harg, hcall, hstore', hkept, hresult, hagrees⟩
  · have houtcome : outcome = (.error fault, k) :=
      doubleViaHost_of_unapplied hfind hp.function happly
    have hj : j = k := congrArg Prod.snd houtcome
    rw [hj, houtcome]
    refine ⟨hagrees, .inr ⟨slot, t, hstore, htakes, hlive, ?_, ?_⟩⟩
    · rw [happly]
      rintro _ ⟨⟩
      exact ⟨rfl, htable⟩
    · rw [happly]
      exact nofun
  · obtain ⟨log, houtcome⟩ :=
      doubleViaHost_of_applied hfind hp.function happly hbound' hkept hresult
    have hj : j = { k with table := (k.table.release slot).2, log } :=
      congrArg Prod.snd houtcome
    refine ⟨?_, .inr ⟨slot, t, hstore, htakes, hlive, ?_, ?_⟩⟩
    · rw [hj]
      exact hagrees
    · rw [happly]
      exact nofun
    · intro answer _
      refine ⟨arg, v, r.toBinary64, harg, hcall, congrArg Prod.fst houtcome, ?_⟩
      rw [hj]
      exact givesBack_of_release hi.wellFormed ht htakes hstore'

/-- An instance with the name of the function in memory, over a host that has no such function. -/
def named : Instance :=
  create .default firstRealm.1 firstRealm.2
    (Memory.overwrite (Array.replicate 1032 0) nameAddr.toNat (Utf8.encode functionName))

/-- The instance over a host that defines the function, with its memory bound. -/
def doubling : Instance :=
  let (f, h) := named.heap.newFunction functionName (some .double) none
  (named.next (.host (firstRealm.1.define h functionName (.function f)))).next (.bind memoryExport)

theorem stands_doubling : Stands doubling.bytes nameAddr (Utf8.encode functionName) := by
  have hin : nameAddr.toNat + (Utf8.encode functionName).length ≤
      (Array.replicate 1032 (0 : UInt8)).size := by
    rw [Array.size_replicate]
    decide
  have hbytes : doubling.bytes =
      Memory.overwrite (Array.replicate 1032 0) nameAddr.toNat (Utf8.encode functionName) := by
    rw [doubling]
    dsimp only [Heap.newFunction]
    rw [next, bind, if_pos rfl]
    dsimp only
    rw [next, named, create]
  rw [hbytes]
  exact (Memory.overwritten_overwrite hin).stands

/-- Two is doubled, and nothing is left of it in the table. -/
theorem doubleViaHost_turnover_two :
    let two : Binary64 := ⟨0x4000000000000000⟩
    let four : Binary64 := ⟨0x4010000000000000⟩
    let outcome := doubling.doubleViaHost .standard two.bits
    outcome.1 = .ok four ∧ GivesBack doubling.table 7 (.number four) four outcome.2.table ∧
      Memory.AgreesBut (· < scratchSize) (.bound doubling.bytes) (.bound outcome.2.bytes) := by
  intro two four
  dsimp only
  have hi : doubling.Reachable := .next (.bind memoryExport) (.next (.host _) (.create _ _ _ _))
  have hglobal : doubling.table.load Singleton.global.slot =
    .ok (.object firstRealm.1.global) := rfl
  have hget : doubling.heap.get (.object firstRealm.1.global) functionName =
    .ok (.function ⟨4⟩) := by decide +kernel
  have hstored : doubling.table.store (.function ⟨4⟩) =
    .ok (.boxed 7 .function, doubling.table.apply (.store (.function ⟨4⟩))) := by decide +kernel
  have hargument : (doubling.table.apply (.store (.function ⟨4⟩))).standsFor
    (Ref.mk two.bits).settled = .ok (.number two) := by decide +kernel
  have hfour : (Engine.standard.call (.function ⟨4⟩) .undefined [.number two] doubling.heap).1 =
    .ok (.number four) := by decide +kernel
  have houtcome : (doubling.doubleViaHost .standard two.bits).1 = .ok four := by decide +kernel
  obtain ⟨hagrees, ⟨fault, hfull, -⟩ | ⟨slot, t, hstore, -, -, hfailed, hreturned⟩⟩ :=
    doubleViaHost_turnover hi rfl stands_doubling hglobal hget .standard two.bits
  · cases hstored.symm.trans hfull
  obtain ⟨hslot, rfl⟩ := Prod.mk.inj (Except.ok.inj (hstored.symm.trans hstore))
  obtain ⟨rfl, -⟩ := Ref.boxed_inj.1 hslot
  rcases happlied : ((doubling.prepared .standard two.bits).invoke .standard (applyCall 7)).1 with
    fault | answer
  · cases houtcome.symm.trans (hfailed fault happlied).1
  · obtain ⟨arg, v, x, harg, hcall, hx, hgives⟩ := hreturned answer happlied
    obtain rfl : .number two = arg := Except.ok.inj (hargument.symm.trans harg)
    obtain rfl : .number four = v := Except.ok.inj (hfour.symm.trans hcall)
    obtain rfl : four = x := Except.ok.inj (houtcome.symm.trans hx)
    refine ⟨houtcome, ?_, ?_⟩
    · exact hgives
    · exact hagrees

end Instance

end ValueBridge
