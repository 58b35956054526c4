import ValueBridge.Config
import ValueBridge.Engine
import ValueBridge.Event
import ValueBridge.Memory
import ValueBridge.Realm
import ValueBridge.Ref.Settling

/-!
# Bridges

A *bridge* stands between one guest and the host. It has a configuration, a realm, a
runtime object of its own and a table of the values that the guest holds.

An *action* of a bridge works on the heap of the host, the table, and the memory of
the guest as it sees it, reports events, and may end with a fault. What it did
before the fault remains.

* `Bridge.loadRef`: the value of the reference at an address;
* `Bridge.storeRef`: a value stored, and its reference written to an address. The
  address is checked first, so that no slot is taken which the guest does not learn
  of.
-/

namespace ValueBridge

/-- The host's side of one guest, but for the table, which actions change. -/
structure Bridge where
  config : Config
  realm : Realm
  runtime : ObjectId

/-- The property of the runtime object that tells the module of the imports. -/
def runtimeModuleKey : String := "namespace"

/-- What the actions of a bridge work on. -/
structure State where
  heap : Heap
  table : Table
  memory : Memory
  log : Array Event

/-- An action of a bridge. -/
abbrev Action (α : Type) := ExceptT BridgeFault (StateM State) α

namespace Action

/-- The fault or the result of a pure operation. -/
def lift {α : Type} (result : Except BridgeFault α) : Action α :=
  fun s => (result, s)

/-- The fault of the host, or the result, of an operation on the heap. -/
def host {α : Type} (op : Heap → Outcome α) : Action α :=
  fun s =>
    let (result, heap) := op s.heap
    (result.mapError .host, { s with heap })

/-- An event reported. -/
def report (e : Event) : Action Unit :=
  fun s => (.ok (), { s with log := s.log.push e })

/-- An event reported, if there is one. -/
def reportIfAny : Option Event → Action Unit
  | some e => report e
  | none => pure ()

end Action

namespace Bridge

/-- A fresh bridge over a realm, and the heap with its runtime object. -/
def create (config : Config) (realm : Realm) (h : Heap) : Bridge × Heap :=
  let (runtime, h) := h.newObject
  let h := (h.setOf runtime runtimeModuleKey (.string config.importModule)).2
  (⟨config, realm, runtime⟩, h)

/-- The table that a bridge starts with. -/
def initialTable (b : Bridge) : Table :=
  .create (.object b.realm.global) (.object b.runtime)

/-! ## Slots -/

/-- The value of a slot. -/
def loadValue (id : UInt32) : Action Value := do
  Action.lift ((← get).table.load id)

/-- The reference of a value, which may take a slot. -/
def storeValue (v : Value) : Action Ref := do
  let (ref, table) ← Action.lift ((← get).table.store v)
  modify ({ · with table })
  Action.reportIfAny (Event.ofStore? ref)
  return ref

/-- One claim more on a slot, and how many there are. -/
def retainValue (id : UInt32) : Action Nat := do
  let (claims, table) ← Action.lift ((← get).table.retain id)
  modify ({ · with table })
  return claims

/-- One claim less on a slot. -/
def releaseValue (id : UInt32) : Action Release := do
  let before := (← get).table
  let (release, table) := before.release id
  modify ({ · with table })
  Action.reportIfAny (Event.ofRelease? before id release)
  return release

/-- The value of a slot, and one claim less on it. -/
def deleteValue (id : UInt32) : Action Value := do
  let v ← loadValue id
  let _ ← releaseValue id
  return v

/-! ## Memory -/

/-- The text of the bytes at an address; reported if no memory is bound. -/
def readText (addr length : UInt32) : Action String := do
  let memory := (← get).memory
  if !memory.isBound then
    Action.report (.readSkipped addr)
  Action.lift (memory.readText addr length)

/-- Bytes written at an address; reported if no memory is bound. -/
def writeBytes (addr : UInt32) (data : List UInt8) : Action Unit := do
  let memory ← Action.lift ((← get).memory.write addr data)
  modify ({ · with memory })
  if !memory.isBound then
    Action.report (.writeSkipped data.length addr)

/-- A number written at an address. -/
def writeNumber (addr : UInt32) (x : Binary64) : Action Unit :=
  writeBytes addr (toLittleEndian 8 x.bits.toNat)

/-- A reference written at an address. -/
def writeRef (addr : UInt32) (r : Ref) : Action Unit :=
  writeBytes addr (Memory.refBytes r)

/-! ## References in memory -/

/-- A reference as it was read, or the NaN singleton for a foreign NaN, which is
    reported. -/
def settleRef (addr : UInt32) (r : Ref) : Action Ref := do
  if !r.isSettled then
    Action.report (.foreignNaN addr r)
  return r.settled

/-- The reference at an address; missing while no memory is bound. An action has the
    memory for itself, so that a foreign NaN that is read again is found again, and one
    reading will do. -/
def readRef? (addr : UInt32) : Action (Option Ref) := do
  match ← Action.lift ((← get).memory.readRef? addr) with
  | none => return none
  | some r => return some (← settleRef addr r)

/-- The reference at an address, where a foreign NaN is read again as often as the
    configuration says. -/
def rereadRef? (b : Bridge) (addr : UInt32) : Action (Option Ref) := do
  let memory := (← get).memory
  let retries := UInt32.ofNat b.config.decodeRetries
  match ← Action.lift (Ref.reread retries (fun _ => memory.readRef? addr) 0).1 with
  | none => return none
  | some r => return some (← settleRef addr r)

/-- The value that a reference stands for. -/
def resolve (r : Ref) : Action Value :=
  match r.number?, r.slot? with
  | some x, _ => pure (.number x)
  | none, some id => loadValue id
  | none, none => pure (.number .nan)

/-- The value of the reference at an address; undefined while no memory is bound. -/
def loadRef (addr : UInt32) : Action Value := do
  match ← readRef? addr with
  | none => return .undefined
  | some r => resolve r

/-- A value stored and its reference written to an address. While no memory is bound,
    nothing is stored. -/
def storeRef (addr : UInt32) (v : Value) : Action Unit := do
  let memory := (← get).memory
  if memory.isBound then
    Action.lift (memory.check addr Memory.refSize)
    writeRef addr (← storeValue v)

end Bridge

end ValueBridge
