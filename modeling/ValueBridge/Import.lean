import ValueBridge.Bridge
import ValueBridge.Heap.Text

/-!
# Imports

The nine functions that a guest imports. Each takes words: slots, addresses, lengths
and counts. It finds its operands in the table and in memory, lets the host do its
part, and writes the reference of a result to the address that the guest gives.

Whether a value has a property, or can be called, is for the host to say.
-/

namespace ValueBridge

/-- A call of an import with its arguments. -/
inductive Call where
  /-- Writes the property of an object to an address. -/
  | valueGet (out object keyAddr keyLength : UInt32)
  /-- Sets a property of an object to the value of the reference at an address. -/
  | valueSet (object keyAddr keyLength valueAddr : UInt32)
  /-- Releases a claim on a slot. -/
  | valueDeinit (id : UInt32)
  /-- Writes a fresh object to an address. -/
  | valueObjectCreate (out : UInt32)
  /-- Writes the text of the bytes in memory to an address. -/
  | valueStringCreate (out addr length : UInt32)
  /-- Gives the length of the text of a value, in bytes. -/
  | valueStringLen (id : UInt32)
  /-- Copies the text of a value to an address, if it fits. -/
  | valueStringCopy (id addr capacity : UInt32)
  /-- Writes what a constructor makes of arguments to an address. -/
  | valueNew (out constructor argsAddr argCount : UInt32)
  /-- Writes what a function makes of arguments to an address. -/
  | funcApply (out function receiverAddr argsAddr argCount : UInt32)
  deriving DecidableEq

/-- What an import gives back. -/
inductive Answer where
  | nothing
  | length (n : Nat)
  | released (release : Release)
  deriving DecidableEq

namespace Import

/-- The names of the imports, in the order in which they are defined. -/
def names : List String :=
  ["valueGet", "valueSet", "valueDeinit", "valueObjectCreate", "valueStringCreate",
    "valueStringLen", "valueStringCopy", "valueNew", "funcApply"]

/-- The text of the value of a slot. -/
def slotText (id : UInt32) : Action String := do
  let v ← Bridge.loadValue id
  Action.lift (((← get).heap.hostText v).mapError .host)

/-- The values of an array of references, after those already taken (the last one
    first): as many as are left, from an index on. -/
def loadArgsFrom (argsAddr : UInt32) (taken : List Value) (index : UInt32) :
    Nat → Action (List Value)
  | 0 => return taken.reverse
  | left + 1 => do
    let addr ← Action.lift (Memory.elementAddress argsAddr index)
    let v ← Bridge.loadRef addr
    loadArgsFrom argsAddr (v :: taken) (index + 1) left

/-- The values of an array of references at an address. The first one that has no
    value is the fault. -/
def loadArgs (argsAddr argCount : UInt32) : Action (List Value) :=
  loadArgsFrom argsAddr [] 0 argCount.toNat

/-- Writes the property of an object to an address. -/
def valueGet (out object keyAddr keyLength : UInt32) : Action Unit := do
  let target ← Bridge.loadValue object
  let key ← Bridge.readText keyAddr keyLength
  let v ← Action.lift (((← get).heap.get target key).mapError .host)
  Bridge.storeRef out v

/-- Sets a property of an object to the value of the reference at an address. A
    property that is not writable is reported, but no fault. -/
def valueSet (object keyAddr keyLength valueAddr : UInt32) : Action Unit := do
  let target ← Bridge.loadValue object
  let key ← Bridge.readText keyAddr keyLength
  let v ← Bridge.loadRef valueAddr
  let (written, heap) ← Action.lift (((← get).heap.set target key v).mapError .host)
  modify ({ · with heap })
  if !written then
    Action.report (.writeRefused key object)

/-- Writes a fresh object to an address. -/
def valueObjectCreate (out : UInt32) : Action Unit := do
  let id ← Action.host fun h =>
    let (id, h) := h.newObject
    (.ok id, h)
  Bridge.storeRef out (.object id)

/-- Writes the text of the bytes in memory to an address. -/
def valueStringCreate (out addr length : UInt32) : Action Unit := do
  let text ← Bridge.readText addr length
  Bridge.storeRef out (.string text)

/-- Gives the length of the text of a value, in bytes. -/
def valueStringLen (id : UInt32) : Action Nat := do
  let length := (Utf8.encode (← slotText id)).length
  if length < Ref.wordSize then return length
  else throw (.textTooLong length)

/-- Copies the text of a value to an address, if it fits; otherwise it is reported. -/
def valueStringCopy (id addr capacity : UInt32) : Action Unit := do
  if (← get).memory.isBound then
    let bytes := Utf8.encode (← slotText id)
    if capacity.toNat < bytes.length then
      Action.report (.copySkipped id bytes.length capacity)
    else Bridge.writeBytes addr bytes

/-- Writes what a constructor makes of arguments to an address. -/
def valueNew (e : Engine) (out constructor argsAddr argCount : UInt32) : Action Unit := do
  let f ← Bridge.loadValue constructor
  let args ← loadArgs argsAddr argCount
  let v ← Action.host (e.construct f args)
  Bridge.storeRef out v

/-- Writes what a function makes of arguments to an address. -/
def funcApply (e : Engine) (out function receiverAddr argsAddr argCount : UInt32) :
    Action Unit := do
  -- The function is found before anything is read from memory.
  let f ← Bridge.loadValue function
  let receiver ← Bridge.loadRef receiverAddr
  let args ← loadArgs argsAddr argCount
  let v ← Action.host (e.call f receiver args)
  Bridge.storeRef out v

end Import

namespace Call

/-- What a call does, by an engine. -/
def perform (e : Engine) : Call → Action Answer
  | .valueGet out object keyAddr keyLength => do
    Import.valueGet out object keyAddr keyLength
    return .nothing
  | .valueSet object keyAddr keyLength valueAddr => do
    Import.valueSet object keyAddr keyLength valueAddr
    return .nothing
  | .valueDeinit id => return .released (← Bridge.releaseValue id)
  | .valueObjectCreate out => do
    Import.valueObjectCreate out
    return .nothing
  | .valueStringCreate out addr length => do
    Import.valueStringCreate out addr length
    return .nothing
  | .valueStringLen id => return .length (← Import.valueStringLen id)
  | .valueStringCopy id addr capacity => do
    Import.valueStringCopy id addr capacity
    return .nothing
  | .valueNew out constructor argsAddr argCount => do
    Import.valueNew e out constructor argsAddr argCount
    return .nothing
  | .funcApply out function receiverAddr argsAddr argCount => do
    Import.funcApply e out function receiverAddr argsAddr argCount
    return .nothing

end Call

end ValueBridge
