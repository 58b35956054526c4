import ValueBridge.Import

/-!
# Guest instances

An *instance* is a guest with the host's side of it: the bytes of its memory, which
are there whether the bridge is *bound* to them or not, the table of its bridge and
the heap of the host. Whatever a bridge does, it does on the memory as it finds it
at that moment.

* `Instance.perform`: an action of the bridge;
* `Instance.invoke`: a call of an import by the guest. A fault ends the guest's call
  and is reported, and what a release comes to is not told;
* `Instance.doubleViaHost`: a guest program that finds a function by name, applies
  it to a reference and releases it.
-/

namespace ValueBridge

/-- A guest with the host's side of it. -/
structure Instance where
  heap : Heap
  table : Table
  bytes : Array UInt8
  bound : Bool
  log : Array Event

namespace Instance

/-- The memory as the bridge sees it. -/
def memory (i : Instance) : Memory :=
  if i.bound then .bound i.bytes else .unbound

/-- The instance after an action that ends in a state. An unbound memory keeps its
    bytes. -/
def resume (i : Instance) (s : State) : Instance :=
  let bytes := match s.memory with
    | .bound bytes => bytes
    | .unbound => i.bytes
  { i with heap := s.heap, table := s.table, bytes, log := s.log }

/-- An action of the bridge. -/
def perform {α : Type} (i : Instance) (action : Action α) : Except BridgeFault α × Instance :=
  let (result, s) := action ⟨i.heap, i.table, i.memory, i.log⟩
  (result, i.resume s)

/-- The instance with an event reported. -/
def report (i : Instance) (e : Event) : Instance :=
  { i with log := i.log.push e }

/-! ## Imports called by the guest -/

/-- Whether an import works on the memory, so that the bridge has to find it. -/
def needsMemory : Call → Bool
  | .valueDeinit _ | .valueStringLen _ => false
  | _ => true

/-- What the guest is given back of an answer. -/
def guestAnswer : Answer → Answer
  | .released _ => .nothing
  | answer => answer

/-- A call of an import by the guest. -/
def invoke (e : Engine) (i : Instance) (c : Call) : Except BridgeFault Answer × Instance :=
  let i := if needsMemory c && !i.bound then i.report .calledUnbound else i
  match i.perform (c.perform e) with
  | (.ok answer, i) => (.ok (guestAnswer answer), i)
  | (.error fault, i) => (.error fault, if needsMemory c then i.report (.trapped fault) else i)

/-! ## The memory of the guest -/

/-- The size of a page of memory. -/
def pageSize : Nat := 65536

/-- The instance with bytes written to its memory by the guest itself. -/
def poke (i : Instance) (addr : UInt32) (data : List UInt8) : Instance :=
  { i with bytes := Memory.overwrite i.bytes addr.toNat data }

/-- The word at an address, as the guest itself reads it. -/
def peekWord (i : Instance) (addr : UInt32) : Except BridgeFault UInt32 :=
  ((Memory.bound i.bytes).readWord? addr).map fun word? => word?.getD 0

/-- The number at an address, as the guest itself reads it. -/
def peekNumber (i : Instance) (addr : UInt32) : Except BridgeFault Binary64 :=
  ((Memory.bound i.bytes).readNumber? addr).map fun x? => x?.getD (.zero false)

/-! ## A guest program -/

/-- Where the guest keeps the name of the function. -/
def nameAddr : UInt32 := 1024

/-- The name of the function. -/
def functionName : String := "double"

/-- Where the reference of the function is written. -/
def functionAddr : UInt32 := 0

/-- Where the receiver of the call is put: undefined. -/
def receiverAddr : UInt32 := 8

/-- Where the argument of the call is put. -/
def argumentAddr : UInt32 := 16

/-- Where the result of the call is written. -/
def resultAddr : UInt32 := 24

/-- A memory that a guest starts with: one page, with the name of the function. -/
def initialBytes : Array UInt8 :=
  Memory.overwrite (Array.replicate pageSize 0) nameAddr.toNat (Utf8.encode functionName)

/-- The program that finds the function by its name among the globals, applies it to
    the reference `argument`, releases the function and gives back the number at the
    address of the result. -/
def doubleViaHost (e : Engine) (i : Instance) (argument : UInt64) :
    Except BridgeFault Binary64 × Instance :=
  let nameLength := UInt32.ofNat (Utf8.encode functionName).length
  match i.invoke e (.valueGet functionAddr Singleton.global.slot nameAddr nameLength) with
  | (.error fault, i) => (.error fault, i)
  | (.ok _, i) =>
    let i := i.poke receiverAddr (Memory.refBytes Singleton.undefined.ref)
    let i := i.poke argumentAddr (Memory.refBytes ⟨argument⟩)
    match i.peekWord functionAddr with
    | .error fault => (.error fault, i)
    | .ok function =>
      match i.invoke e (.funcApply resultAddr function receiverAddr argumentAddr 1) with
      | (.error fault, i) => (.error fault, i)
      | (.ok _, i) =>
        -- The guest reads the slot of the function anew.
        match i.peekWord functionAddr with
        | .error fault => (.error fault, i)
        | .ok function =>
          match i.invoke e (.valueDeinit function) with
          | (.error fault, i) => (.error fault, i)
          | (.ok _, i) => (i.peekNumber resultAddr, i)

end Instance

end ValueBridge
