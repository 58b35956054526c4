import ValueBridge.Instance

/-!
# Linking

How a guest comes to its imports and the bridge to its memory.

* A *function of the host* takes words and gives back words (`HostFunction`). There is one for each
  import, which finds the memory as it is bound at the moment of the call
  (`HostFunction.withBridge`).
* A *linker* knows functions by module and name, and defines none of them twice
  (`Linker.define`). All imports of a bridge go under the module of its
  configuration (`Linker.defineImports`), and a guest is instantiated only if each of
  them is found under the module that it asks for (`Linker.provides`). It then calls
  what was found (`Linker.call?`).
* The memory of a guest is bound if it is exported by the name that the bridge looks
  for (`Instance.bind`).
-/

namespace ValueBridge

/-! ## Functions of the host -/

/-- A function of the host: what it does with words, by an engine, and the words that it gives
    back. It takes as many words as it has parameters, and does nothing with others. -/
abbrev HostFunction :=
  List UInt32 → Option (Engine → Instance → Except BridgeFault (List UInt32) × Instance)

namespace HostFunction

/-- An action of the bridge on the memory that is bound now, or on none, which is reported. A
    fault ends the guest's call and is reported. -/
def withBridge (op : Action Unit) (i : Instance) : Except BridgeFault (List UInt32) × Instance :=
  let i := if i.bound then i else i.report .calledUnbound
  match i.perform op with
  | (.ok (), i) => (.ok [], i)
  | (.error fault, i) => (.error fault, i.report (.trapped fault))

/-- The property of a value under a key in memory. -/
def valueGet : HostFunction
  | [out, object, keyAddr, keyLength] =>
    some fun _ => withBridge (Import.valueGet out object keyAddr keyLength)
  | _ => none

/-- A property of a value set to what stands in memory. -/
def valueSet : HostFunction
  | [object, keyAddr, keyLength, valueAddr] =>
    some fun _ => withBridge (Import.valueSet object keyAddr keyLength valueAddr)
  | _ => none

/-- The release of a claim. It needs no memory, and does not tell what it comes to. -/
def valueDeinit : HostFunction
  | [id] => some fun _ i => (.ok [], (i.perform (Bridge.releaseValue id)).2)
  | _ => none

/-- A fresh object. -/
def valueObjectCreate : HostFunction
  | [out] => some fun _ => withBridge (Import.valueObjectCreate out)
  | _ => none

/-- The text that stands in memory. -/
def valueStringCreate : HostFunction
  | [out, addr, length] => some fun _ => withBridge (Import.valueStringCreate out addr length)
  | _ => none

/-- The length of the text of a value. It needs no memory. -/
def valueStringLen : HostFunction
  | [id] => some fun _ i =>
    let (result, i) := i.perform (Import.valueStringLen id)
    (result.map fun length => [UInt32.ofNat length], i)
  | _ => none

/-- A copy of the text of a value, if there is room for it. -/
def valueStringCopy : HostFunction
  | [id, addr, capacity] => some fun _ => withBridge (Import.valueStringCopy id addr capacity)
  | _ => none

/-- What a constructor makes of arguments in memory. -/
def valueNew : HostFunction
  | [out, constructor, argsAddr, argCount] =>
    some fun e => withBridge (Import.valueNew e out constructor argsAddr argCount)
  | _ => none

/-- What a function gives for a receiver and arguments in memory. -/
def funcApply : HostFunction
  | [out, function, receiverAddr, argsAddr, argCount] =>
    some fun e => withBridge (Import.funcApply e out function receiverAddr argsAddr argCount)
  | _ => none

/-- The functions of the imports, by name. -/
def imports : List (String × HostFunction) :=
  Import.names.zip [valueGet, valueSet, valueDeinit, valueObjectCreate, valueStringCreate,
    valueStringLen, valueStringCopy, valueNew, funcApply]

end HostFunction

/-! ## Linkers -/

/-- The functions that guests may import, by module and name. -/
structure Linker where
  defined : List ((String × String) × HostFunction)

namespace Linker

/-- The linker that knows no function. -/
def empty : Linker := ⟨[]⟩

/-- The function of a name under a module. -/
def find? (l : Linker) (importModule name : String) : Option HostFunction :=
  l.defined.lookup (importModule, name)

/-- The linker that knows one more function, unless one is known by its name already. -/
def define (l : Linker) (importModule name : String) (f : HostFunction) :
    Except BridgeFault Linker :=
  match l.find? importModule name with
  | some _ => .error (.undefinable name "already defined")
  | none => .ok ⟨((importModule, name), f) :: l.defined⟩

/-- The linker that knows all imports of a bridge. -/
def defineImports (l : Linker) (c : Config) : Except BridgeFault Linker :=
  HostFunction.imports.foldlM (fun l f => l.define c.importModule f.1 f.2) l

/-- Whether all imports of a bridge are known under a module. -/
def provides (l : Linker) (importModule : String) : Bool :=
  Import.names.all fun name => (l.find? importModule name).isSome

/-- What a guest calls by a name under a module with words. -/
def call? (l : Linker) (importModule name : String) (words : List UInt32) :
    Option (Engine → Instance → Except BridgeFault (List UInt32) × Instance) :=
  (l.find? importModule name).bind fun f => f words

end Linker

namespace Instance

/-- The name by which a bridge looks for the memory of a guest. -/
def memoryExport : String := "memory"

/-- The instance with its memory bound, which has to be exported by the right name. -/
def bind (i : Instance) (exported : String) : Except BridgeFault Instance :=
  if exported = memoryExport then .ok { i with bound := true }
  else .error (.noMemory memoryExport)

/-- The instance with no memory bound. -/
def unbind (i : Instance) : Instance :=
  { i with bound := false }

end Instance

end ValueBridge
