import ValueBridge.Native
import ValueBridge.PropertyMap
import ValueBridge.Value

/-!
# The heap

What the host keeps of the things that have an identity, in the order in which
they were made:

* an *object* has properties, and is a byte buffer if it has bytes as well;
* a *function* has a name, a behaviour for calls and one for constructions, each
  of which may be missing, and properties;
* a *symbol* has a description, or none.

Nothing is ever removed, so that a fresh identity differs from all others.
-/

namespace ValueBridge

/-- What the host keeps of an object. -/
structure ObjectCell where
  properties : PropertyMap Value
  bytes? : Option (Array UInt8)

/-- An object without properties. -/
def ObjectCell.plain : ObjectCell := ⟨.empty, none⟩

/-- What the host keeps of a function. -/
structure FunctionCell where
  name : String
  call? : Option Native
  construct? : Option Native
  properties : PropertyMap Value

/-- A function without a name, behaviours or properties. -/
def FunctionCell.inert : FunctionCell := ⟨"", none, none, .empty⟩

/-- Everything with an identity. -/
structure Heap where
  objects : Array ObjectCell
  functions : Array FunctionCell
  symbols : Array (Option String)

namespace Heap

/-- The heap before anything is made. -/
def empty : Heap := ⟨#[], #[], #[]⟩

/-! ## What an identity stands for -/

/-- The object of an identity. An identity that was never handed out would stand
    for an object without properties. -/
def object (h : Heap) (id : ObjectId) : ObjectCell :=
  h.objects.getD id.index .plain

/-- The function of an identity. -/
def function (h : Heap) (id : FunctionId) : FunctionCell :=
  h.functions.getD id.index .inert

/-- The description of a symbol. -/
def description? (h : Heap) (id : SymbolId) : Option String :=
  h.symbols.getD id.index none

/-- The bytes of a value that is a buffer. -/
def bytes? (h : Heap) : Value → Option (Array UInt8)
  | .object id => (h.object id).bytes?
  | _ => none

/-! ## Changes -/

/-- The heap with another cell for an object. -/
def putObject (h : Heap) (id : ObjectId) (cell : ObjectCell) : Heap :=
  { h with objects := h.objects.setIfInBounds id.index cell }

/-- The heap with another cell for a function. -/
def putFunction (h : Heap) (id : FunctionId) (cell : FunctionCell) : Heap :=
  { h with functions := h.functions.setIfInBounds id.index cell }

/-- A fresh object of the given cell. -/
def allocObject (h : Heap) (cell : ObjectCell) : ObjectId × Heap :=
  (⟨h.objects.size⟩, { h with objects := h.objects.push cell })

/-- A fresh object without properties. -/
def newObject (h : Heap) : ObjectId × Heap :=
  h.allocObject .plain

/-- A fresh buffer with the given bytes. -/
def newBuffer (h : Heap) (bytes : Array UInt8) : ObjectId × Heap :=
  h.allocObject ⟨.empty, some bytes⟩

/-- A fresh function of the given name and behaviours. -/
def newFunction (h : Heap) (name : String) (call? construct? : Option Native) :
    FunctionId × Heap :=
  (⟨h.functions.size⟩, { h with functions := h.functions.push ⟨name, call?, construct?, .empty⟩ })

/-- A fresh symbol with the given description. -/
def newSymbol (h : Heap) (description? : Option String) : SymbolId × Heap :=
  (⟨h.symbols.size⟩, { h with symbols := h.symbols.push description? })

end Heap

end ValueBridge
