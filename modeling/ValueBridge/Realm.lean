import ValueBridge.Heap.Property

/-!
# Realms

A *realm* is a global object, whose properties are what a program finds by name,
with the constructors that every host has. Realms made one after the other have
nothing in common.
-/

namespace ValueBridge

/-- A global object. -/
structure Realm where
  global : ObjectId
  deriving DecidableEq

/-- A constructor that every realm has. -/
structure Builtin where
  name : String
  call? : Option Native
  construct? : Option Native

namespace Realm

/-- The constructors that every realm has. -/
def builtins : List Builtin :=
  [⟨"Object", some .objectOf, some .objectOf⟩,
    ⟨"Uint8Array", some (.requireNew "Uint8Array"), some .bufferOf⟩,
    ⟨"Symbol", some .symbolOf, none⟩,
    ⟨"String", some .textOf, none⟩]

/-- The heap with a value defined by name. -/
def define (r : Realm) (h : Heap) (name : String) (v : Value) : Heap :=
  (h.setOf r.global name v).2

/-- The value of a name; undefined if there is none. -/
def lookup (r : Realm) (h : Heap) (name : String) : Value :=
  h.getOf r.global name

/-- The heap with a constructor made and defined. -/
def install (r : Realm) (h : Heap) (b : Builtin) : Heap :=
  let (id, h) := h.newFunction b.name b.call? b.construct?
  r.define h b.name (.function id)

/-- A fresh realm. -/
def create (h : Heap) : Realm × Heap :=
  let (id, h) := h.newObject
  let r : Realm := ⟨id⟩
  (r, builtins.foldl r.install h)

end Realm

end ValueBridge
