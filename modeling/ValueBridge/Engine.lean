import ValueBridge.Heap.Property

/-!
# Engines

An *engine* says what the native behaviours do: given the receiver, the arguments
and the heap, the result, or a fault, and the heap afterwards. Calling and
constructing find the behaviour of a function and leave the rest to the engine; a
construction has no receiver.

What holds for all engines holds whatever the functions of a host do.
-/

namespace ValueBridge

/-- What an operation on the heap comes to: a result or a fault, and the heap
    afterwards. -/
abbrev Outcome (α : Type) := Except Fault α × Heap

/-- The meaning of native behaviours. -/
structure Engine where
  run : Native → Value → List Value → Heap → Outcome Value

namespace Heap

/-- The behaviour for calls of a value. -/
def callBehaviour (h : Heap) : Value → Except Fault Native
  | .function id =>
    match (h.function id).call? with
    | some native => .ok native
    | none => .error (.notCallable .function)
  | other => .error (.notCallable other.kind)

/-- The behaviour for constructions by a value. -/
def constructBehaviour (h : Heap) : Value → Except Fault Native
  | .function id =>
    match (h.function id).construct? with
    | some native => .ok native
    | none => .error (.notConstructor .function)
  | other => .error (.notConstructor other.kind)

end Heap

namespace Engine

/-- A call of a value on a receiver. -/
def call (e : Engine) (f receiver : Value) (args : List Value) (h : Heap) : Outcome Value :=
  match h.callBehaviour f with
  | .ok native => e.run native receiver args h
  | .error fault => (.error fault, h)

/-- A construction by a value. -/
def construct (e : Engine) (f : Value) (args : List Value) (h : Heap) : Outcome Value :=
  match h.constructBehaviour f with
  | .ok native => e.run native .undefined args h
  | .error fault => (.error fault, h)

end Engine

end ValueBridge
