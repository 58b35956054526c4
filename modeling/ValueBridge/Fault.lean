import ValueBridge.Value

/-!
# Faults

The reasons for which the host refuses an operation on values, and the bridge one of
its own, and their texts. A fault of the host keeps its text on the way through the
bridge.
-/

namespace ValueBridge

/-! ## Faults of the host -/

/-- The two ways in which a property is accessed. -/
inductive Access where
  | get
  | set
  deriving DecidableEq

/-- The name of an access. -/
def Access.name : Access → String
  | .get => "get"
  | .set => "set"

/-- A reason for which the host refuses an operation. -/
inductive Fault where
  /-- A property of something that has none. -/
  | notAnObject (access : Access) (kind : Kind)
  /-- A call of something that cannot be called. -/
  | notCallable (kind : Kind)
  /-- A construction by something that cannot construct. -/
  | notConstructor (kind : Kind)
  /-- A call of a function that only constructs. -/
  | requiresNew (name : String)
  /-- The text of a symbol, which is never implied. -/
  | symbolToString
  /-- A value of a wrong type. -/
  | typeError (text : String)
  /-- A number out of range. -/
  | rangeError (text : String)
  deriving DecidableEq

/-- The text of a fault. -/
def Fault.message : Fault → String
  | .notAnObject access kind =>
    "reflective " ++ access.name ++ " called on non-object (" ++ kind.name ++ ")"
  | .notCallable kind => "value of type " ++ kind.name ++ " is not callable"
  | .notConstructor kind => "value of type " ++ kind.name ++ " is not a constructor"
  | .requiresNew name => "constructor " ++ name ++ " requires 'new'"
  | .symbolToString => "cannot convert a symbol to a string"
  | .typeError text => "type error: " ++ text
  | .rangeError text => "range error: " ++ text

/-! ## Faults of the bridge -/

/-- A reason for which the bridge refuses an operation. -/
inductive BridgeFault where
  /-- The host refuses. -/
  | host (fault : Fault)
  /-- A slot that was never handed out. -/
  | unknownSlot (id : UInt32)
  /-- A slot that is free. -/
  | releasedSlot (id : UInt32)
  /-- No slot is left. -/
  | tableFull
  /-- Bytes that are not all in memory. -/
  | outOfBounds (addr : UInt32) (length size : Nat)
  /-- A text whose length is no word. -/
  | textTooLong (length : Nat)
  /-- A text that is no configuration, and why. -/
  | badConfig (reason : String)
  /-- An import that cannot be defined, and why. -/
  | undefinable (name reason : String)
  /-- A memory that a guest does not export. -/
  | noMemory (name : String)
  deriving DecidableEq

/-- The text of a fault. -/
def BridgeFault.message : BridgeFault → String
  | .host fault => fault.message
  | .unknownSlot id => "unknown value slot " ++ toString id.toNat
  | .releasedSlot id => "value slot " ++ toString id.toNat ++ " has been released"
  | .tableFull => "value table is full"
  | .outOfBounds addr length size =>
    "memory access out of bounds: " ++ toString length ++ " bytes at " ++ toString addr.toNat ++
      " (memory size " ++ toString size ++ ")"
  | .textTooLong length =>
    "string of " ++ toString length ++ " bytes exceeds the 32-bit length channel"
  | .badConfig reason => "invalid bridge configuration: " ++ reason
  | .undefinable name reason => "failed to define import `" ++ name ++ "`: " ++ reason
  | .noMemory name => "instance does not export a memory named `" ++ name ++ "`"

end ValueBridge
