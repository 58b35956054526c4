import ValueBridge.Binary64

/-!
# Host values

A *value* is a primitive, which is all there is to it, or the identity of
something that the host keeps: an object, a function or a symbol (see
`ValueBridge.Heap`). Identities are handed out in order and never twice.

* `Value.kind`: the classification that programs see, in which null is an object;
* `Value.strictEqual`: numbers by their value, strings by their content, and
  what has an identity by its identity.
-/

namespace ValueBridge

/-- The identity of an object. -/
structure ObjectId where
  index : Nat
  deriving DecidableEq

/-- The identity of a function. -/
structure FunctionId where
  index : Nat
  deriving DecidableEq

/-- The identity of a symbol. -/
structure SymbolId where
  index : Nat
  deriving DecidableEq

/-- The kind of a value, as programs are told. -/
inductive Kind where
  | undefined
  | object
  | boolean
  | number
  | string
  | symbol
  | function
  deriving DecidableEq

namespace Kind

/-- All kinds. -/
def all : List Kind :=
  [.undefined, .object, .boolean, .number, .string, .symbol, .function]

/-- The name of a kind. -/
def name : Kind → String
  | .undefined => "undefined"
  | .object => "object"
  | .boolean => "boolean"
  | .number => "number"
  | .string => "string"
  | .symbol => "symbol"
  | .function => "function"

/-- The name of a kind, as it stands in inspections. -/
def title (k : Kind) : String :=
  k.name.capitalize

end Kind

/-- A host value. -/
inductive Value where
  | undefined
  | null
  | bool (b : Bool)
  | number (x : Binary64)
  | string (s : String)
  | symbol (id : SymbolId)
  | object (id : ObjectId)
  | function (id : FunctionId)
  deriving DecidableEq, Inhabited

namespace Value

/-- The kind of a value. -/
def kind : Value → Kind
  | .undefined => .undefined
  | .null => .object
  | .bool _ => .boolean
  | .number _ => .number
  | .string _ => .string
  | .symbol _ => .symbol
  | .object _ => .object
  | .function _ => .function

/-- Whether the value is a number that is a NaN. -/
def isNaN : Value → Bool
  | .number x => x.isNaN
  | _ => false

/-- The number that a value is, if it is one. -/
def number? : Value → Option Binary64
  | .number x => some x
  | _ => none

/-- The boolean that a value is, if it is one. -/
def bool? : Value → Option Bool
  | .bool b => some b
  | _ => none

/-- The text that a value is, if it is one. -/
def string? : Value → Option String
  | .string s => some s
  | _ => none

/-- The object that a value is, if it is one. -/
def object? : Value → Option ObjectId
  | .object id => some id
  | _ => none

/-- The function that a value is, if it is one. -/
def function? : Value → Option FunctionId
  | .function id => some id
  | _ => none

/-- Strict equality: that of numbers for numbers, and identity for the rest, so
    that a NaN differs from itself and the zeros do not differ. -/
def strictEqual : Value → Value → Bool
  | .number x, .number y => x.equal y
  | v, w => v == w

end Value

end ValueBridge
