import ValueBridge.Heap
import ValueBridge.Value.Number

/-!
# Properties

Reading and writing the properties of objects and functions; nothing else has
any. What was never written reads as undefined.

* The bytes of a buffer are its properties by index, and its length is the
  property `length`. A byte takes the number of the value, modulo 256. The length
  and what lies past the end are not writable, nor are they kept as properties.
* A key that is the decimal form of a natural, without leading zeros, names an index
  (`Text.index?`). An index fits in 64 bits; the decimal form of a greater natural is a
  key like any other.
* The name of a function is its property `name`, which is not writable.
-/

namespace ValueBridge

/-! ## Keys -/

namespace Text

/-- One above the greatest index. -/
def indexLimit : Nat := 0x10000000000000000

/-- The key of an index. -/
def indexKey (index : Nat) : String :=
  String.ofList (Nat.toDigits 10 index)

/-- The index that a key names, if it names one. -/
def index? (key : String) : Option Nat :=
  let digits := key.toList
  let index := Nat.ofDigitChars 10 digits 0
  if digits.all Char.isDigit ∧ Nat.toDigits 10 index = digits ∧ index < indexLimit then
    some index
  else none

end Text

/-- The key of the length of a buffer, and of an array. -/
def lengthKey : String := "length"

/-- The key of the name of a function. -/
def nameKey : String := "name"

/-! ## Properties -/

namespace ObjectCell

/-- The value of a property kept with the object. -/
def ownProperty (cell : ObjectCell) (key : String) : Value :=
  (cell.properties.get? key).getD .undefined

/-- The value of a property. -/
def get (cell : ObjectCell) (key : String) : Value :=
  match cell.bytes? with
  | none => cell.ownProperty key
  | some bytes =>
    if key = lengthKey then .number (.ofNat bytes.size)
    else match Text.index? key with
      | some index =>
        match bytes[index]? with
        | some byte => .number (.ofNat byte.toNat)
        | none => .undefined
      | none => cell.ownProperty key

/-- The object with a property written, unless it is not writable. -/
def set? (cell : ObjectCell) (key : String) (v : Value) : Option ObjectCell :=
  let written : ObjectCell := { cell with properties := cell.properties.insert key v }
  match cell.bytes? with
  | none => some written
  | some bytes =>
    if key = lengthKey then none
    else match Text.index? key with
      | some index =>
        if index < bytes.size then
          some { cell with bytes? := some (bytes.setIfInBounds index v.toByte) }
        else none
      | none => some written

end ObjectCell

namespace FunctionCell

/-- The value of a property. -/
def get (cell : FunctionCell) (key : String) : Value :=
  if key = nameKey then .string cell.name else (cell.properties.get? key).getD .undefined

/-- The function with a property written, unless it is not writable. -/
def set? (cell : FunctionCell) (key : String) (v : Value) : Option FunctionCell :=
  if key = nameKey then none
  else some { cell with properties := cell.properties.insert key v }

end FunctionCell

namespace Heap

/-- The value of a property of an object. -/
def getOf (h : Heap) (id : ObjectId) (key : String) : Value :=
  (h.object id).get key

/-- Whether a property of an object is writable, and the heap with it written. -/
def setOf (h : Heap) (id : ObjectId) (key : String) (v : Value) : Bool × Heap :=
  match (h.object id).set? key v with
  | some cell => (true, h.putObject id cell)
  | none => (false, h)

/-- The value of a property of a value, which has to be an object or a function. -/
def get (h : Heap) (target : Value) (key : String) : Except Fault Value :=
  match target with
  | .object id => .ok (h.getOf id key)
  | .function id => .ok ((h.function id).get key)
  | other => .error (.notAnObject .get other.kind)

/-- Whether a property of a value is writable, and the heap with it written; the
    value has to be an object or a function. -/
def set (h : Heap) (target : Value) (key : String) (v : Value) : Except Fault (Bool × Heap) :=
  match target with
  | .object id => .ok (h.setOf id key v)
  | .function id =>
    match (h.function id).set? key v with
    | some cell => .ok (true, h.putFunction id cell)
    | none => .ok (false, h)
  | other => .error (.notAnObject .set other.kind)

end Heap

end ValueBridge
