import ValueBridge.Decimal.Layout
import ValueBridge.Text.Quoted
import ValueBridge.Value

/-!
# References

A *reference* is a 64-bit pattern by which a value travels through the memory of
a guest. Read as a binary64 number, it is one of three things:

* a number, which stands for itself, if it is no NaN;
* a *boxed* slot, if its high word is the mark `0x7FFC0000` but for the last four
  bits: the low word is the slot, and the four bits are a tag that tells what the
  slot holds (`Tag`). No reader depends on the tag;
* a *foreign* NaN otherwise, such as arithmetic produces.

The mark sets one bit more than the NaN of arithmetic, so that the two never
meet.
-/

namespace ValueBridge

/-! ## Tags -/

/-- What a boxed reference tells about its slot. -/
inductive Tag where
  | none
  | object
  | string
  | symbol
  | function
  deriving DecidableEq

namespace Tag

/-- All tags. -/
def all : List Tag :=
  [.none, .object, .string, .symbol, .function]

/-- The bits of a tag. -/
def code : Tag → Nat
  | .none => 0
  | .object => 1
  | .string => 2
  | .symbol => 3
  | .function => 4

/-- The tag of its bits, if they are those of one. -/
def ofCode? : Nat → Option Tag
  | 0 => some .none
  | 1 => some .object
  | 2 => some .string
  | 3 => some .symbol
  | 4 => some .function
  | _ => Option.none

/-- The name of a tag. -/
def name : Tag → String
  | .none => "none"
  | .object => "object"
  | .string => "string"
  | .symbol => "symbol"
  | .function => "function"

/-- The name of a tag, as it stands in logs and inspections. -/
def title (t : Tag) : String :=
  t.name.capitalize

/-- The tag of a value. Only what has an identity, and strings, have one of their
    own. -/
def ofValue : Value → Tag
  | .object _ => .object
  | .string _ => .string
  | .symbol _ => .symbol
  | .function _ => .function
  | .undefined | .null | .bool _ | .number _ => .none

end Tag

/-! ## References -/

/-- A reference, by its bit pattern. -/
structure Ref where
  bits : UInt64
  deriving DecidableEq

namespace Ref

/-- The high word of a boxed reference without its tag. -/
def mark : Nat := 0x7FFC0000

/-- The bits of the high word that hold the tag. -/
def tagMask : Nat := 0xF

/-- The number of patterns of the tag bits. -/
def tagSize : Nat := tagMask + 1

/-- The number of patterns of a word. -/
def wordSize : Nat := 0x100000000

/-- The high word of a reference. -/
def high (r : Ref) : Nat :=
  r.bits.toNat / wordSize

/-- The low word of a reference. -/
def low (r : Ref) : UInt32 :=
  UInt32.ofNat (r.bits.toNat % wordSize)

/-- Whether the reference is a boxed slot. -/
def isBoxed (r : Ref) : Bool :=
  r.high / tagSize == mark / tagSize

/-- The slot of a boxed reference. -/
def slot? (r : Ref) : Option UInt32 :=
  if r.isBoxed then some r.low else none

/-- The tag of a boxed reference, if its bits are those of one. -/
def tag? (r : Ref) : Option Tag :=
  if r.isBoxed then Tag.ofCode? (r.high % tagSize) else none

/-- The reference read as a binary64 number. -/
def toBinary64 (r : Ref) : Binary64 :=
  ⟨r.bits⟩

/-- The number that a reference stands for, unless it is a NaN. -/
def number? (r : Ref) : Option Binary64 :=
  if r.toBinary64.isNaN then none else some r.toBinary64

/-- The boxed reference of a slot. -/
def boxed (slot : UInt32) (tag : Tag) : Ref :=
  ⟨UInt64.ofNat ((mark + tag.code) * wordSize + slot.toNat)⟩

/-- The reference of a number, which is to be no NaN. -/
def ofNumber (x : Binary64) : Ref :=
  ⟨x.bits⟩

/-- A slot as a binary64 number: its boxed reference, without a tag. -/
def encode (slot : UInt32) : Binary64 :=
  (boxed slot .none).toBinary64

/-- The slot that a binary64 number boxes, if it boxes one. -/
def decode? (x : Binary64) : Option UInt32 :=
  (Ref.mk x.bits).slot?

/-- The text of a reference for inspection. -/
def inspect (r : Ref) : String :=
  match r.slot?, r.number? with
  | some slot, _ =>
    let tag := match r.tag? with
      | some tag => "Some(" ++ tag.title ++ ")"
      | none => "None"
    "Ref(#" ++ toString slot.toNat ++ ", " ++ tag ++ ")"
  | none, some x => "Ref(" ++ x.plainText ++ ")"
  | none, none => "Ref(NaN " ++ Text.hexWord r.bits ++ ")"

end Ref

end ValueBridge
