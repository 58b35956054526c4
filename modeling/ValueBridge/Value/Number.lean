import ValueBridge.Decimal.Reader
import ValueBridge.Fault

/-!
# The number of a value

Every value but a symbol counts as a number: a text as the number written in it,
between blanks, and nothing but blanks as 0; what has no number as NaN. Blanks are the
characters of the Unicode property `White_Space`.
-/

namespace ValueBridge

namespace Text

/-- Whether the character has the property `White_Space`. -/
def isBlank (c : Char) : Bool :=
  let code := c.toNat
  0x09 ≤ code && code ≤ 0x0D || code == 0x20 || code == 0x85 || code == 0xA0 || code == 0x1680 ||
    0x2000 ≤ code && code ≤ 0x200A || code == 0x2028 || code == 0x2029 || code == 0x202F ||
    code == 0x205F || code == 0x3000

/-- A text without the blanks at its start and its end. -/
def trim (cs : List Char) : List Char :=
  ((cs.dropWhile isBlank).reverse.dropWhile isBlank).reverse

end Text

/-- The number of a text. -/
def Binary64.ofText (s : String) : Binary64 :=
  let cs := Text.trim s.toList
  if cs = [] then .zero false else .read cs

namespace Value

/-- The number of a value; a symbol has none and is refused. -/
def toNumber : Value → Except Fault Binary64
  | .undefined => .ok .nan
  | .null => .ok (.zero false)
  | .bool b => .ok (if b then .ofNat 1 else .zero false)
  | .number x => .ok x
  | .string s => .ok (.ofText s)
  | .symbol _ => .error (.typeError "cannot convert a symbol to a number")
  | .object _ => .ok .nan
  | .function _ => .ok .nan

/-- The byte of a value: its number modulo 256, and 0 for a symbol. -/
def toByte (v : Value) : UInt8 :=
  match v.toNumber with
  | .ok x => x.toByte
  | .error _ => 0

end Value

end ValueBridge
