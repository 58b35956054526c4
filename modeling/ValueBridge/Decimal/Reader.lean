import ValueBridge.Decimal

/-!
# Reading numbers

A number is read from a text that is an optional sign followed by

* a decimal: digits with at most one point among or beside them, and at least
  one digit in all; then possibly `e` or `E`, an optional sign and at least one
  digit;
* or `inf` or `infinity`, in any case of the letters.

Every other text reads as NaN. Blanks are not part of a number; whoever allows
them around it removes them first.

An exponent takes no further digits once it has reached `exponentLimit`, far
beyond the exponent of any number: only a decimal that has tens of thousands of
digits of its own can come out other than it is written.
-/

namespace ValueBridge

namespace Decimal

/-- Whether a text starts with a minus sign, and the text after its sign. -/
def splitSign : List Char → Bool × List Char
  | '-' :: rest => (true, rest)
  | '+' :: rest => (false, rest)
  | rest => (false, rest)

/-! ## Digits -/

/-- The natural of digits read so far, in two parts: the finished blocks of
    digits, and the block that still grows, with its power of ten. A digit is put
    to a long natural at the cost of its length, and so only to a short one. -/
structure Blocks where
  finished : Nat
  growing : Nat
  power : Nat

namespace Blocks

/-- The power of ten at which a block is finished. -/
def fullPower : Nat := Nat.pow 10 1000

/-- The natural of the digits read. -/
def value (b : Blocks) : Nat :=
  b.finished * b.power + b.growing

/-- No digits. -/
def empty : Blocks := ⟨0, 0, 1⟩

/-- One digit more. -/
def push (b : Blocks) (d : Char) : Blocks :=
  let growing := 10 * b.growing + (d.toNat - '0'.toNat)
  let power := 10 * b.power
  if power < fullPower then ⟨b.finished, growing, power⟩
  else ⟨b.finished * power + growing, 0, 1⟩

theorem value_push (b : Blocks) (d : Char) :
    (b.push d).value = 10 * b.value + (d.toNat - '0'.toNat) := by
  rw [push, value, value]
  split
  · simp only [Nat.mul_add, Nat.mul_left_comm, Nat.add_assoc]
  · simp only [Nat.mul_add, Nat.mul_left_comm, Nat.add_assoc, Nat.mul_one, Nat.add_zero]

end Blocks

/-- The natural written by digits. -/
def natural (digits : List Char) : Nat :=
  (digits.foldl Blocks.push .empty).value

theorem value_foldl_push (digits : List Char) (b : Blocks) :
    (digits.foldl Blocks.push b).value = Nat.ofDigitChars 10 digits b.value := by
  induction digits generalizing b with
  | nil => rfl
  | cons d digits ih => rw [List.foldl_cons, ih, Blocks.value_push, Nat.ofDigitChars_cons]

/-- The blocks make no difference to the natural. -/
theorem natural_eq (digits : List Char) : natural digits = Nat.ofDigitChars 10 digits 0 :=
  value_foldl_push digits .empty

/-! ## Parts of a numeral -/

/-- The digits at the start of a text, and what follows them. -/
def splitDigits (cs : List Char) : List Char × List Char :=
  (cs.takeWhile Char.isDigit, cs.dropWhile Char.isDigit)

/-- The digits after a point at the start of a text, and what follows them;
    without a point there are none. -/
def splitFraction : List Char → List Char × List Char
  | '.' :: rest => splitDigits rest
  | rest => ([], rest)

/-- A magnitude of an exponent from here on takes no further digit. -/
def exponentLimit : Nat := 0x10000

/-- The magnitude of an exponent, by its digits. -/
def exponentMagnitude (digits : List Char) : Nat :=
  digits.foldl (fun m d => if m < exponentLimit then 10 * m + (d.toNat - '0'.toNat) else m) 0

/-- An exponent, the end of a numeral: nothing, which stands for 0, or `e` or
    `E`, an optional sign and at least one digit. -/
def readExponent? : List Char → Option Int
  | [] => some 0
  | mark :: rest =>
    let (negative, digits) := splitSign rest
    if (mark = 'e' ∨ mark = 'E') ∧ digits ≠ [] ∧ digits.all Char.isDigit then
      let magnitude := exponentMagnitude digits
      some (if negative then -(magnitude : Int) else magnitude)
    else none

/-- The decimal written in a text, if it is one. -/
def read? (cs : List Char) : Option Decimal :=
  let (negative, unsigned) := splitSign cs
  let (whole, afterWhole) := splitDigits unsigned
  let (fraction, afterFraction) := splitFraction afterWhole
  if whole ++ fraction = [] then none
  else (readExponent? afterFraction).map fun exponent =>
    ⟨negative, natural (whole ++ fraction), exponent - fraction.length⟩

end Decimal

namespace Binary64

/-- The infinity written in a text, if it is one. -/
def readInfinity? (cs : List Char) : Option Binary64 :=
  let (negative, name) := Decimal.splitSign cs
  let lower := name.map Char.toLower
  if lower = "inf".toList ∨ lower = "infinity".toList then some (.infinity negative) else none

/-- The number written in a text; NaN if it is none. -/
def read (cs : List Char) : Binary64 :=
  match Decimal.read? cs with
  | some decimal => decimal.toBinary64
  | none => (readInfinity? cs).getD nan

end Binary64

end ValueBridge
