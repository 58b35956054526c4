/-!
# Binary64 numbers

A *number* is a 64-bit pattern of the binary64 interchange format. The pattern
itself is kept, rather than the number it denotes, as references to values
share the space of patterns with numbers and not every NaN is a number to the
program (see `ValueBridge.Ref`).

Every finite number is a whole multiple of the *quantum* `2 ^ -1074`, the least
positive number, so that its magnitude is exactly a natural number of quanta
(`Binary64.quanta`), and all arithmetic below is arithmetic of natural numbers:

* `Binary64.nearest`: the number nearest to a quotient, a half going to the
  even neighbour and what lies beyond the largest number to infinity;
* `Binary64.add`: the sum, rounded once;
* `Binary64.truncate`, `Binary64.integerPart`: the integer part toward zero;
* `Binary64.remainder`, `Binary64.euclideanRemainder`: the remainders of a division;
* `Binary64.toByte`: the integer part modulo 256, by such a division.
-/

namespace ValueBridge

/-- A binary64 number, by its bit pattern. -/
structure Binary64 where
  bits : UInt64
  deriving DecidableEq, Inhabited

namespace Binary64

/-! ## The fields of a pattern -/

/-- The number of patterns of one sign and exponent: the fraction field has 52
    bits. -/
def fractionSize : Nat := 0x10000000000000

/-- The number of patterns of the exponent field, which has 11 bits. -/
def exponentSize : Nat := 0x800

/-- The number of patterns of one sign. -/
def signSize : Nat := 0x8000000000000000

/-- The exponent field of infinities and NaNs. -/
def exponentOnes : Nat := 2047

/-- Whether the sign bit is set. -/
def negative (x : Binary64) : Bool :=
  signSize ≤ x.bits.toNat

/-- The exponent field. -/
def exponentField (x : Binary64) : Nat :=
  x.bits.toNat / fractionSize % exponentSize

/-- The fraction field. -/
def fractionField (x : Binary64) : Nat :=
  x.bits.toNat % fractionSize

/-- The pattern without its sign bit. -/
def word (x : Binary64) : Nat :=
  x.bits.toNat % signSize

/-- The number of the given sign and unsigned pattern. -/
def ofWord (negative : Bool) (word : Nat) : Binary64 :=
  ⟨UInt64.ofNat (bif negative then signSize + word else word)⟩

/-! ## Classes of numbers -/

/-- The unsigned pattern of infinity; NaNs are above it, finite numbers below. -/
def infinityWord : Nat := exponentOnes * fractionSize

/-- Whether the pattern is that of a NaN, of either sign and any payload. -/
def isNaN (x : Binary64) : Bool :=
  infinityWord < x.word

/-- Whether the number is finite. -/
def isFinite (x : Binary64) : Bool :=
  x.word < infinityWord

/-- Whether the number is a zero, of either sign. -/
def isZero (x : Binary64) : Bool :=
  x.word == 0

/-- The infinity of the given sign. -/
def infinity (negative : Bool) : Binary64 :=
  ofWord negative infinityWord

/-- The zero of the given sign. -/
def zero (negative : Bool) : Binary64 :=
  ofWord negative 0

/-- The NaN that arithmetic produces: quiet, and otherwise without payload. -/
def nan : Binary64 :=
  ⟨0x7ff8000000000000⟩

/-- Equality of numbers: a NaN equals nothing, and the zeros equal each other. -/
def equal (x y : Binary64) : Bool :=
  !x.isNaN && !y.isNaN && (x == y || x.isZero && y.isZero)

/-! ## Magnitude in quanta -/

/-- The significand of a finite number, with the leading bit of a normal number. -/
def significand (x : Binary64) : Nat :=
  if x.exponentField = 0 then x.fractionField else fractionSize + x.fractionField

/-- The magnitude of a finite number, in quanta. -/
def quanta (x : Binary64) : Nat :=
  x.significand * Nat.pow 2 (x.exponentField - 1)

/-- A quantum is the unit halved this many times. -/
def quantumPlaces : Nat := 1074

/-- The number of quanta in 1. -/
def quantaPerUnit : Nat := Nat.pow 2 quantumPlaces

/-- The quotient of two naturals rounded to the nearest natural, a half going to
    the even one. -/
def roundHalfEven (num den : Nat) : Nat :=
  let q := num / den
  let r := num % den
  if 2 * r < den then q
  else if den < 2 * r then q + 1
  else q + q % 2

/-- The unsigned pattern of the number nearest to `num / den` quanta.

    The significand of a number has at most 53 bits, so a quotient of more bits
    is rounded at the distance `shift` from its end. The patterns of one shift
    follow those of the previous one without a gap, and a significand rounded up
    to 54 bits is the first of the next shift; hence one sum for all cases. -/
def nearestWord (num den : Nat) : Nat :=
  -- The distance is none for a significand that fits, as subtraction stops at 0.
  let shift := (num / den).log2 - 52
  min (shift * fractionSize + roundHalfEven num (den * Nat.pow 2 shift)) infinityWord

/-- The number nearest to `num / den`, with the given sign; a half goes to the
    even neighbour. -/
def nearest (negative : Bool) (num den : Nat) : Binary64 :=
  ofWord negative (nearestWord (num * quantaPerUnit) den)

/-- The number nearest to a natural. -/
def ofNat (n : Nat) : Binary64 :=
  nearest false n 1

/-- The number of the given sign nearest to a number of quanta. -/
def ofQuanta (negative : Bool) (n : Nat) : Binary64 :=
  ofWord negative (nearestWord n 1)

/-! ## Arithmetic -/

/-- The value of a finite number in quanta, with its sign. -/
def signedQuanta (x : Binary64) : Int :=
  bif x.negative then -(x.quanta : Int) else x.quanta

/-- The sum of two numbers, rounded to nearest. A sum of zero is positive unless
    both numbers are negative; infinities of opposite signs have no sum. -/
def add (x y : Binary64) : Binary64 :=
  if x.isNaN || y.isNaN then nan
  else if x.isFinite && y.isFinite then
    let sum := x.signedQuanta + y.signedQuanta
    ofQuanta (if sum = 0 then x.negative && y.negative else sum < 0) sum.natAbs
  else if x.isFinite then y
  else if y.isFinite || x == y then x
  else nan

/-- The integer part toward zero of a finite number; 0 for the others. -/
def integerPart (x : Binary64) : Int :=
  if x.isFinite then
    let magnitude := x.quanta / quantaPerUnit
    bif x.negative then -(magnitude : Int) else magnitude
  else 0

/-- The integer part toward zero as a number. Infinities and NaNs are their own. -/
def truncate (x : Binary64) : Binary64 :=
  if x.isFinite then ofQuanta x.negative (x.quanta / quantaPerUnit * quantaPerUnit) else x

/-! ## Bytes -/

/-- The number without its sign. -/
def abs (x : Binary64) : Binary64 :=
  ofWord false x.word

/-- Whether the number is less than zero. -/
def isBelowZero (x : Binary64) : Bool :=
  x.negative && !x.isZero && !x.isNaN

/-- What a division toward zero leaves of the first number, with its sign. An infinite divisor
    leaves all of it; infinities cannot be divided, nor can anything by zero. -/
def remainder (x y : Binary64) : Binary64 :=
  if x.isNaN || y.isNaN || !x.isFinite || y.isZero then nan
  else if y.isFinite then ofQuanta x.negative (x.quanta % y.quanta)
  else x

/-- The remainder that is not negative: if what a division toward zero leaves is less than zero,
    the divisor is added. -/
def euclideanRemainder (x y : Binary64) : Binary64 :=
  let r := x.remainder y
  if r.isBelowZero then r.add y.abs else r

/-- The largest byte. -/
def maxByte : Nat := 255

/-- The byte that is nearest to the integer part; 0 for a NaN. -/
def saturatedByte (x : Binary64) : UInt8 :=
  if x.isNaN then 0
  else if x.isFinite then UInt8.ofNat (min x.integerPart.toNat maxByte)
  else if x.negative then 0
  else UInt8.ofNat maxByte

/-- The byte that a number is stored as: that of its integer part modulo the number of bytes, which
    is divided as a number. Infinities and NaNs are stored as 0. -/
def toByte (x : Binary64) : UInt8 :=
  if x.isFinite then (x.truncate.euclideanRemainder (ofNat (maxByte + 1))).saturatedByte else 0

end Binary64

end ValueBridge
