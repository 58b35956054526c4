import ValueBridge.Binary64

/-!
# Decimals

A *decimal* is a sign, a natural coefficient and a power of ten, exact and
unbounded: what a numeral in a text denotes. The sign is kept of a zero, too.

* `Decimal.toBinary64`: the number nearest to a decimal.
* `Numeral`: the same as the digits are laid out in a text, by the position of
  the decimal point relative to the first digit.
-/

namespace ValueBridge

/-- The decimal `± coefficient * 10 ^ exponent`. -/
structure Decimal where
  negative : Bool
  coefficient : Nat
  exponent : Int
  deriving DecidableEq

namespace Decimal

/-- With this exponent or a greater one, a positive decimal is beyond the largest
    number. -/
def overflowExponent : Int := 309

/-- A positive decimal below this power of ten is below half of the least
    positive number. -/
def underflowExponent : Int := -324

/-- The number nearest to a decimal, a half going to the even neighbour; beyond
    the largest number infinity, and near zero the zero of the same sign.

    The powers of ten are computed only where they can matter. A coefficient of
    `n` binary digits has at most `n` decimal ones. -/
def toBinary64 (d : Decimal) : Binary64 :=
  if d.coefficient = 0 ∨ d.coefficient.log2 + 1 + d.exponent ≤ underflowExponent then
    .zero d.negative
  else if overflowExponent ≤ d.exponent then .infinity d.negative
  else
    .nearest d.negative (d.coefficient * Nat.pow 10 d.exponent.toNat)
      (Nat.pow 10 (-d.exponent).toNat)

end Decimal

/-- The digits of a positive decimal and the position of its point: the digits
    `d₁ d₂ …` with the point at `point` denote `0.d₁d₂… * 10 ^ point`. -/
structure Numeral where
  digits : List Char
  point : Int
  deriving DecidableEq

namespace Numeral

/-- Without the zeros at the end of the digits, which denote nothing. -/
def stripped (n : Numeral) : Numeral :=
  { n with digits := (n.digits.reverse.dropWhile (· == '0')).reverse }

/-- The numeral of `coefficient * 10 ^ exponent`, with no zero at its end. -/
def ofScaled (coefficient : Nat) (exponent : Int) : Numeral :=
  let digits := Nat.toDigits 10 coefficient
  stripped ⟨digits, digits.length + exponent⟩

/-- The decimal that a numeral denotes, with the given sign. -/
def toDecimal (n : Numeral) (negative : Bool) : Decimal :=
  ⟨negative, Nat.ofDigitChars 10 n.digits 0, n.point - n.digits.length⟩

end Numeral

end ValueBridge
