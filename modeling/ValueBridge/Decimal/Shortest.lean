import ValueBridge.Decimal

/-!
# Shortest numerals

The *shortest numeral* of a number has the fewest digits that read back as the
number. The decimals of `n` digits form a grid around the number; if a point of
the grid reads back, so does one of the two neighbours of the number on it. So
the first grid with such a neighbour gives the numeral: the nearer of the two,
the greater one on a tie.
-/

namespace ValueBridge

namespace Binary64

/-- Below the number of places after the point that the least positive number
    needs for its first digit. -/
def leadingPlaces : Nat := 324

/-- The position of the decimal point of a positive finite number, relative to
    its first digit. -/
def decimalPoint (x : Binary64) : Int :=
  (Nat.toDigits 10 (x.quanta * Nat.pow 10 leadingPlaces / quantaPerUnit)).length - leadingPlaces

/-- Whether a positive decimal reads back as the magnitude of the number. -/
def readsBack (x : Binary64) (coefficient : Nat) (exponent : Int) : Bool :=
  (Decimal.toBinary64 ⟨false, coefficient, exponent⟩).word == x.word

/-- The neighbour of the number on the grid of `length` digits that reads back,
    if there is one; of two the nearer, and the greater one on a tie. -/
def onGrid? (x : Binary64) (length : Nat) : Option Numeral :=
  let exponent := x.decimalPoint - length
  -- The number is `num / den` units of the grid.
  let num := x.quanta * Nat.pow 10 (-exponent).toNat
  let den := quantaPerUnit * Nat.pow 10 exponent.toNat
  let below := num / den
  let nearerBelow := 2 * (num % den) < den
  if x.readsBack below exponent ∧ (nearerBelow ∨ ¬ x.readsBack (below + 1) exponent) then
    some (.ofScaled below exponent)
  else if x.readsBack (below + 1) exponent then some (.ofScaled (below + 1) exponent)
  else none

/-- The magnitude of the number in full: a quantum, the unit halved so many
    times, is a power of five at as many places after the point. -/
def exactNumeral (x : Binary64) : Numeral :=
  .ofScaled (x.quanta * Nat.pow 5 quantumPlaces) (-(quantumPlaces : Int))

/-- The most digits that a number ever needs to be read back. -/
def enoughDigits : Nat := 17

/-- The numeral of fewest digits that reads back as the magnitude of a finite
    number other than zero. -/
def shortest (x : Binary64) : Numeral :=
  ((List.range enoughDigits).findSome? fun i => x.onGrid? (i + 1)).getD x.exactNumeral

end Binary64

end ValueBridge
