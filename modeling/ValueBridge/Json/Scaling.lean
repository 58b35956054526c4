import ValueBridge.Json
import ValueBridge.Json.Token

/-!
# Numbers of documents

What a number of a document denotes. Plain digits denote an integer, if it has a
place among the integers of 64 bits. Every other number is put together, by the
arithmetic of numbers, from the leading digits that fit in 64 bits and a power
of ten.

* `NumberForm.leading`: the digits that fit, and the power of ten to scale by;
* `Binary64.scaled?`: a natural scaled by a power of ten, if it stays finite;
* `NumberForm.toNumber?`: the number that is denoted.

The scaling rounds at each step. Up to fifteen digits and powers up to the 22nd
are exact before the last step, so that the outcome is the nearest number; of
more digits, or farther out, it can be a neighbour of that.
-/

namespace ValueBridge

namespace Binary64

/-- The greatest power of ten that scales in one step. -/
def largestPower : Nat := 308

/-- The number nearest to a power of ten. -/
def powerOfTen (n : Nat) : Binary64 :=
  ofNat (Nat.pow 10 n)

/-- The product of two positive numbers, rounded to nearest. -/
def mulPositive (x y : Binary64) : Binary64 :=
  nearest false (x.quanta * y.quanta) (quantaPerUnit * quantaPerUnit)

/-- The quotient of two positive numbers, rounded to nearest. -/
def divPositive (x y : Binary64) : Binary64 :=
  nearest false x.quanta y.quanta

/-- A number scaled down by a power of ten: by the greatest power first, where
    the power is beyond it. Nothing is left of a number of 64 bits scaled by
    the greatest power twice. -/
def scaledDown (x : Binary64) (n : Nat) : Binary64 :=
  if n ≤ largestPower then x.divPositive (powerOfTen n)
  else if n ≤ 2 * largestPower then
    (x.divPositive (powerOfTen largestPower)).divPositive (powerOfTen (n - largestPower))
  else .zero false

/-- A number scaled up by a power of ten, if it stays finite. -/
def scaledUp? (x : Binary64) (n : Nat) : Option Binary64 :=
  if n ≤ largestPower then
    let y := x.mulPositive (powerOfTen n)
    if y.isFinite then some y else none
  else none

/-- A natural scaled by a power of ten, if it stays finite. -/
def scaled? (n : Nat) (power : Int) : Option Binary64 :=
  if n = 0 then some (.zero false)
  else if power < 0 then some ((ofNat n).scaledDown power.natAbs)
  else (ofNat n).scaledUp? power.natAbs

end Binary64

namespace Json

/-- The natural of digits after those already read, as far as it fits in 64 bits,
    and the digits that are left. -/
def fillWord (n : Nat) : List Char → Nat × List Char
  | [] => (n, [])
  | d :: ds =>
    let extended := 10 * n + (d.toNat - '0'.toNat)
    if extended < UInt64.size then fillWord extended ds else (n, d :: ds)

namespace NumberForm

/-- The integer of plain digits, if it has a place among the signed or unsigned
    ones of 64 bits. There is no negative zero. -/
def integer? (n : NumberForm) : Option Int :=
  if n.fraction = [] ∧ n.exponent? = none then
    let magnitude := Nat.ofDigitChars 10 n.whole 0
    if n.negative then
      if 0 < magnitude ∧ magnitude ≤ Binary64.signSize then some (-(magnitude : Int)) else none
    else if magnitude < UInt64.size then some magnitude else none
  else none

/-- The leading digits that fit in 64 bits, and the power of ten to scale them by.
    Digits after the point follow even if digits before it did not fit. -/
def leading (n : NumberForm) : Nat × Int :=
  let (whole, beyond) := fillWord 0 n.whole
  let (natural, dropped) := fillWord whole n.fraction
  let shift : Int := beyond.length + dropped.length - n.fraction.length
  (natural, shift + n.exponent?.getD 0)

/-- The number that a document's number denotes, unless it is too large. -/
def toNumber? (n : NumberForm) : Option Number :=
  match n.integer? with
  | some i => some (.integer i)
  | none =>
    let (natural, power) := n.leading
    (Binary64.scaled? natural power).map fun x => .double (.ofWord n.negative x.word)

end NumberForm

end Json

end ValueBridge
