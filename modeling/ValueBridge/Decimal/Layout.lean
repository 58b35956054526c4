import ValueBridge.Decimal.Shortest

/-!
# Number texts

Two texts of a number, both of its shortest numeral:

* `Binary64.hostText`, the host's own: positional from `1e-6` up to but not
  including `1e21`, and with an exponent outside;
* `Binary64.plainText`, always positional, which also tells the zeros apart.
-/

namespace ValueBridge

namespace Numeral

/-- As many zeros as a count has units, none if it is negative. -/
def zeros (count : Int) : List Char :=
  List.replicate count.toNat '0'

/-- The digits with the point written at its place. -/
def positional (n : Numeral) : List Char :=
  if n.digits.length ≤ n.point then n.digits ++ zeros (n.point - n.digits.length)
  else if 0 < n.point then
    n.digits.take n.point.toNat ++ '.' :: n.digits.drop n.point.toNat
  else '0' :: '.' :: (zeros (-n.point) ++ n.digits)

/-- The digits with the point after the first one, and the exponent. -/
def exponential (n : Numeral) : List Char :=
  let exponent := n.point - 1
  let fraction := n.digits.drop 1
  n.digits.take 1 ++ (if fraction.isEmpty then [] else '.' :: fraction) ++
    'e' :: (if exponent < 0 then '-' else '+') :: Nat.toDigits 10 exponent.natAbs

/-- The host writes a number positionally if its point is after this position. -/
def positionalAfter : Int := -6

/-- The host writes a number positionally if its point is at most here. -/
def positionalUpTo : Int := 21

/-- The digits as the host lays them out. -/
def hostLayout (n : Numeral) : List Char :=
  if positionalAfter < n.point ∧ n.point ≤ positionalUpTo then n.positional else n.exponential

end Numeral

namespace Binary64

/-- A text with a minus sign in front if asked for. -/
def signed (negative : Bool) (text : List Char) : List Char :=
  if negative then '-' :: text else text

/-- The host's text of a number. Both zeros are written alike. -/
def hostChars (x : Binary64) : List Char :=
  if x.isNaN then "NaN".toList
  else if x.isZero then ['0']
  else signed x.negative (if x.isFinite then x.shortest.hostLayout else "Infinity".toList)

/-- The host's text of a number. -/
def hostText (x : Binary64) : String :=
  String.ofList x.hostChars

/-- The text of a number without any exponent, by which zeros are told apart. -/
def plainText (x : Binary64) : String :=
  if x.isNaN then "NaN"
  else String.ofList <| signed x.negative <|
    if x.isZero then ['0'] else if x.isFinite then x.shortest.positional else "inf".toList

end Binary64

end ValueBridge
