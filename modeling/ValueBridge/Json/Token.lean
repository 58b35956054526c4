import ValueBridge.Decimal.Reader
import ValueBridge.Text.Quoted

/-!
# JSON tokens

The words of a JSON document: brackets, separators, the three names, numbers and
strings, with blanks between them. Two tokens never stand together without a
separator in a document, so that the longest word at each place is the right one.

A string may hold unpaired surrogates, by escapes, and is then no text: a token
keeps the code points of a string (`Token.string`), and `text?` gives the text if
there is one. In a string that is written, quotation marks, backslashes and control
characters have an escape of two characters or the four digits of their code (`quoted`).
A number is kept as it is written (`NumberForm`), as some places admit plain digits only.
-/

namespace ValueBridge.Json

/-- A number as it is written: the digits before and after the point, and the
    exponent if there is one. -/
structure NumberForm where
  negative : Bool
  whole : List Char
  fraction : List Char
  exponent? : Option Int
  deriving DecidableEq

namespace NumberForm

/-- The natural that a number denotes, if it is written in plain digits. -/
def natural? (n : NumberForm) : Option Nat :=
  if !n.negative ∧ n.fraction = [] ∧ n.exponent? = none then
    some (Nat.ofDigitChars 10 n.whole 0)
  else none

end NumberForm

/-- A word of a document. -/
inductive Token where
  | openArray
  | closeArray
  | openObject
  | closeObject
  | comma
  | colon
  | null
  | bool (b : Bool)
  | number (n : NumberForm)
  | string (codes : List Nat)
  deriving DecidableEq

/-! ## Strings -/

/-- Whether the code is the first half of a surrogate pair. -/
def isHighSurrogate (code : Nat) : Bool :=
  0xD800 ≤ code && code < 0xDC00

/-- Whether the code is the second half of a surrogate pair. -/
def isLowSurrogate (code : Nat) : Bool :=
  0xDC00 ≤ code && code < 0xE000

/-- The code points of codes, each surrogate pair taken together. -/
def joinSurrogates : List Nat → List Nat
  | high :: low :: rest =>
    if isHighSurrogate high ∧ isLowSurrogate low then
      (0x10000 + (high - 0xD800) * 0x400 + (low - 0xDC00)) :: joinSurrogates rest
    else high :: joinSurrogates (low :: rest)
  | codes => codes

/-- The character of a code point, unless it is a surrogate. -/
def char? (code : Nat) : Option Char :=
  if isHighSurrogate code || isLowSurrogate code then none else some (Char.ofNat code)

/-- The text of a string, if no surrogate in it is unpaired. -/
def text? (codes : List Nat) : Option String :=
  (codes.mapM char?).map String.ofList

/-- The value of a digit of base 16, in either case. -/
def hexDigit? (c : Char) : Option Nat :=
  if c.isDigit then some (c.toNat - '0'.toNat)
  else if 'a' ≤ c ∧ c ≤ 'f' then some (c.toNat - 'a'.toNat + 10)
  else if 'A' ≤ c ∧ c ≤ 'F' then some (c.toNat - 'A'.toNat + 10)
  else none

/-- The character that a backslash and a letter stand for. -/
def escape? : Char → Option Char
  | '"' => some '"'
  | '\\' => some '\\'
  | '/' => some '/'
  | 'b' => some '\x08'
  | 'f' => some '\x0c'
  | 'n' => some '\n'
  | 'r' => some '\r'
  | 't' => some '\t'
  | _ => none

/-- The code of four digits of base 16. -/
def hexCode? (a b c d : Char) : Option Nat := do
  let a ← hexDigit? a
  let b ← hexDigit? b
  let c ← hexDigit? c
  let d ← hexDigit? d
  return ((a * 16 + b) * 16 + c) * 16 + d

/-- The codes of a string up to its closing quotation mark, after those already
    read (the last one first), and what follows the mark. Control characters
    have to be escaped. -/
def scanString (read : List Nat) : List Char → Option (List Nat × List Char)
  | [] => none
  | '"' :: rest => some (read.reverse, rest)
  | '\\' :: 'u' :: a :: b :: c :: d :: rest =>
    -- Surrogates are put together once the string is read.
    match hexCode? a b c d with
    | some code => scanString (code :: read) rest
    | none => none
  | '\\' :: e :: rest =>
    match escape? e with
    | some c => scanString (c.toNat :: read) rest
    | none => none
  | c :: rest => if c.toNat < 0x20 || c = '\\' then none else scanString (c.toNat :: read) rest

/-! ## Numbers -/

/-- The whole digits at the start of a text, and what follows: a lone zero, or
    digits of which the first is no zero. -/
def scanWhole : List Char → Option (List Char × List Char)
  | '0' :: rest => some (['0'], rest)
  | rest =>
    let (digits, rest) := Decimal.splitDigits rest
    if digits = [] then none else some (digits, rest)

/-- The digits after a point, at least one, and what follows; none if there is no
    point. -/
def scanFraction : List Char → Option (List Char × List Char)
  | '.' :: rest =>
    let (digits, rest) := Decimal.splitDigits rest
    if digits = [] then none else some (digits, rest)
  | rest => some ([], rest)

/-- The exponent, of at least one digit, and what follows; none if there is no
    mark of it. -/
def scanExponent : List Char → Option (Option Int × List Char)
  | [] => some (none, [])
  | mark :: rest =>
    if mark = 'e' ∨ mark = 'E' then
      let (negative, unsigned) := Decimal.splitSign rest
      let (digits, rest) := Decimal.splitDigits unsigned
      let magnitude := Nat.ofDigitChars 10 digits 0
      if digits = [] then none
      else some (some (if negative then -(magnitude : Int) else magnitude), rest)
    else some (none, mark :: rest)

/-- The number at the start of a text after its sign, and what follows. -/
def scanUnsigned (negative : Bool) (cs : List Char) : Option (NumberForm × List Char) := do
  let (whole, cs) ← scanWhole cs
  let (fraction, cs) ← scanFraction cs
  let (exponent?, cs) ← scanExponent cs
  return (⟨negative, whole, fraction, exponent?⟩, cs)

/-- The number at the start of a text, and what follows. -/
def scanNumber : List Char → Option (NumberForm × List Char)
  | '-' :: rest => scanUnsigned true rest
  | rest => scanUnsigned false rest

/-! ## Documents -/

/-- Whether the character may stand between tokens. -/
def isBlank (c : Char) : Bool :=
  c = ' ' || c = '\n' || c = '\t' || c = '\r'

/-- The token at the start of a text without blanks, and what follows. -/
def scanToken : List Char → Option (Token × List Char)
  | '[' :: rest => some (.openArray, rest)
  | ']' :: rest => some (.closeArray, rest)
  | '\x7b' :: rest => some (.openObject, rest)
  | '\x7d' :: rest => some (.closeObject, rest)
  | ',' :: rest => some (.comma, rest)
  | ':' :: rest => some (.colon, rest)
  | 'n' :: 'u' :: 'l' :: 'l' :: rest => some (.null, rest)
  | 't' :: 'r' :: 'u' :: 'e' :: rest => some (.bool true, rest)
  | 'f' :: 'a' :: 'l' :: 's' :: 'e' :: rest => some (.bool false, rest)
  | '"' :: rest =>
    (scanString [] rest).map fun (codes, rest) => (.string (joinSurrogates codes), rest)
  | cs => (scanNumber cs).map fun (n, rest) => (.number n, rest)

/-- The tokens of a text of at most the given length. -/
def tokensWithin : Nat → List Char → Option (List Token)
  | _, [] => some []
  | 0, _ :: _ => none
  | bound + 1, c :: cs =>
    if isBlank c then tokensWithin bound cs
    else do
      let (token, rest) ← scanToken (c :: cs)
      let tokens ← tokensWithin bound rest
      return token :: tokens

/-- The tokens of a text, if it consists of tokens and blanks. -/
def tokens? (cs : List Char) : Option (List Token) :=
  tokensWithin cs.length cs

/-! ## Strings that are written -/

/-- A character as it is written in a string. -/
def escaped (c : Char) : List Char :=
  if c = '"' ∨ c = '\\' then ['\\', c]
  else if c = '\x08' then ['\\', 'b']
  else if c = '\x0c' then ['\\', 'f']
  else if c = '\n' then ['\\', 'n']
  else if c = '\r' then ['\\', 'r']
  else if c = '\t' then ['\\', 't']
  else if c.toNat < 0x20 then '\\' :: 'u' :: Text.hexPadded 4 c.toNat
  else [c]

/-- A text as a string, between quotation marks. -/
def quoted (s : String) : List Char :=
  '"' :: (s.toList.flatMap escaped ++ ['"'])

end ValueBridge.Json
