/-!
# UTF-8

Texts as bytes, and bytes as texts. Reading bytes never fails: what is not part
of a well-formed sequence is replaced by U+FFFD.

A decoder takes the bytes one by one. Between characters nothing is *pending*;
within a sequence it knows the code so far, how many bytes are owed and the
range of the next one, which the first byte narrows so that no code is written
in more bytes than it needs, none is a surrogate and none is above U+10FFFF. A
byte out of the range ends the sequence: one U+FFFD stands for the bytes so far,
the *maximal subpart*, and the byte is taken anew, between characters.

* `Utf8.encode`: the bytes of a text;
* `Utf8.decode`: the text of bytes. As a fold over the bytes, it can be cut
  anywhere.
-/

namespace ValueBridge.Utf8

/-- The bytes of a text. -/
def encode (s : String) : List UInt8 :=
  s.toList.flatMap String.utf8EncodeChar

/-- The character that stands for an ill-formed sequence. -/
def replacement : Char := '\ufffd'

/-- A sequence of which bytes are owed: the code read so far, how many bytes,
    and the bounds of the next one. -/
structure Pending where
  code : Nat
  owed : Nat
  low : UInt8
  high : UInt8
  deriving DecidableEq

/-- The least continuation byte. -/
def tailLow : UInt8 := 0x80

/-- The greatest continuation byte. -/
def tailHigh : UInt8 := 0xBF

/-- The sequence that a byte above the ASCII ones begins, if it begins any. -/
def lead? (b : UInt8) : Option Pending :=
  let code := b.toNat
  if b < 0xC2 then none
  else if b < 0xE0 then some ⟨code % 0x20, 1, tailLow, tailHigh⟩
  else if b = 0xE0 then some ⟨code % 0x10, 2, 0xA0, tailHigh⟩
  else if b = 0xED then some ⟨code % 0x10, 2, tailLow, 0x9F⟩
  else if b < 0xF0 then some ⟨code % 0x10, 2, tailLow, tailHigh⟩
  else if b = 0xF0 then some ⟨code % 0x08, 3, 0x90, tailHigh⟩
  else if b < 0xF4 then some ⟨code % 0x08, 3, tailLow, tailHigh⟩
  else if b = 0xF4 then some ⟨code % 0x08, 3, tailLow, 0x8F⟩
  else none

/-- A decoder: the characters read so far, the last one first, and the sequence
    that is pending. -/
structure Decoder where
  read : List Char
  pending : Option Pending
  deriving DecidableEq

namespace Decoder

/-- The decoder before any byte. -/
def start : Decoder := ⟨[], none⟩

/-- A byte between characters. -/
def begin (read : List Char) (b : UInt8) : Decoder :=
  if b < 0x80 then ⟨Char.ofNat b.toNat :: read, none⟩
  else match lead? b with
    | some pending => ⟨read, some pending⟩
    | none => ⟨replacement :: read, none⟩

/-- The next byte. -/
def feed (d : Decoder) (b : UInt8) : Decoder :=
  match d.pending with
  | none => begin d.read b
  | some p =>
    if p.low ≤ b ∧ b ≤ p.high then
      let code := p.code * 0x40 + b.toNat % 0x40
      if p.owed ≤ 1 then ⟨Char.ofNat code :: d.read, none⟩
      else ⟨d.read, some ⟨code, p.owed - 1, tailLow, tailHigh⟩⟩
    -- The byte ends the sequence before it, and may begin one of its own.
    else begin (replacement :: d.read) b

/-- The characters read, in order, after the last byte: a sequence of which
    bytes are still owed is ill-formed. -/
def finish (d : Decoder) : List Char :=
  match d.pending with
  | none => d.read.reverse
  | some _ => (replacement :: d.read).reverse

end Decoder

/-- The characters of bytes. -/
def decodeChars (bytes : List UInt8) : List Char :=
  (bytes.foldl Decoder.feed .start).finish

/-- The text of bytes. -/
def decode (bytes : List UInt8) : String :=
  String.ofList (decodeChars bytes)

end ValueBridge.Utf8
