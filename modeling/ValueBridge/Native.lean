/-!
# Native behaviours

What functions of the host do is named here and defined by an engine (see
`ValueBridge.Engine`). The first behaviours are those of the constructors that
every realm has; the others are the stock of functions that an embedder can put
before a guest.
-/

namespace ValueBridge

/-- The behaviour of a function of the host. -/
inductive Native where
  /-- The argument itself if it is an object or a function, else a fresh object. -/
  | objectOf
  /-- A fresh buffer of a given length, or with the bytes of another buffer. -/
  | bufferOf
  /-- A fresh symbol with the text of the argument as its description. -/
  | symbolOf
  /-- The text of the argument, also of a symbol. -/
  | textOf
  /-- Refuses, as the function of the given name only constructs. -/
  | requireNew (name : String)
  /-- Twice the argument. -/
  | double
  /-- The property `tag` of the receiver. -/
  | receiverTag
  /-- The receiver. -/
  | receiver
  /-- The first argument. -/
  | first
  /-- The number of arguments. -/
  | count
  /-- The sum of the arguments, in order. -/
  | sum
  /-- The texts of the arguments, joined. -/
  | concat
  /-- Sets a property of the receiver. -/
  | put
  /-- A fresh object with the arguments by index. -/
  | collect
  /-- Refuses for a wrong type, with the text of the argument. -/
  | failType
  /-- Refuses for a number out of range, with the text of the argument. -/
  | failRange
  /-- Calls the first argument on the second, with the others as arguments. -/
  | apply
  /-- Constructs by the first argument, with the others as arguments. -/
  | make
  deriving DecidableEq

end ValueBridge
