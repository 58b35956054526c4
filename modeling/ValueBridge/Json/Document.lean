import ValueBridge.Json.Scaling

/-!
# JSON documents

A document as it is written, with the forms of its numbers and the code points
of its strings: what a reader of a fixed format looks at, who may skip parts of
it without asking whether they denote anything.

* `Document.tokens`: the tokens of a document, which determine it;
* `Document.ofTokens?`: the document of tokens;
* `Document.read?`: the document written in a text;
* `Document.toJson?`: the value that it denotes, unless one of its strings is no
  text or one of its numbers too large;
* `readNamed?`: the thing that it names, by a string, or by an object whose only member
  has the name and the value null.
-/

namespace ValueBridge.Json

/-- A JSON document. -/
inductive Document where
  | null
  | bool (b : Bool)
  | number (n : NumberForm)
  | string (codes : List Nat)
  | array (items : List Document)
  | object (members : List (List Nat × Document))
  deriving Inhabited

namespace Document

/-! ## Tokens of a document -/

mutual

/-- The tokens of a document. -/
def tokens : Document → List Token
  | .null => [.null]
  | .bool b => [.bool b]
  | .number n => [.number n]
  | .string codes => [.string codes]
  | .array items => .openArray :: itemTokens items
  | .object members => .openObject :: memberTokens members

/-- The tokens of the items of an array, and of its end. -/
def itemTokens : List Document → List Token
  | [] => [.closeArray]
  | [d] => d.tokens ++ [.closeArray]
  | d :: ds => d.tokens ++ .comma :: itemTokens ds

/-- The tokens of the members of an object, and of its end. -/
def memberTokens : List (List Nat × Document) → List Token
  | [] => [.closeObject]
  | [(name, d)] => .string name :: .colon :: d.tokens ++ [.closeObject]
  | (name, d) :: ds => .string name :: .colon :: d.tokens ++ .comma :: memberTokens ds

end

/-! ## The document of tokens -/

mutual

/-- The document at the start of tokens, and what follows. The bound limits the
    depth of the reading. -/
def parse : Nat → List Token → Option (Document × List Token)
  | bound + 1, token :: rest =>
    match token, rest with
    | .null, rest => some (.null, rest)
    | .bool b, rest => some (.bool b, rest)
    | .number n, rest => some (.number n, rest)
    | .string codes, rest => some (.string codes, rest)
    | .openArray, .closeArray :: rest => some (.array [], rest)
    | .openArray, rest => (parseItems bound rest).map fun (items, rest) => (.array items, rest)
    | .openObject, .closeObject :: rest => some (.object [], rest)
    | .openObject, rest =>
      (parseMembers bound rest).map fun (members, rest) => (.object members, rest)
    | _, _ => none
  | _, _ => none

/-- One or more items of an array up to its end, and what follows. -/
def parseItems : Nat → List Token → Option (List Document × List Token)
  | bound + 1, ts =>
    match parse bound ts with
    | some (d, .comma :: rest) =>
      (parseItems bound rest).map fun (ds, rest) => (d :: ds, rest)
    | some (d, .closeArray :: rest) => some ([d], rest)
    | _ => none
  | _, _ => none

/-- One or more members of an object up to its end, and what follows. -/
def parseMembers : Nat → List Token → Option (List (List Nat × Document) × List Token)
  | bound + 1, .string name :: .colon :: ts =>
    match parse bound ts with
    | some (d, .comma :: rest) =>
      (parseMembers bound rest).map fun (ds, rest) => ((name, d) :: ds, rest)
    | some (d, .closeObject :: rest) => some ([(name, d)], rest)
    | _ => none
  | _, _ => none

end

/-- The document of tokens, if they are one. Reading goes at most two steps deeper
    for each token. -/
def ofTokens? (ts : List Token) : Option Document :=
  match parse (2 * ts.length) ts with
  | some (d, []) => some d
  | _ => none

/-- The document written in a text, if it is one. -/
def read? (text : String) : Option Document :=
  tokens? text.toList >>= ofTokens?

/-! ## What a document denotes -/

mutual

/-- The value that a document denotes, unless one of its strings is no text or one
    of its numbers too large. -/
def toJson? : Document → Option Json
  | .null => some .null
  | .bool b => some (.bool b)
  | .number n => n.toNumber?.map .number
  | .string codes => (text? codes).map .string
  | .array items => (itemsToJson? items).map .array
  | .object members => (membersToJson? members).map .object

/-- The values that documents denote. -/
def itemsToJson? : List Document → Option (List Json)
  | [] => some []
  | d :: ds => do
    let j ← d.toJson?
    let js ← itemsToJson? ds
    return j :: js

/-- The members that members of a document denote. -/
def membersToJson? : List (List Nat × Document) → Option (List (String × Json))
  | [] => some []
  | (name, d) :: ds => do
    let name ← text? name
    let j ← d.toJson?
    let js ← membersToJson? ds
    return (name, j) :: js

end

/-- The text that a document is, if it is one. -/
def text? : Document → Option String
  | .string codes => Json.text? codes
  | _ => none

/-- The natural that a document is, if it is written in plain digits. -/
def natural? : Document → Option Nat
  | .number n => n.natural?
  | _ => none

/-- The name that a document is, if it is one. -/
def name? : Document → Option String
  | .string codes => Json.text? codes
  | .object [(name, .null)] => Json.text? name
  | _ => none

end Document

/-- The thing among others that a text names. -/
def readNamed? {α : Type} (all : List α) (name : α → String) (text : String) : Option α :=
  Document.read? text >>= Document.name? >>= fun s => all.find? (name · == s)

end ValueBridge.Json
