import ValueBridge.Json.Document

/-!
# Configurations

The settings of a bridge: the module under whose name a guest finds the imports,
and how often a reference that is a foreign NaN is read again. A setting that is
not given has a default.

A configuration is written as a JSON object of the settings by name, or as an array
of them in order, which may be shorter. Nothing else is admitted: no other member,
none twice, and no number but one in plain digits that is a word.

* `Config.read?`: the configuration written in a text;
* `Config.write`: a configuration as a text.
-/

namespace ValueBridge

/-- The settings of a bridge. -/
structure Config where
  /-- The module that the imports are found under. -/
  importModule : String
  /-- How often a foreign NaN is read again. -/
  decodeRetries : Nat
  deriving DecidableEq

namespace Config

/-- The module that the imports are found under, unless another is given. -/
def defaultModule : String := "zig-js"

/-- How often a foreign NaN is read again, unless given otherwise. -/
def defaultRetries : Nat := 3

/-- The settings if none is given. -/
def default : Config := ⟨defaultModule, defaultRetries⟩

/-- The bound of the number of retries. -/
def retriesLimit : Nat := 0x100000000

/-- The name of the member for the module. -/
def moduleMember : String := "namespace"

/-- The name of the member for the number of retries. -/
def retriesMember : String := "decode_retries"

/-! ## Reading -/

/-- The settings that are given, so far as they were read. -/
structure Given where
  importModule? : Option String
  decodeRetries? : Option Nat
  deriving DecidableEq

namespace Given

/-- No setting. -/
def nothing : Given := ⟨none, none⟩

/-- The settings, those that are not given by default. -/
def config (g : Given) : Config :=
  ⟨g.importModule?.getD defaultModule, g.decodeRetries?.getD defaultRetries⟩

end Given

/-- The number of retries that a document is, if it is one. -/
def retries? (d : Json.Document) : Option Nat :=
  d.natural?.filter (· < retriesLimit)

/-- The settings with those of the members of an object. -/
def ofMembers? (given : Given) : List (List Nat × Json.Document) → Option Given
  | [] => some given
  | (name, d) :: members =>
    if Json.text? name = some moduleMember ∧ given.importModule? = none then
      d.text?.bind fun s => ofMembers? { given with importModule? := some s } members
    else if Json.text? name = some retriesMember ∧ given.decodeRetries? = none then
      (retries? d).bind fun n => ofMembers? { given with decodeRetries? := some n } members
    else none

/-- The configuration that a document is, if it is one. -/
def ofDocument? : Json.Document → Option Config
  | .object members => (ofMembers? .nothing members).map Given.config
  | .array [] => some .default
  | .array [m] => m.text?.map fun s => ⟨s, defaultRetries⟩
  | .array [m, n] => m.text?.bind fun s => (retries? n).map fun n => ⟨s, n⟩
  | _ => none

/-- The configuration written in a text, if it is one. -/
def read? (text : String) : Option Config :=
  Json.Document.read? text >>= ofDocument?

/-! ## Writing -/

/-- The configuration as an object of both settings. -/
def write (c : Config) : String :=
  String.ofList ('\x7b' :: Json.quoted moduleMember ++ ':' :: Json.quoted c.importModule ++
    ',' :: Json.quoted retriesMember ++ ':' :: Nat.toDigits 10 c.decodeRetries ++ ['\x7d'])

end Config

end ValueBridge
