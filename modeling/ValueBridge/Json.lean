import ValueBridge.Binary64

/-!
# JSON values

What a JSON document denotes. A number is an integer or a binary64 number. The
members of an object are kept in their order.
-/

namespace ValueBridge

/-- A number of a JSON value. -/
inductive Json.Number where
  | integer (n : Int)
  | double (x : Binary64)
  deriving DecidableEq

/-- The binary64 number nearest to a number of a JSON value. -/
def Json.Number.nearest : Json.Number → Binary64
  | .integer n => .nearest (n < 0) n.natAbs 1
  | .double x => x

/-- A JSON value. -/
inductive Json where
  | null
  | bool (b : Bool)
  | number (n : Json.Number)
  | string (s : String)
  | array (items : List Json)
  | object (members : List (String × Json))
  deriving Inhabited

namespace Json

/-- The number of an integer. -/
def ofInt (n : Int) : Json :=
  .number (.integer n)

/-- The last member of a name, if the value is an object with one. -/
def member? (j : Json) (name : String) : Option Json :=
  match j with
  | .object members => (members.reverse.find? (·.1 == name)).map (·.2)
  | _ => none

end Json

end ValueBridge
