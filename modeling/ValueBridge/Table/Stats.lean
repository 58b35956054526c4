import ValueBridge.Json.Document
import ValueBridge.Table

/-!
# Occupancies in JSON

An occupancy is written as a JSON object of its three counts by name, or as an array
of them in order. The counts are plain digits and words of 64 bits. Other members of
the object are passed over, whatever they are.
-/

namespace ValueBridge.Stats

/-- The bound of a count. -/
def countLimit : Nat := 0x10000000000000000

/-- The counts that are given, so far as they were read. -/
structure Given where
  slots? : Option Nat
  live? : Option Nat
  pooled? : Option Nat
  deriving DecidableEq

/-- No count. -/
def Given.nothing : Given := ⟨none, none, none⟩

/-- The occupancy, if every count is given. -/
def Given.stats? (g : Given) : Option Stats := do
  let slots ← g.slots?
  let live ← g.live?
  let pooled ← g.pooled?
  return ⟨slots, live, pooled⟩

/-- The count that a document is, if it is one and none was given before. -/
def count? (before : Option Nat) (d : Json.Document) : Option Nat :=
  if before.isSome then none else d.natural?.filter (· < countLimit)

/-- The counts with those of the members of an object. -/
def ofMembers? (given : Given) : List (List Nat × Json.Document) → Option Given
  | [] => some given
  | (name, d) :: members =>
    match Json.text? name with
    | none => none
    | some "slots" =>
      (count? given.slots? d).bind fun n => ofMembers? { given with slots? := some n } members
    | some "live" =>
      (count? given.live? d).bind fun n => ofMembers? { given with live? := some n } members
    | some "pooled" =>
      (count? given.pooled? d).bind fun n => ofMembers? { given with pooled? := some n } members
    | some _ => ofMembers? given members

/-- The occupancy that a document is, if it is one. -/
def ofDocument? : Json.Document → Option Stats
  | .object members => ofMembers? .nothing members >>= Given.stats?
  | .array [slots, live, pooled] =>
    (⟨count? none slots, count? none live, count? none pooled⟩ : Given).stats?
  | _ => none

/-- The occupancy written in a text, if it is one. -/
def read? (text : String) : Option Stats :=
  Json.Document.read? text >>= ofDocument?

/-- The text of an occupancy for inspection. -/
def inspect (s : Stats) : String :=
  "TableStats \x7b slots: " ++ toString s.slots ++ ", live: " ++ toString s.live ++
    ", pooled: " ++ toString s.pooled ++ " \x7d"

end ValueBridge.Stats
