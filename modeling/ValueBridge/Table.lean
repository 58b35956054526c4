import ValueBridge.Fault
import ValueBridge.Ref

/-!
# The slot table

The values that a guest holds, by slot. The first slots hold *singletons*, for
ever; every other slot is *live* or *free*. A live slot has a number of *claims*,
and is freed when the last one is released. Free slots wait in a *pool*, and the
one freed last is the first to be taken again; only when none waits does the table
grow.

* `Table.store`: the reference of a value. Numbers travel as themselves, and a NaN,
  null and undefined as their singletons; everything else takes a slot.
* `Table.load`: the value of a slot.
* `Table.retain`, `Table.release`: one claim more or less. A release of a slot that
  is not live changes nothing.
-/

namespace ValueBridge

/-! ## Singletons -/

/-- A value with a slot of its own. -/
inductive Singleton where
  | nan
  | null
  | true
  | false
  | undefined
  | global
  | runtime
  deriving DecidableEq

namespace Singleton

/-- The singletons, in the order of their slots. -/
def all : List Singleton :=
  [.nan, .null, .true, .false, .undefined, .global, .runtime]

/-- The slot of a singleton. -/
def slot : Singleton → UInt32
  | .nan => 0
  | .null => 1
  | .true => 2
  | .false => 3
  | .undefined => 4
  | .global => 5
  | .runtime => 6

/-- The name of a singleton. -/
def name : Singleton → String
  | .nan => "nan"
  | .null => "null"
  | .true => "true"
  | .false => "false"
  | .undefined => "undefined"
  | .global => "global"
  | .runtime => "runtime"

/-- The name of a singleton, as it stands in inspections. -/
def title (s : Singleton) : String :=
  s.name.capitalize

/-- The boxed reference of a singleton. -/
def ref (s : Singleton) : Ref :=
  .boxed s.slot .none

/-- The last slot of a singleton. -/
def lastSlot : UInt32 := 6

/-- The number of singletons. -/
def count : Nat := all.length

end Singleton

/-! ## Tables -/

/-- A slot of a table. -/
inductive Slot where
  | live (value : Value) (claims : Nat)
  | free
  deriving DecidableEq

/-- The values that a guest holds: the slots, and those of them that wait to be
    taken again, the one freed last at the front. -/
structure Table where
  slots : Array Slot
  pool : List UInt32
  deriving DecidableEq

/-- What a release comes to. -/
inductive Release where
  /-- The slot of a singleton, which stays as it is. -/
  | singleton
  /-- The last claim: the slot is free. -/
  | freed
  /-- Claims remain. -/
  | retained (claims : Nat)
  /-- The slot is not live. -/
  | notLive
  deriving DecidableEq

/-- The occupancy of a table. -/
structure Stats where
  /-- All slots, with those of the singletons. -/
  slots : Nat
  /-- The live slots other than those of the singletons. -/
  live : Nat
  /-- The slots in the pool. -/
  pooled : Nat
  deriving DecidableEq

namespace Table

/-- The most claims that are counted. -/
def maxClaims : Nat := 0xFFFFFFFF

/-- The most slots of a table, one for each word. -/
def maxSlots : Nat := 0x100000000

/-- The table of the singletons. -/
def create (global runtime : Value) : Table where
  slots := #[.live (.number .nan) maxClaims, .live .null maxClaims, .live (.bool true) maxClaims,
    .live (.bool false) maxClaims, .live .undefined maxClaims, .live global maxClaims,
    .live runtime maxClaims]
  pool := []

/-- The slot at an id. -/
def slot? (t : Table) (id : UInt32) : Option Slot :=
  t.slots[id.toNat]?

/-- Whether the slot is live. -/
def isLive (t : Table) (id : UInt32) : Bool :=
  match t.slot? id with
  | some (.live _ _) => true
  | _ => false

/-- The table with another slot at an id. -/
def put (t : Table) (id : UInt32) (slot : Slot) : Table :=
  { t with slots := t.slots.setIfInBounds id.toNat slot }

/-- The value of a slot. -/
def load (t : Table) (id : UInt32) : Except BridgeFault Value :=
  match t.slot? id with
  | some (.live value _) => .ok value
  | some .free => .error (.releasedSlot id)
  | none => .error (.unknownSlot id)

/-- A slot for a value: the one freed last, or else a new one. -/
def allocate (t : Table) (value : Value) : Except BridgeFault (UInt32 × Table) :=
  match t.pool with
  | id :: pool => .ok (id, { t with pool }.put id (.live value 1))
  | [] =>
    if t.slots.size < maxSlots then
      .ok (UInt32.ofNat t.slots.size, { t with slots := t.slots.push (.live value 1) })
    else .error .tableFull

/-- The reference of a value that takes no slot. -/
def immediate? : Value → Option Ref
  | .number x => some (if x.isNaN then Singleton.nan.ref else .ofNumber x)
  | .null => some Singleton.null.ref
  | .undefined => some Singleton.undefined.ref
  | .bool _ | .string _ | .symbol _ | .object _ | .function _ => none

/-- The reference of a value, which takes a slot unless it travels as a number or
    as a singleton. -/
def store (t : Table) (value : Value) : Except BridgeFault (Ref × Table) :=
  match immediate? value with
  | some ref => .ok (ref, t)
  | none => (t.allocate value).map fun (id, t) => (.boxed id (.ofValue value), t)

/-- One claim more on a slot, and how many there are. Those on a singleton are not
    counted. -/
def retain (t : Table) (id : UInt32) : Except BridgeFault (Nat × Table) :=
  if id ≤ Singleton.lastSlot then .ok (maxClaims, t)
  else match t.slot? id with
    | some (.live value claims) =>
      let claims := min (claims + 1) maxClaims
      .ok (claims, t.put id (.live value claims))
    | some .free => .error (.releasedSlot id)
    | none => .error (.unknownSlot id)

/-- One claim less on a slot, which is freed with the last one. -/
def release (t : Table) (id : UInt32) : Release × Table :=
  if id ≤ Singleton.lastSlot then (.singleton, t)
  else match t.slot? id with
    | some (.live value claims) =>
      if 1 < claims then (.retained (claims - 1), t.put id (.live value (claims - 1)))
      else (.freed, { t.put id .free with pool := id :: t.pool })
    | _ => (.notLive, t)

/-- The occupancy of a table. -/
def stats (t : Table) : Stats where
  slots := t.slots.size
  live := t.slots.size - Singleton.count - t.pool.length
  pooled := t.pool.length

end Table

end ValueBridge
