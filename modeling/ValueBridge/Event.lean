import ValueBridge.Fault
import ValueBridge.Ref
import ValueBridge.Table

/-!
# Events

What the bridge reports while it works, each with a level and a text.
-/

namespace ValueBridge

/-- How much an event matters. -/
inductive Level where
  | warn
  | debug
  | trace
  deriving DecidableEq

/-- The name of a level. -/
def Level.name : Level → String
  | .warn => "warn"
  | .debug => "debug"
  | .trace => "trace"

/-- Something that the bridge reports. -/
inductive Event where
  /-- A slot is taken. -/
  | slotAllocated (id : UInt32) (tag : Tag)
  /-- A slot is freed. -/
  | slotReleased (id : UInt32)
  /-- A release of a slot that was never handed out. -/
  | unknownRelease (id : UInt32)
  /-- A release of a free slot. -/
  | doubleRelease (id : UInt32)
  /-- A reference that is neither a number nor boxed. -/
  | foreignNaN (addr : UInt32) (ref : Ref)
  /-- Bytes that are lost as no memory is bound. -/
  | writeSkipped (length : Nat) (addr : UInt32)
  /-- A text that is empty as no memory is bound. -/
  | readSkipped (addr : UInt32)
  /-- A property that is not writable. -/
  | writeRefused (key : String) (id : UInt32)
  /-- A text that does not fit. -/
  | copySkipped (id : UInt32) (length : Nat) (capacity : UInt32)
  /-- An import called before a memory is bound. -/
  | calledUnbound
  /-- An import that ends with a fault. -/
  | trapped (fault : BridgeFault)
  deriving DecidableEq

namespace Event

/-- The level of an event. -/
def level : Event → Level
  | .slotAllocated _ _ | .slotReleased _ => .trace
  | .unknownRelease _ | .doubleRelease _ | .foreignNaN _ _ => .warn
  | .writeSkipped _ _ | .readSkipped _ | .writeRefused _ _ | .copySkipped _ _ _
  | .calledUnbound | .trapped _ => .debug

/-- The text of an event. -/
def text : Event → String
  | .slotAllocated id tag => "slot " ++ toString id.toNat ++ " allocated (" ++ tag.title ++ ")"
  | .slotReleased id => "slot " ++ toString id.toNat ++ " released"
  | .unknownRelease id => "release of unknown slot " ++ toString id.toNat ++ " ignored"
  | .doubleRelease id => "double release of slot " ++ toString id.toNat ++ " ignored"
  | .foreignNaN addr ref =>
    "reference at " ++ toString addr.toNat ++ " is a foreign NaN (" ++ Text.hexWord ref.bits ++
      "); decoding as NaN"
  | .writeSkipped length addr =>
    "write of " ++ toString length ++ " bytes at " ++ toString addr.toNat ++
      " skipped: memory not bound"
  | .readSkipped addr => "string read at " ++ toString addr.toNat ++ " skipped: memory not bound"
  | .writeRefused key id =>
    "write to `" ++ key ++ "` on slot " ++ toString id.toNat ++ " refused by host"
  | .copySkipped id length capacity =>
    "string copy of slot " ++ toString id.toNat ++ " skipped: " ++ toString length ++
      " bytes exceed capacity " ++ toString capacity.toNat
  | .calledUnbound => "import called before memory was bound"
  | .trapped fault => "import trapped: " ++ fault.message

/-- What is reported of a store, by its reference: the slot that it takes, if it
    takes one. -/
def ofStore? (ref : Ref) : Option Event :=
  match ref.slot?, ref.tag? with
  | some id, some tag => if Singleton.lastSlot < id then some (.slotAllocated id tag) else none
  | _, _ => none

/-- What is reported of a release. -/
def ofRelease? (before : Table) (id : UInt32) : Release → Option Event
  | .freed => some (.slotReleased id)
  | .notLive =>
    some (if id.toNat < before.slots.size then .doubleRelease id else .unknownRelease id)
  | .singleton | .retained _ => none

end Event

end ValueBridge
