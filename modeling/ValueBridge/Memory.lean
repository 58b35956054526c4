import ValueBridge.Fault
import ValueBridge.Ref
import ValueBridge.Text.Utf8

/-!
# The memory of a guest

What an import sees of the memory of a guest: its bytes, or nothing while no memory
is *bound*. Whatever is read of an unbound memory is missing, and what is written is
lost, at any address. In a bound memory every access lies within the bytes, or is
refused as a whole.

Words are written with their least byte first. A reference is eight bytes, which are
read as a whole, so that the bits of a NaN are kept.
-/

namespace ValueBridge

/-! ## Words as bytes -/

/-- The natural of bytes, the least one first. -/
def ofLittleEndian (bytes : List UInt8) : Nat :=
  bytes.foldr (fun b n => b.toNat + 256 * n) 0

/-- The bytes of a natural, the least one first, as many as asked for. -/
def toLittleEndian : Nat → Nat → List UInt8
  | 0, _ => []
  | count + 1, n => UInt8.ofNat n :: toLittleEndian count (n / 256)

/-! ## Memories -/

/-- The memory that an import sees. -/
inductive Memory where
  | unbound
  | bound (bytes : Array UInt8)

namespace Memory

/-- The size of a reference. -/
def refSize : Nat := 8

/-- Whether the memory is bound. -/
def isBound : Memory → Bool
  | .unbound => false
  | .bound _ => true

/-- The number of bytes; none while unbound. -/
def size : Memory → Nat
  | .unbound => 0
  | .bound bytes => bytes.size

/-- Refuses bytes that are not all in memory. An unbound memory refuses nothing. -/
def check (m : Memory) (addr : UInt32) (length : Nat) : Except BridgeFault Unit :=
  match m with
  | .unbound => .ok ()
  | .bound bytes =>
    if addr.toNat + length ≤ bytes.size then .ok ()
    else .error (.outOfBounds addr length bytes.size)

/-- The bytes at an address; missing while unbound. -/
def read? (m : Memory) (addr : UInt32) (length : Nat) : Except BridgeFault (Option (List UInt8)) :=
  match m with
  | .unbound => .ok none
  | .bound bytes =>
    if addr.toNat + length ≤ bytes.size then
      .ok (some (bytes.extract addr.toNat (addr.toNat + length)).toList)
    else .error (.outOfBounds addr length bytes.size)

/-- Bytes with others written over them, from a position on. -/
def overwrite (bytes : Array UInt8) (position : Nat) : List UInt8 → Array UInt8
  | [] => bytes
  | b :: bs => overwrite (bytes.setIfInBounds position b) (position + 1) bs

/-- The memory with bytes written at an address. -/
def write (m : Memory) (addr : UInt32) (data : List UInt8) : Except BridgeFault Memory :=
  match m with
  | .unbound => .ok .unbound
  | .bound bytes =>
    if addr.toNat + data.length ≤ bytes.size then .ok (.bound (overwrite bytes addr.toNat data))
    else .error (.outOfBounds addr data.length bytes.size)

/-! ## Words, numbers, references and texts -/

/-- The natural of the bytes at an address; missing while unbound. -/
def readNatural? (m : Memory) (addr : UInt32) (length : Nat) : Except BridgeFault (Option Nat) :=
  (m.read? addr length).map fun bytes? => bytes?.map ofLittleEndian

/-- The word at an address. -/
def readWord? (m : Memory) (addr : UInt32) : Except BridgeFault (Option UInt32) :=
  (m.readNatural? addr 4).map fun n? => n?.map UInt32.ofNat

/-- The number at an address. -/
def readNumber? (m : Memory) (addr : UInt32) : Except BridgeFault (Option Binary64) :=
  (m.readNatural? addr 8).map fun n? => n?.map fun n => ⟨UInt64.ofNat n⟩

/-- The reference at an address. -/
def readRef? (m : Memory) (addr : UInt32) : Except BridgeFault (Option Ref) :=
  (m.readNatural? addr refSize).map fun n? => n?.map fun n => ⟨UInt64.ofNat n⟩

/-- The bytes of a reference. -/
def refBytes (r : Ref) : List UInt8 :=
  toLittleEndian refSize r.bits.toNat

/-- The text of the bytes at an address; empty while unbound. -/
def readText (m : Memory) (addr : UInt32) (length : UInt32) : Except BridgeFault String :=
  (m.read? addr length.toNat).map fun bytes? => Utf8.decode (bytes?.getD [])

/-- The address of a reference in an array of references, which has to be a word. -/
def elementAddress (base index : UInt32) : Except BridgeFault UInt32 :=
  let addr := base.toNat + refSize * index.toNat
  if addr < Ref.wordSize then .ok (UInt32.ofNat addr)
  else .error (.outOfBounds base ((index.toNat + 1) * refSize) 0)

end Memory

end ValueBridge
