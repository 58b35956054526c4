import ValueBridge.Table

/-!
# Settling a reference

A reader that meets a foreign NaN reads again, a bounded number of times
(`Ref.reread`), and takes it for the NaN singleton if it never sees anything else
(`Ref.settled`). How often it reads matters only if the memory changes meanwhile.
-/

namespace ValueBridge.Ref

/-- Whether a reference is a number or boxed. -/
def isSettled (r : Ref) : Bool :=
  r.isBoxed || r.number?.isSome

/-- A settled reference itself, and the NaN singleton for a foreign NaN. -/
def settled (r : Ref) : Ref :=
  if r.isSettled then r else Singleton.nan.ref

/-- Whether a reading is a foreign NaN. -/
def isForeign : Except BridgeFault (Option Ref) → Bool
  | .ok (some r) => !r.isSettled
  | _ => false

/-- An attempt that may be made is counted. -/
theorem toNat_add_one_of_lt {attempts retries : UInt32} (h : attempts < retries) :
    (attempts + 1).toNat = attempts.toNat + 1 := by
  have hlt : attempts.toNat < retries.toNat := UInt32.lt_iff_toNat_lt.1 h
  have hretries : retries.toNat < 4294967296 := retries.toNat_lt
  rw [UInt32.toNat_add, UInt32.toNat_one, Nat.mod_eq_of_lt (by omega)]

/-- The last reading, and after how many attempts it is made. The readings to come are
    given in order; while they are foreign NaNs, one attempt more is made after another,
    as long as there are fewer of them than retries. -/
def reread (retries : UInt32) (readings : Nat → Except BridgeFault (Option Ref))
    (attempts : UInt32) : Except BridgeFault (Option Ref) × UInt32 :=
  if isForeign (readings 0) ∧ attempts < retries then
    reread retries (fun n => readings (n + 1)) (attempts + 1)
  else (readings 0, attempts)
termination_by retries.toNat - attempts.toNat
decreasing_by
  next h =>
    have hlt : attempts.toNat < retries.toNat := UInt32.lt_iff_toNat_lt.1 h.2
    rw [toNat_add_one_of_lt h.2]
    omega

end ValueBridge.Ref
