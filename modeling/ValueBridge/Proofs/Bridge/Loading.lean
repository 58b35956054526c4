import ValueBridge.Proofs.Bridge.RoundTrip

/-!
# Loading references

Whatever a guest writes to its memory, a reference that is loaded from an address is read within
as many attempts as the configuration allows (`Ref.rereads`), and it is one of three things
(`Table.LoadsAs`): a number with the bits of the pattern, what is loaded of a slot, whatever the
tag bits are, or the NaN of the host for a foreign NaN.

* `Bridge.loadRef_of_read?`, `Bridge.loadRef_eq_outOfBounds_iff`: it is what the pattern says, and
  fails where there is no room for a reference;
* `Bridge.rereadRef?_eq`: how often a foreign NaN is read again does not matter, since nothing
  works on the memory meanwhile;
* `Bridge.loading_run_create`: all of it, for a table after any operations.
-/

namespace ValueBridge

/-! ## Attempts -/

namespace Ref

/-- How reading again comes to an end: with the reading after so many attempts, each of which was
    made because all before were foreign NaNs. -/
structure Rereads (retries : UInt32) (readings : Nat → Except BridgeFault (Option Ref))
    (last : Except BridgeFault (Option Ref)) (attempts : Nat) : Prop where
  last_eq : last = readings attempts
  attempts_le : attempts ≤ retries.toNat
  isForeign : ∀ n, n < attempts → isForeign (readings n) = true
  exhausted : Ref.isForeign last = true → attempts = retries.toNat

/-- From any count on, the attempts that are counted are those that are made. -/
theorem rereads_from (retries : UInt32) (readings : Nat → Except BridgeFault (Option Ref))
    (attempts : UInt32) (hle : attempts ≤ retries) :
    ∃ made, (reread retries readings attempts).2.toNat = attempts.toNat + made ∧
      attempts.toNat + made ≤ retries.toNat ∧
      (reread retries readings attempts).1 = readings made ∧
      (∀ n, n < made → isForeign (readings n) = true) ∧
      (isForeign (readings made) = true → attempts.toNat + made = retries.toNat) := by
  induction readings, attempts using reread.induct retries with
  | case1 readings attempts hagain ih =>
    -- The attempt is below the bound, so that the counter does not wrap.
    have hnext : (attempts + 1).toNat = attempts.toNat + 1 := toNat_add_one_of_lt hagain.2
    have hlt : attempts.toNat < retries.toNat := UInt32.lt_iff_toNat_lt.1 hagain.2
    obtain ⟨made, hcount, hmade, hlast, hforeign, hexhausted⟩ :=
      ih (UInt32.le_iff_toNat_le.2 (by omega))
    rw [hnext] at hcount hmade hexhausted
    rw [reread, if_pos hagain]
    refine ⟨made + 1, by omega, by omega, hlast, fun n hn => ?_, fun h => ?_⟩
    · cases n with
      | zero => exact hagain.1
      | succ n => exact hforeign n (by omega)
    · have := hexhausted h
      omega
  | case2 readings attempts hdone =>
    have hle' : attempts.toNat ≤ retries.toNat := UInt32.le_iff_toNat_le.1 hle
    rw [reread, if_neg hdone]
    refine ⟨0, rfl, hle', rfl, fun n hn => absurd hn (Nat.not_lt_zero n), fun hforeign => ?_⟩
    -- A foreign NaN is the last reading only for want of retries.
    have hnlt : ¬attempts.toNat < retries.toNat := fun hlt =>
      hdone ⟨hforeign, UInt32.lt_iff_toNat_lt.2 hlt⟩
    omega

/-- The count of the attempts is that of the readings after the first, however many are
    allowed. -/
theorem rereads (retries : UInt32) (readings : Nat → Except BridgeFault (Option Ref)) :
    Rereads retries readings (reread retries readings 0).1 (reread retries readings 0).2.toNat := by
  obtain ⟨made, hcount, hmade, hlast, hforeign, hexhausted⟩ :=
    rereads_from retries readings 0 UInt32.zero_le
  rw [UInt32.toNat_zero, Nat.zero_add] at hcount hmade hexhausted
  rw [hcount, hlast]
  exact ⟨rfl, hmade, hforeign, hexhausted⟩

/-- If all readings agree, any of them is the last. -/
theorem reread_const (retries : UInt32) (reading : Except BridgeFault (Option Ref)) :
    (reread retries (fun _ => reading) 0).1 = reading :=
  (rereads retries fun _ => reading).last_eq

/-! ## Settled references -/

variable {r : Ref}

theorem settled_of_isSettled (h : r.isSettled = true) : r.settled = r :=
  if_pos h

/-- A NaN that is not boxed is taken for the singleton. -/
theorem settled_of_foreign (hnan : r.toBinary64.isNaN = true) (hboxed : r.isBoxed = false) :
    r.settled = Singleton.nan.ref := by
  have hnumber : r.number? = none := if_pos hnan
  have hforeign : r.isSettled = false := by
    rw [isSettled, hboxed, hnumber]
    rfl
  rw [settled, hforeign, if_neg Bool.false_ne_true]

end Ref

/-! ## What is loaded -/

namespace Table

variable {t : Table} {r : Ref}

/-- What is to be loaded of a pattern: the number with the same bits, what is loaded of the slot
    of a marked pattern, with any tag bits, and NaN for every other NaN. -/
structure LoadsAs (t : Table) (r : Ref) (result : Except BridgeFault Value) : Prop where
  number : r.toBinary64.isNaN = false → result = .ok (.number ⟨r.bits⟩)
  boxed : ∀ code slot, code < Ref.tagSize → r = .marked code slot → result = t.load slot
  foreign : r.toBinary64.isNaN = true →
    (∀ code slot, code < Ref.tagSize → r ≠ .marked code slot) → result = .ok (.number .nan)

/-- What a reference stands for once it is settled. -/
theorem loadsAs_settled (hnan : t.load Singleton.nan.slot = .ok (.number .nan)) (r : Ref) :
    t.LoadsAs r (t.standsFor r.settled) where
  number hnumber := by
    have hsettled : r.isSettled = true := Ref.isSettled_ofNumber (x := r.toBinary64) hnumber
    rw [Ref.settled_of_isSettled hsettled]
    exact standsFor_ofNumber (x := r.toBinary64) hnumber t
  boxed code slot hcode hr := by
    have hboxed : r.isBoxed = true := hr ▸ Ref.isBoxed_marked hcode slot
    have hsettled : r.isSettled = true := by rw [Ref.isSettled, hboxed, Bool.true_or]
    have hnumber : r.number? = none := if_pos (Ref.isNaN_of_isBoxed hboxed)
    have hslot : r.slot? = some slot := hr ▸ Ref.slot?_marked hcode slot
    rw [Ref.settled_of_isSettled hsettled, standsFor, hnumber, hslot]
  foreign hisNaN hmarked := by
    have hboxed : r.isBoxed = false := by
      refine Bool.eq_false_iff.2 fun hboxed => ?_
      obtain ⟨code, slot, hcode, hr⟩ := Ref.isBoxed_iff.1 hboxed
      exact hmarked code slot hcode hr
    rw [Ref.settled_of_foreign hisNaN hboxed, Singleton.ref, standsFor_boxed, hnan]

/-- The table knows of no bounds of memory. -/
theorem load_ne_outOfBounds (t : Table) (id addr : UInt32) (length size : Nat) :
    t.load id ≠ .error (.outOfBounds addr length size) := by
  intro h
  rw [load] at h
  split at h <;> cases h

theorem standsFor_ne_outOfBounds (t : Table) (r : Ref) (addr : UInt32) (length size : Nat) :
    t.standsFor r ≠ .error (.outOfBounds addr length size) := by
  intro h
  rw [standsFor] at h
  split at h
  · cases h
  · exact t.load_ne_outOfBounds _ addr length size h
  · cases h

end Table

namespace Bridge

open ValueBridge.Action

variable {s : State} {bytes : Array UInt8} {addr : UInt32} {r : Ref}

/-- A memory that does not change is read once, however many retries are allowed. -/
theorem rereadRef?_eq (b : Bridge) (addr : UInt32) : b.rereadRef? addr = readRef? addr := by
  funext s
  rw [rereadRef?, readRef?, get_bind, get_bind, Ref.reread_const]

/-- What is loaded of the bytes of a reference. -/
theorem loadRef_of_read?
    (hread : s.memory.read? addr Memory.refSize = .ok (some (Memory.refBytes r))) :
    (loadRef addr s).1 = s.table.standsFor r.settled := by
  rw [loadRef_fst, Memory.readRef?_of_read? hread]
  rfl

/-- Where there is no room for a reference, nothing is loaded. -/
theorem loadRef_of_size_lt (hmem : s.memory = .bound bytes)
    (hout : bytes.size < addr.toNat + Memory.refSize) :
    (loadRef addr s).1 = .error (.outOfBounds addr Memory.refSize bytes.size) := by
  have hread : s.memory.read? addr Memory.refSize =
      .error (.outOfBounds addr Memory.refSize bytes.size) := by
    rw [hmem, Memory.read?, if_neg (Nat.not_le.2 hout)]
  rw [loadRef_fst, Memory.readRef?, Memory.readNatural?, hread]
  rfl

/-- Only the want of room is refused as such. -/
theorem loadRef_eq_outOfBounds_iff (hmem : s.memory = .bound bytes) {addr' : UInt32}
    {length size : Nat} :
    (loadRef addr s).1 = .error (.outOfBounds addr' length size) ↔
      bytes.size < addr.toNat + Memory.refSize ∧
        addr' = addr ∧ length = Memory.refSize ∧ size = bytes.size := by
  by_cases hout : bytes.size < addr.toNat + Memory.refSize
  · rw [loadRef_of_size_lt hmem hout]
    constructor
    · intro h
      cases h
      exact ⟨hout, rfl, rfl, rfl⟩
    · rintro ⟨_, rfl, rfl, rfl⟩
      rfl
  · obtain ⟨r, hread⟩ := Memory.exists_read?_refBytes (Nat.not_lt.1 hout)
    rw [loadRef_of_read? (hmem ▸ hread)]
    exact iff_of_false (s.table.standsFor_ne_outOfBounds r.settled addr' length size)
      fun h => hout h.1

/-- Any number of retries comes to an end with a count of the attempts that are made, and gives
    the same for a memory that does not change. With a table after any operations, a load from a
    bound memory fails for want of room where there is none for a reference, and nowhere else;
    where there is, it gives what the pattern says that stands there. While no memory is bound, it
    gives undefined. -/
theorem loading_run_create (global runtime : Value) (ops : List Table.Op) (heap : Heap)
    (log : Array Event) (addr : UInt32) :
    let t := (Table.create global runtime).run ops
    let loaded := fun memory => (loadRef addr ⟨heap, t, memory, log⟩).1
    (∀ retries readings, Ref.Rereads retries readings
      (Ref.reread retries readings 0).1 (Ref.reread retries readings 0).2.toNat) ∧
    (∀ b : Bridge, b.rereadRef? addr = readRef? addr) ∧
    (∀ bytes, addr.toNat + Memory.refSize ≤ bytes.size →
      ∃ r, (Memory.bound bytes).read? addr Memory.refSize = .ok (some (Memory.refBytes r)) ∧
        t.LoadsAs r (loaded (.bound bytes))) ∧
    (∀ bytes addr' length size,
      loaded (.bound bytes) = .error (.outOfBounds addr' length size) ↔
        bytes.size < addr.toNat + Memory.refSize ∧
          addr' = addr ∧ length = Memory.refSize ∧ size = bytes.size) ∧
    loaded .unbound = .ok .undefined := by
  intro t loaded
  have hnan : t.load Singleton.nan.slot = .ok (.number .nan) :=
    Table.load_singleton_run (.create global runtime) .nan
      (Table.load_singleton_create global runtime .nan) ops
  refine ⟨Ref.rereads, fun b => rereadRef?_eq b addr, fun bytes hin => ?_,
    fun bytes _ _ _ => loadRef_eq_outOfBounds_iff rfl, ?_⟩
  · obtain ⟨r, hread⟩ := Memory.exists_read?_refBytes hin
    refine ⟨r, hread, ?_⟩
    have hloaded : loaded (.bound bytes) = t.standsFor r.settled := loadRef_of_read? hread
    rw [hloaded]
    exact Table.loadsAs_settled hnan r
  · exact loadRef_fst addr ⟨heap, t, .unbound, log⟩

end Bridge

end ValueBridge
