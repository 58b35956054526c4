import ValueBridge.Proofs.Run
import ValueBridge.Table

/-!
# Operations on a table

Whatever happens to a table is one *operation* after the other: a value stored, a claim
retained or released. An operation comes to a *result*, and leaves the table as it is
if it fails.

* `Table.slot?_put`, `Table.slot?_push`: a table is seen through its slots, of which an
  operation changes one at most;
* `Table.Step`: all that an operation can do, with what each way requires
  (`Table.step`);
* `Table.run`: the table after operations in order.
-/

namespace ValueBridge.Table

/-- An operation on a table. -/
inductive Op where
  | store (v : Value)
  | retain (id : UInt32)
  | release (id : UInt32)
  deriving DecidableEq

/-- What an operation comes to. -/
inductive Result where
  | stored (ref : Ref)
  | retained (claims : Nat)
  | released (release : Release)
  | failed (fault : BridgeFault)
  deriving DecidableEq

/-- What an operation comes to, and the table afterwards. -/
def perform (t : Table) : Op → Result × Table
  | .store v =>
    match t.store v with
    | .ok (ref, t) => (.stored ref, t)
    | .error fault => (.failed fault, t)
  | .retain id =>
    match t.retain id with
    | .ok (claims, t) => (.retained claims, t)
    | .error fault => (.failed fault, t)
  | .release id => (.released (t.release id).1, (t.release id).2)

/-- What an operation comes to. -/
def result (t : Table) (op : Op) : Result :=
  (t.perform op).1

/-- The table after an operation. -/
def apply (t : Table) (op : Op) : Table :=
  (t.perform op).2

theorem apply_store {t t' : Table} {v : Value} {ref : Ref} (h : t.store v = .ok (ref, t')) :
    t.apply (.store v) = t' := by
  rw [apply, perform, h]

theorem result_store {t t' : Table} {v : Value} {ref : Ref} (h : t.store v = .ok (ref, t')) :
    t.result (.store v) = .stored ref := by
  rw [result, perform, h]

/-- The table after operations in order. -/
def run (t : Table) (ops : List Op) : Table :=
  ops.foldl apply t

theorem run_append (t : Table) (ops ops' : List Op) :
    t.run (ops ++ ops') = (t.run ops).run ops' :=
  List.foldl_append

theorem run_concat (t : Table) (ops : List Op) (op : Op) :
    t.run (ops ++ [op]) = (t.run ops).apply op :=
  t.run_append ops [op]

/-! ## The slots -/

variable {t : Table} {id : UInt32} {v : Value} {slot : Slot}

@[simp] theorem slot?_withPool (t : Table) (pool : List UInt32) (id : UInt32) :
    ({ t with pool } : Table).slot? id = t.slot? id := rfl

theorem lt_size_of_slot? (h : t.slot? id = some slot) : id.toNat < t.slots.size :=
  (Array.getElem?_eq_some_iff.1 h).1

theorem slot?_eq_none_iff : t.slot? id = none ↔ t.slots.size ≤ id.toNat :=
  Array.getElem?_eq_none_iff

@[simp] theorem size_put (t : Table) (id : UInt32) (slot : Slot) :
    (t.put id slot).slots.size = t.slots.size :=
  Array.size_setIfInBounds

/-- Another slot at an id changes nothing at the other ids. -/
theorem slot?_put_of_ne {id' : UInt32} (h : id' ≠ id) (t : Table) (new : Slot) :
    (t.put id new).slot? id' = t.slot? id' := by
  rw [slot?, put, Array.getElem?_setIfInBounds, if_neg fun hid => h (UInt32.toNat_inj.1 hid.symm),
    slot?]

/-- What is found at an id where a slot was put is this slot. -/
theorem eq_of_slot?_put {new : Slot} (h : (t.put id new).slot? id = some slot) : slot = new := by
  rw [slot?, put, Array.getElem?_setIfInBounds, if_pos rfl] at h
  split at h
  · cases h
    rfl
  · cases h

theorem slot?_put {old : Slot} (h : t.slot? id = some old) (new : Slot) (id' : UInt32) :
    (t.put id new).slot? id' = if id' = id then some new else t.slot? id' := by
  by_cases hid : id' = id
  · subst hid
    rw [slot?, put, Array.getElem?_setIfInBounds, if_pos rfl, if_pos rfl,
      if_pos (lt_size_of_slot? h)]
  · rw [slot?_put_of_ne hid, if_neg hid]

/-- A slot at the end changes nothing at the ids before. -/
theorem slot?_push (t : Table) (new : Slot) (id : UInt32) :
    ({ t with slots := t.slots.push new } : Table).slot? id =
      if id.toNat = t.slots.size then some new else t.slot? id := by
  rw [slot?, Array.getElem?_push, slot?]

/-- The id of the slot after the last one. -/
theorem toNat_ofNat_size (h : t.slots.size < maxSlots) :
    (UInt32.ofNat t.slots.size).toNat = t.slots.size :=
  UInt32.toNat_ofNat_of_lt' h

/-! ## Live slots -/

theorem isLive_iff : t.isLive id = true ↔ ∃ v claims, t.slot? id = some (.live v claims) := by
  rw [isLive]
  split
  · next v claims h => exact iff_of_true rfl ⟨v, claims, h⟩
  · next h => exact iff_of_false Bool.false_ne_true fun ⟨v, claims, h'⟩ => h v claims h'

theorem load_eq_ok_iff : t.load id = .ok v ↔ ∃ claims, t.slot? id = some (.live v claims) := by
  rw [load]
  split
  · next w claims h =>
    constructor
    · rintro ⟨rfl⟩
      exact ⟨claims, h⟩
    · rintro ⟨claims', h'⟩
      rw [h] at h'
      cases h'
      rfl
  · next h => simp [h]
  · next h => simp [h]

theorem isLive_of_load (h : t.load id = .ok v) : t.isLive id = true :=
  let ⟨claims, h⟩ := load_eq_ok_iff.1 h
  isLive_iff.2 ⟨v, claims, h⟩

theorem load_of_isLive (h : t.isLive id = true) : ∃ v, t.load id = .ok v :=
  let ⟨v, claims, h⟩ := isLive_iff.1 h
  ⟨v, load_eq_ok_iff.2 ⟨claims, h⟩⟩

/-- A load of a free slot is refused as such, and no other is. -/
theorem load_eq_released_iff {id' : UInt32} :
    t.load id = .error (.releasedSlot id') ↔ id' = id ∧ t.slot? id = some .free := by
  rw [load]
  split
  · next h => simp [h]
  · next h => simp [h, eq_comm]
  · next h => simp [h]

/-- A load past the slots is refused as such, and no other is. -/
theorem load_eq_unknown_iff {id' : UInt32} :
    t.load id = .error (.unknownSlot id') ↔ id' = id ∧ t.slots.size ≤ id.toNat := by
  rw [← slot?_eq_none_iff, load]
  split
  · next h => simp [h]
  · next h => simp [h]
  · next h => simp [h, eq_comm]

/-! ## Steps -/

/-- What an operation can do to a table. -/
inductive Step (t : Table) : Op → Result → Table → Prop
  /-- A value that takes no slot. -/
  | immediate {v : Value} {ref : Ref} : immediate? v = some ref →
      Step t (.store v) (.stored ref) t
  /-- The slot freed last is taken again. -/
  | reuse {v : Value} {id : UInt32} {pool : List UInt32} : immediate? v = none →
      t.pool = id :: pool →
      Step t (.store v) (.stored (.boxed id (.ofValue v))) { t.put id (.live v 1) with pool }
  /-- No slot waits, and a new one is taken. -/
  | grow {v : Value} : immediate? v = none → t.pool = [] → t.slots.size < maxSlots →
      Step t (.store v) (.stored (.boxed (UInt32.ofNat t.slots.size) (.ofValue v)))
        { t with slots := t.slots.push (.live v 1) }
  /-- No slot is left. -/
  | full {v : Value} : immediate? v = none → t.pool = [] → maxSlots ≤ t.slots.size →
      Step t (.store v) (.failed .tableFull) t
  /-- The claims on a singleton are not counted. -/
  | retainSingleton {id : UInt32} : id ≤ Singleton.lastSlot →
      Step t (.retain id) (.retained maxClaims) t
  /-- One claim more. -/
  | claim {id : UInt32} {v : Value} {claims : Nat} : Singleton.lastSlot < id →
      t.slot? id = some (.live v claims) →
      Step t (.retain id) (.retained (min (claims + 1) maxClaims))
        (t.put id (.live v (min (claims + 1) maxClaims)))
  /-- No claim on a free slot. -/
  | retainFree {id : UInt32} : Singleton.lastSlot < id → t.slot? id = some .free →
      Step t (.retain id) (.failed (.releasedSlot id)) t
  /-- No claim on a slot that was never handed out. -/
  | retainUnknown {id : UInt32} : Singleton.lastSlot < id → t.slot? id = none →
      Step t (.retain id) (.failed (.unknownSlot id)) t
  /-- A singleton stays. -/
  | releaseSingleton {id : UInt32} : id ≤ Singleton.lastSlot →
      Step t (.release id) (.released .singleton) t
  /-- One claim less, and others remain. -/
  | unclaim {id : UInt32} {v : Value} {claims : Nat} : Singleton.lastSlot < id →
      t.slot? id = some (.live v claims) → 1 < claims →
      Step t (.release id) (.released (.retained (claims - 1)))
        (t.put id (.live v (claims - 1)))
  /-- The last claim. -/
  | free {id : UInt32} {v : Value} {claims : Nat} : Singleton.lastSlot < id →
      t.slot? id = some (.live v claims) → claims ≤ 1 →
      Step t (.release id) (.released .freed) { t.put id .free with pool := id :: t.pool }
  /-- A slot that is not live stays as it is. -/
  | releaseDead {id : UInt32} : Singleton.lastSlot < id → t.isLive id = false →
      Step t (.release id) (.released .notLive) t

theorem step_store (t : Table) (v : Value) :
    t.Step (.store v) (t.result (.store v)) (t.apply (.store v)) := by
  rw [result, apply, perform, store]
  cases himm : immediate? v with
  | some ref => exact .immediate himm
  | none =>
    rw [allocate]
    cases hpool : t.pool with
    | cons id pool => exact .reuse himm hpool
    | nil =>
      by_cases hsize : t.slots.size < maxSlots
      · have h := Step.grow himm hpool hsize
        rw [hpool] at h
        rw [if_pos hsize]
        exact h
      · rw [if_neg hsize]
        exact .full himm hpool (Nat.not_lt.1 hsize)

theorem step_retain (t : Table) (id : UInt32) :
    t.Step (.retain id) (t.result (.retain id)) (t.apply (.retain id)) := by
  rw [result, apply, perform, retain]
  by_cases hid : id ≤ Singleton.lastSlot
  · rw [if_pos hid]
    exact .retainSingleton hid
  · rw [if_neg hid]
    have hid := UInt32.not_le.1 hid
    split
    · next h =>
      split at h
      · next hslot => cases h; exact .claim hid hslot
      · cases h
      · cases h
    · next h =>
      split at h
      · cases h
      · next hslot => cases h; exact .retainFree hid hslot
      · next hslot => cases h; exact .retainUnknown hid hslot

theorem step_release (t : Table) (id : UInt32) :
    t.Step (.release id) (t.result (.release id)) (t.apply (.release id)) := by
  rw [result, apply, perform, release]
  by_cases hid : id ≤ Singleton.lastSlot
  · rw [if_pos hid]
    exact .releaseSingleton hid
  · rw [if_neg hid]
    have hid := UInt32.not_le.1 hid
    split
    · next v claims hslot =>
      by_cases hclaims : 1 < claims
      · rw [if_pos hclaims]
        exact .unclaim hid hslot hclaims
      · rw [if_neg hclaims]
        exact .free hid hslot (Nat.not_lt.1 hclaims)
    · next hslot =>
      refine .releaseDead hid (Bool.eq_false_iff.2 fun hlive => ?_)
      obtain ⟨v, claims, h⟩ := isLive_iff.1 hlive
      exact hslot v claims h

/-- An operation does one of these. -/
theorem step (t : Table) (op : Op) : t.Step op (t.result op) (t.apply op) := by
  cases op with
  | store v => exact t.step_store v
  | retain id => exact t.step_retain id
  | release id => exact t.step_release id

/-! ## Slots that become live -/

/-- A slot that a store makes live is the one that its reference names, with the value. -/
theorem Step.load_of_store {ref : Ref} {t' : Table} (hs : t.Step (.store v) (.stored ref) t')
    (hdead : t.isLive id = false) (hlive : t'.isLive id = true) :
    ref = .boxed id (.ofValue v) ∧ t'.load id = .ok v := by
  obtain ⟨w, claims, hslot⟩ := isLive_iff.1 hlive
  have hnot : t.slot? id ≠ some (.live w claims) := fun h => by
    rw [isLive_iff.2 ⟨w, claims, h⟩] at hdead
    cases hdead
  -- A slot that was live before is not meant, so the store has to have put this one.
  cases hs with
  | immediate => exact absurd hslot hnot
  | @reuse _ id' =>
    rw [slot?_withPool] at hslot
    by_cases hid : id = id'
    · subst hid
      cases eq_of_slot?_put hslot
      exact ⟨rfl, load_eq_ok_iff.2 ⟨1, hslot⟩⟩
    · rw [slot?_put_of_ne hid] at hslot
      exact absurd hslot hnot
  | grow _ _ hsize =>
    by_cases hid : id.toNat = t.slots.size
    · have hslot' := hslot
      rw [slot?_push, if_pos hid] at hslot'
      cases hslot'
      rw [← hid, UInt32.ofNat_toNat]
      exact ⟨rfl, load_eq_ok_iff.2 ⟨1, hslot⟩⟩
    · rw [slot?_push, if_neg hid] at hslot
      exact absurd hslot hnot

/-- A release makes no slot live. -/
theorem Step.isLive_of_release {id' : UInt32} {r : Result} {t' : Table}
    (hs : t.Step (.release id') r t') (hlive : t'.isLive id = true) : t.isLive id = true := by
  obtain ⟨w, claims, hslot⟩ := isLive_iff.1 hlive
  cases hs with
  | releaseSingleton => exact hlive
  | unclaim _ hold =>
    by_cases hid : id = id'
    · rw [hid]
      exact isLive_iff.2 ⟨_, _, hold⟩
    · rw [slot?_put_of_ne hid] at hslot
      exact isLive_iff.2 ⟨w, claims, hslot⟩
  | free _ hold =>
    by_cases hid : id = id'
    · rw [hid]
      exact isLive_iff.2 ⟨_, _, hold⟩
    · rw [slot?_withPool, slot?_put_of_ne hid] at hslot
      exact isLive_iff.2 ⟨w, claims, hslot⟩
  | releaseDead => exact hlive

/-- What is in a slot was in it before, or is what was stored. -/
theorem Step.load_or_stored {op : Op} {r : Result} {t' : Table} (hs : t.Step op r t')
    (hload : t'.load id = .ok v) : t.load id = .ok v ∨ op = .store v := by
  obtain ⟨claims, hslot⟩ := load_eq_ok_iff.1 hload
  cases hs with
  | immediate | full | retainSingleton | retainFree | retainUnknown | releaseSingleton
  | releaseDead => exact .inl hload
  | @reuse w id' =>
    rw [slot?_withPool] at hslot
    by_cases hid : id = id'
    · subst hid
      cases eq_of_slot?_put hslot
      exact .inr rfl
    · rw [slot?_put_of_ne hid] at hslot
      exact .inl (load_eq_ok_iff.2 ⟨claims, hslot⟩)
  | grow =>
    rw [slot?_push] at hslot
    split at hslot
    · cases hslot
      exact .inr rfl
    · exact .inl (load_eq_ok_iff.2 ⟨claims, hslot⟩)
  | @claim id' _ _ _ hold | @unclaim id' _ _ _ hold =>
    rw [slot?_put hold] at hslot
    split at hslot
    · next hid =>
      cases hslot
      exact .inl (load_eq_ok_iff.2 ⟨_, hid ▸ hold⟩)
    · exact .inl (load_eq_ok_iff.2 ⟨claims, hslot⟩)
  | @free id' _ _ _ hold =>
    rw [slot?_withPool, slot?_put hold] at hslot
    split at hslot
    · cases hslot
    · exact .inl (load_eq_ok_iff.2 ⟨claims, hslot⟩)

theorem step_of_store {v : Value} {ref : Ref} {t' : Table} (h : t.store v = .ok (ref, t')) :
    t.Step (.store v) (.stored ref) t' := by
  have hs := t.step (.store v)
  rwa [result, apply, perform, h] at hs

theorem step_of_release {release : Release} {t' : Table} (h : t.release id = (release, t')) :
    t.Step (.release id) (.released release) t' := by
  have hs := t.step (.release id)
  rwa [result, apply, perform, h] at hs

end ValueBridge.Table
