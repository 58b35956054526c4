import ValueBridge.Proofs.Bridge.Delivery
import ValueBridge.Proofs.Table.Lifetime

/-!
# References stand for values

A reference *stands for* a value in a table: a number for itself, and a boxed slot for the
value of the slot (`Table.standsFor`). The reference of a value that is stored stands for
the value (`Table.standsFor_store`), and keeps doing so while its slot stays live
(`Table.standsFor_apply`). What a reference in memory stands for is what is loaded of it
(`Bridge.loadRef_apply`).

The one thing that gets lost is the payload of a NaN (`Value.received`).
-/

namespace ValueBridge

/-- The value as it is received once it was stored. All NaNs are received as one. -/
def Value.received : Value → Value
  | .number x => .number (if x.isNaN then .nan else x)
  | v => v

theorem Value.received_of_immediate?_eq_none {v : Value} (h : Table.immediate? v = none) :
    v.received = v := by
  cases v <;> first | rfl | cases h

namespace Ref

theorem isSettled_boxed (slot : UInt32) (tag : Tag) : (boxed slot tag).isSettled = true := by
  rw [isSettled, isBoxed_boxed, Bool.true_or]

theorem isSettled_ofNumber {x : Binary64} (h : x.isNaN = false) :
    (ofNumber x).isSettled = true := by
  rw [isSettled, number?_ofNumber h, Option.isSome_some, Bool.or_true]

end Ref

namespace Table

/-- What a reference stands for. -/
def standsFor (t : Table) (r : Ref) : Except BridgeFault Value :=
  match r.number?, r.slot? with
  | some x, _ => .ok (.number x)
  | none, some id => t.load id
  | none, none => .ok (.number .nan)

variable {t t' : Table} {ref : Ref} {v : Value}

@[simp] theorem standsFor_boxed (t : Table) (id : UInt32) (tag : Tag) :
    t.standsFor (.boxed id tag) = t.load id := by
  rw [standsFor, Ref.number?_boxed, Ref.slot?_boxed]

theorem standsFor_ofNumber {x : Binary64} (h : x.isNaN = false) (t : Table) :
    t.standsFor (.ofNumber x) = .ok (.number x) := by
  rw [standsFor, Ref.number?_ofNumber h]

/-! ## Storing -/

/-- A value that takes no slot leaves the table as it is. -/
theorem eq_of_store_immediate (hv : immediate? v ≠ none) (hstore : t.store v = .ok (ref, t')) :
    t' = t := by
  rw [store] at hstore
  cases himm : immediate? v with
  | none => exact absurd himm hv
  | some ref' =>
    rw [himm] at hstore
    cases hstore
    rfl

/-- A reference without a slot of its own is a number or names a singleton. -/
theorem of_immediate? (himm : immediate? v = some ref) :
    (∃ x, v = .number x ∧ x.isNaN = false ∧ ref = .ofNumber x) ∨
      ∃ s : Singleton, ref = s.ref ∧ ∀ global runtime, s.value global runtime = v.received := by
  cases v with
  | number x =>
    cases hx : x.isNaN with
    | true =>
      rw [immediate?, hx, if_pos rfl] at himm
      refine .inr ⟨.nan, (Option.some_inj.1 himm).symm, fun _ _ => ?_⟩
      rw [Value.received, hx, if_pos rfl]
      rfl
    | false =>
      rw [immediate?, hx, if_neg Bool.false_ne_true] at himm
      exact .inl ⟨x, rfl, hx, (Option.some_inj.1 himm).symm⟩
  | null => exact .inr ⟨.null, (Option.some_inj.1 himm).symm, fun _ _ => rfl⟩
  | undefined => exact .inr ⟨.undefined, (Option.some_inj.1 himm).symm, fun _ _ => rfl⟩
  | _ => cases himm

/-- The reference of a value that is stored is no foreign NaN. -/
theorem isSettled_store (hstore : t.store v = .ok (ref, t')) : ref.isSettled = true := by
  cases step_of_store hstore with
  | immediate himm =>
    rcases of_immediate? himm with ⟨x, _, hx, rfl⟩ | ⟨s, rfl, _⟩
    · exact Ref.isSettled_ofNumber hx
    · exact Ref.isSettled_boxed _ _
  | reuse | grow => exact Ref.isSettled_boxed _ _

/-- The reference of a value that is stored stands for the value. -/
theorem standsFor_store {global runtime : Value} (h : t.WellFormed)
    (hsingletons : ∀ s : Singleton, t.load s.slot = .ok (s.value global runtime))
    (hstore : t.store v = .ok (ref, t')) : t'.standsFor ref = .ok v.received := by
  have hs := step_of_store hstore
  cases himm : immediate? v with
  | some ref' =>
    obtain rfl : t' = t := eq_of_store_immediate (by rw [himm]; exact Option.some_ne_none _) hstore
    rw [store, himm] at hstore
    cases hstore
    rcases of_immediate? himm with ⟨x, rfl, hx, rfl⟩ | ⟨s, rfl, hvalue⟩
    · rw [standsFor_ofNumber hx, Value.received, hx, if_neg Bool.false_ne_true]
    · rw [Singleton.ref, standsFor_boxed, hsingletons, hvalue]
  | none =>
    rw [Value.received_of_immediate?_eq_none himm]
    rcases hs.of_store h himm with ⟨hr, _⟩ | ⟨id, hr, _, _, hload⟩
    · cases hr
    · cases hr
      rw [standsFor_boxed, hload]

/-- A reference stands for the same value after an operation that leaves its slot live. -/
theorem standsFor_apply {op : Op} (h : t.WellFormed) (href : t.standsFor ref = .ok v)
    (hlive : ∀ id, ref.slot? = some id → t.isLive id = true → (t.apply op).isLive id = true) :
    (t.apply op).standsFor ref = .ok v := by
  rw [standsFor] at href ⊢
  cases hnumber : ref.number? with
  | some x =>
    rw [hnumber] at href
    exact href
  | none =>
    rw [hnumber] at href
    cases hslot : ref.slot? with
    | none =>
      rw [hslot] at href
      exact href
    | some id =>
      rw [hslot] at href
      -- Nothing but the release that frees the slot changes what is in it.
      refine load_apply h href fun hfrees => ?_
      have hlive' := hlive id hslot (isLive_of_load href)
      rw [isLive_apply_of_frees hfrees] at hlive'
      cases hlive'

end Table

namespace Bridge

open ValueBridge.Action

variable {s : State} {addr : UInt32} {ref : Ref}

theorem resolve_apply (ref : Ref) (s : State) : resolve ref s = (s.table.standsFor ref, s) := by
  rw [resolve, Table.standsFor]
  cases ref.number? <;> cases ref.slot? <;> rfl

/-- What is loaded is what the reference stands for. -/
theorem loadRef_apply (hread : s.memory.readRef? addr = .ok (some ref))
    (hsettled : ref.isSettled = true) : loadRef addr s = (s.table.standsFor ref, s) := by
  have hsettle : settleRef addr ref s = (.ok ref, s) := by
    rw [settleRef, hsettled, Ref.settled, hsettled]
    rfl
  have hread? : readRef? addr s = (.ok (some ref), s) := by
    rw [readRef?, get_bind, lift_bind_of_ok hread]
    exact bind_of_ok hsettle
  rw [loadRef, bind_of_ok hread?]
  exact resolve_apply ref s

theorem settleRef_apply (addr : UInt32) (ref : Ref) (s : State) :
    ∃ log, settleRef addr ref s = (.ok ref.settled, { s with log }) := by
  rw [settleRef]
  cases ref.isSettled with
  | true => exact ⟨s.log, rfl⟩
  | false => exact ⟨s.log.push (.foreignNaN addr ref), rfl⟩

/-- What is loaded depends on the table and the memory alone. -/
theorem loadRef_fst (addr : UInt32) (s : State) :
    (loadRef addr s).1 = s.memory.readRef? addr >>= fun ref? =>
      match ref? with
      | none => .ok .undefined
      | some ref => s.table.standsFor ref.settled := by
  rw [loadRef]
  cases hread : s.memory.readRef? addr with
  | error fault =>
    have h : readRef? addr s = (.error fault, s) := lift_bind_of_error hread s
    rw [bind_of_error h]
    rfl
  | ok ref? =>
    cases ref? with
    | none =>
      have h : readRef? addr s = (.ok none, s) := lift_bind_of_ok hread s
      rw [bind_of_ok h]
      rfl
    | some ref =>
      obtain ⟨log, hsettle⟩ := settleRef_apply addr ref s
      have h : readRef? addr s = (.ok (some ref.settled), { s with log }) :=
        (lift_bind_of_ok hread s).trans (bind_of_ok hsettle)
      rw [bind_of_ok h]
      exact congrArg Prod.fst (resolve_apply ref.settled { s with log })

end Bridge

end ValueBridge
