import ValueBridge.Proofs.Bridge.Frame
import ValueBridge.Proofs.Memory
import ValueBridge.Proofs.Table.Step

/-!
# Deliveries

A value is *delivered* to the guest by storing it and writing its reference to an address.
This happens as a whole or not at all: nothing is stored unless the reference can be
written, and nothing is written unless the value is stored (`Delivery`, `delivery_storeRef`).

An action that leaves table and memory as they are, and then delivers a value, does no
more to them than the delivery (`Action.Delivers.delivery`).
-/

namespace ValueBridge

/-- The states have the same table and the same memory. -/
structure State.SameStore (s s' : State) : Prop where
  table : s'.table = s.table
  memory : s'.memory = s.memory

theorem State.frame_sameStore : Action.Frame State.SameStore where
  log _ _ := ⟨rfl, rfl⟩
  trans h h' := ⟨h'.table.trans h.table, h'.memory.trans h.memory⟩

/-- What the delivery of a value to an address does to the table and the memory. -/
inductive Delivery (out : UInt32) (v : Value) (s s' : State) : Except BridgeFault Unit → Prop
  /-- The delivery is refused, and nothing happens. -/
  | refused {fault : BridgeFault} : s.SameStore s' → Delivery out v s s' (.error fault)
  /-- No memory is bound, and nothing happens. -/
  | lost : s.memory = .unbound → s.SameStore s' → Delivery out v s s' (.ok ())
  /-- The value is stored and its reference written. -/
  | written {bytes : Array UInt8} {ref : Ref} : s.memory = .bound bytes →
      out.toNat + Memory.refSize ≤ bytes.size → s.table.store v = .ok (ref, s'.table) →
      s'.memory = .bound (Memory.overwrite bytes out.toNat (Memory.refBytes ref)) →
      Delivery out v s s' (.ok ())

/-- A delivery is that from any state with the same table and memory. -/
theorem Delivery.of_sameStore {out : UInt32} {v : Value} {s t s' : State}
    {r : Except BridgeFault Unit} (h : s.SameStore t) (hd : Delivery out v t s' r) :
    Delivery out v s s' r := by
  cases hd with
  | refused hsame => exact .refused (State.frame_sameStore.trans h hsame)
  | lost hmem hsame => exact .lost (h.memory ▸ hmem) (State.frame_sameStore.trans h hsame)
  | written hmem hin hstore hmem' =>
    exact .written (h.memory ▸ hmem) hin (h.table ▸ hstore) hmem'

/-- A delivery changes the bytes of the reference alone. -/
theorem Delivery.agreesBut {out : UInt32} {v : Value} {s s' : State} {r : Except BridgeFault Unit}
    (hd : Delivery out v s s' r) :
    s.memory.AgreesBut (fun i => out.toNat ≤ i ∧ i < out.toNat + Memory.refSize) s'.memory := by
  cases hd with
  | refused hsame | lost _ hsame =>
    rw [hsame.memory]
    exact .refl _ _
  | @written bytes ref hmem hin _ hmem' =>
    have hlength := Memory.length_refBytes ref
    rw [hmem, hmem']
    exact Memory.agreesBut_overwrite (by rwa [hlength]) fun i hle hlt => ⟨hle, hlength ▸ hlt⟩

/-- A delivery is a store to the table, or nothing. -/
theorem Delivery.table {out : UInt32} {v : Value} {s s' : State} {r : Except BridgeFault Unit}
    (hd : Delivery out v s s' r) : s'.table = s.table ∨ s'.table = s.table.apply (.store v) := by
  cases hd with
  | refused hsame | lost _ hsame => exact .inl hsame.table
  | written _ _ hstore => exact .inr (Table.apply_store hstore).symm

namespace Memory

theorem eq_bound_of_isBound {m : Memory} (h : m.isBound = true) : ∃ bytes, m = .bound bytes := by
  cases m with
  | unbound => cases h
  | bound bytes => exact ⟨bytes, rfl⟩

end Memory

namespace Bridge

open ValueBridge.Action

variable {s : State} {v : Value} {addr : UInt32}

/-! ## Storing -/

/-- What is done by a store, but for the report, is done to the table. -/
theorem storeValue_eq_report {ref : Ref} {table : Table} (h : s.table.store v = .ok (ref, table)) :
    storeValue v s = (.ok ref, (reportIfAny (Event.ofStore? ref) { s with table }).2) := by
  obtain ⟨log, hlog⟩ := reportIfAny_apply (Event.ofStore? ref) { s with table }
  rw [storeValue, get_bind, lift_bind_of_ok h]
  change (reportIfAny (Event.ofStore? ref) >>= fun _ => pure ref) { s with table } = _
  rw [bind_of_ok hlog, hlog]
  rfl

theorem storeValue_of_ok {ref : Ref} {table : Table} (h : s.table.store v = .ok (ref, table)) :
    ∃ log, storeValue v s = (.ok ref, { s with table, log }) := by
  obtain ⟨log, hlog⟩ := reportIfAny_apply (Event.ofStore? ref) { s with table }
  exact ⟨log, by rw [storeValue_eq_report h, hlog]⟩

theorem storeValue_of_error {fault : BridgeFault} (h : s.table.store v = .error fault) :
    storeValue v s = (.error fault, s) := by
  rw [storeValue, get_bind, lift_bind_of_error h]

/-! ## Writing -/

theorem writeBytes_bound {bytes : Array UInt8} {data : List UInt8} (hmem : s.memory = .bound bytes)
    (hin : addr.toNat + data.length ≤ bytes.size) :
    writeBytes addr data s =
      (.ok (), { s with memory := .bound (Memory.overwrite bytes addr.toNat data) }) := by
  have hwrite : s.memory.write addr data =
      .ok (.bound (Memory.overwrite bytes addr.toNat data)) := by
    rw [hmem, Memory.write, if_pos hin]
  rw [writeBytes, get_bind, lift_bind_of_ok hwrite]
  rfl

/-- Bytes are written as a whole or not at all. -/
theorem writeBytes_out {bytes : Array UInt8} {data : List UInt8} (hmem : s.memory = .bound bytes)
    (hin : ¬addr.toNat + data.length ≤ bytes.size) :
    writeBytes addr data s = (.error (.outOfBounds addr data.length bytes.size), s) := by
  have hwrite : s.memory.write addr data = .error (.outOfBounds addr data.length bytes.size) := by
    rw [hmem, Memory.write, if_neg hin]
  rw [writeBytes, get_bind, lift_bind_of_error hwrite]

/-! ## Delivering -/

theorem storeRef_unbound (hmem : s.memory = .unbound) : storeRef addr v s = (.ok (), s) := by
  have hbound : s.memory.isBound = false := by rw [hmem]; rfl
  rw [storeRef, get_bind]
  simp only [hbound, Bool.false_eq_true, if_false]
  rfl

theorem storeRef_out {bytes : Array UInt8} (hmem : s.memory = .bound bytes)
    (hin : ¬addr.toNat + Memory.refSize ≤ bytes.size) :
    storeRef addr v s = (.error (.outOfBounds addr Memory.refSize bytes.size), s) := by
  have hbound : s.memory.isBound = true := by rw [hmem]; rfl
  have hcheck : s.memory.check addr Memory.refSize =
      .error (.outOfBounds addr Memory.refSize bytes.size) := by
    rw [hmem, Memory.check, if_neg hin]
  rw [storeRef, get_bind]
  simp only [hbound, if_true]
  rw [lift_bind_of_error hcheck]

theorem storeRef_in {bytes : Array UInt8} (hmem : s.memory = .bound bytes)
    (hin : addr.toNat + Memory.refSize ≤ bytes.size) :
    storeRef addr v s = (storeValue v >>= writeRef addr) s := by
  have hbound : s.memory.isBound = true := by rw [hmem]; rfl
  have hcheck : s.memory.check addr Memory.refSize = .ok () := by
    rw [hmem, Memory.check, if_pos hin]
  rw [storeRef, get_bind]
  simp only [hbound, if_true]
  rw [lift_bind_of_ok hcheck]

theorem storeRef_of_ok {bytes : Array UInt8} {ref : Ref} {table : Table}
    (hmem : s.memory = .bound bytes) (hin : addr.toNat + Memory.refSize ≤ bytes.size)
    (hstore : s.table.store v = .ok (ref, table)) :
    ∃ log, storeRef addr v s = (.ok (), { s with
      table
      memory := .bound (Memory.overwrite bytes addr.toNat (Memory.refBytes ref))
      log }) := by
  obtain ⟨log, hvalue⟩ := storeValue_of_ok hstore
  refine ⟨log, ?_⟩
  rw [storeRef_in hmem hin, bind_of_ok hvalue, writeRef]
  exact writeBytes_bound (s := { s with table, log }) hmem (by rwa [Memory.length_refBytes])

/-- Where a reference has room, a value is delivered unless it cannot be stored. -/
theorem storeRef_cases_in {bytes : Array UInt8} (hmem : s.memory = .bound bytes)
    (hin : addr.toNat + Memory.refSize ≤ bytes.size) (v : Value) :
    (∃ fault, s.table.store v = .error fault ∧ storeRef addr v s = (.error fault, s)) ∨
    ∃ ref table log, s.table.store v = .ok (ref, table) ∧
      storeRef addr v s = (.ok (), { s with
        table
        memory := .bound (Memory.overwrite bytes addr.toNat (Memory.refBytes ref))
        log }) := by
  cases hstore : s.table.store v with
  | error fault =>
    refine .inl ⟨fault, rfl, ?_⟩
    rw [storeRef_in hmem hin, bind_of_error (storeValue_of_error hstore)]
  | ok stored =>
    obtain ⟨ref, table⟩ := stored
    obtain ⟨log, hstored⟩ := storeRef_of_ok hmem hin hstore
    exact .inr ⟨ref, table, log, rfl, hstored⟩

/-- A value is delivered as a whole or not at all. -/
theorem storeRef_cases (addr : UInt32) (v : Value) (s : State) :
    (s.memory = .unbound ∧ storeRef addr v s = (.ok (), s)) ∨
    (∃ fault, storeRef addr v s = (.error fault, s)) ∨
    ∃ bytes ref table log, s.memory = .bound bytes ∧
      addr.toNat + Memory.refSize ≤ bytes.size ∧ s.table.store v = .ok (ref, table) ∧
      storeRef addr v s = (.ok (), { s with
        table
        memory := .bound (Memory.overwrite bytes addr.toNat (Memory.refBytes ref))
        log }) := by
  cases hmem : s.memory with
  | unbound => exact .inl ⟨rfl, storeRef_unbound hmem⟩
  | bound bytes =>
    refine .inr ?_
    -- The address is checked before the value is stored, so a store that succeeds is written.
    by_cases hin : addr.toNat + Memory.refSize ≤ bytes.size
    · rcases storeRef_cases_in hmem hin v with ⟨fault, _, h⟩ | ⟨ref, table, log, hstore, h⟩
      · exact .inl ⟨fault, h⟩
      · exact .inr ⟨bytes, ref, table, log, rfl, hin, hstore, h⟩
    · exact .inl ⟨_, storeRef_out hmem hin⟩

theorem delivery_storeRef (addr : UInt32) (v : Value) (s : State) :
    Delivery addr v s (storeRef addr v s).2 (storeRef addr v s).1 := by
  rcases storeRef_cases addr v s with ⟨hmem, h⟩ | ⟨fault, h⟩ |
    ⟨bytes, ref, table, log, hmem, hin, hstore, h⟩ <;> rw [h]
  · exact .lost hmem ⟨rfl, rfl⟩
  · exact .refused ⟨rfl, rfl⟩
  · exact .written hmem hin hstore rfl

theorem failsWithin_storeRef {R : State → State → Prop} (hR : Frame R) (addr : UInt32)
    (v : Value) : (storeRef addr v).FailsWithin R := by
  intro s fault s' h
  rcases storeRef_cases addr v s with ⟨_, h'⟩ | ⟨_, h'⟩ | ⟨_, _, _, _, _, _, _, h'⟩ <;>
    rw [h'] at h <;> cases h
  exact hR.refl s

end Bridge

namespace Action

variable {α : Type} {R : State → State → Prop} {out : UInt32} {x : Action Unit}

/-- The action goes within the frame, and at last delivers a value. -/
def Delivers (R : State → State → Prop) (out : UInt32) (x : Action Unit) : Prop :=
  x.Leads R fun y => ∃ v, y = Bridge.storeRef out v

theorem delivers_storeRef (hR : Frame R) (out : UInt32) (v : Value) :
    (Bridge.storeRef out v).Delivers R out :=
  .of_mem hR ⟨v, rfl⟩

namespace Delivers

theorem bind {x : Action α} {f : α → Action Unit} (hR : Frame R) (hx : x.Within R)
    (hf : ∀ a, (f a).Delivers R out) : (x >>= f).Delivers R out :=
  Leads.bind hR hx hf

/-- All that happens to the table and the memory is the delivery. -/
theorem delivery (hx : x.Delivers R out) (hR : ∀ s t, R s t → s.SameStore t) (s : State) :
    ∃ v, Delivery out v s (x s).2 (x s).1 := by
  obtain ⟨t, hst, ⟨fault, hxs⟩ | ⟨_, ⟨v, rfl⟩, hxs⟩⟩ := hx s <;> rw [hxs]
  · exact ⟨default, .refused (hR s t hst)⟩
  · exact ⟨v, (Bridge.delivery_storeRef out v t).of_sameStore (hR s t hst)⟩

theorem failsWithin (hR : Frame R) (hx : x.Delivers R out) : x.FailsWithin R := by
  refine Leads.failsWithin hR hx ?_
  rintro _ ⟨v, rfl⟩
  exact Bridge.failsWithin_storeRef hR out v

end Delivers

end Action

end ValueBridge
