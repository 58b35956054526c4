import ValueBridge.Proofs.Bridge.Tracing
import ValueBridge.Proofs.Import.Effect

/-!
# Traces of imports

An import reads first, in silence, and at last stores a value or releases a claim, if it does
anything to the table: so it records (`Call.records_perform`).
-/

namespace ValueBridge

variable {D : Table.Op → Prop}

namespace Import

open ValueBridge.Action Bridge

/-! ## What is silent -/

theorem silent_slotText (id : UInt32) : (slotText id).Silent :=
  .bind (silent_loadValue id) fun _ => .bind .get fun _ => .lift _

theorem silent_loadArgsFrom (argsAddr : UInt32) (taken : List Value) (index : UInt32)
    (left : Nat) : (loadArgsFrom argsAddr taken index left).Silent := by
  induction left generalizing taken index with
  | zero => exact .pure _
  | succ left ih => exact .bind (.lift _) fun addr => .bind (silent_loadRef addr) fun v => ih _ _

theorem silent_loadArgs (argsAddr argCount : UInt32) : (loadArgs argsAddr argCount).Silent :=
  silent_loadArgsFrom argsAddr [] 0 argCount.toNat

theorem silent_valueSet (object keyAddr keyLength valueAddr : UInt32) :
    (valueSet object keyAddr keyLength valueAddr).Silent := by
  refine .bind (silent_loadValue object) fun target => ?_
  refine .bind (silent_readText keyAddr keyLength) fun key => ?_
  refine .bind (silent_loadRef valueAddr) fun v => ?_
  refine .bind .get fun s => .bind (.lift _) fun (written, heap) => ?_
  refine .bind (.modify (fun _ => rfl) fun _ => rfl) fun _ => ?_
  split
  · exact .report nofun
  · exact .pure _

theorem silent_valueStringLen (id : UInt32) : (valueStringLen id).Silent := by
  refine .bind (silent_slotText id) fun text => ?_
  dsimp only
  split
  · exact .pure _
  · exact .throw _

theorem silent_valueStringCopy (id addr capacity : UInt32) :
    (valueStringCopy id addr capacity).Silent := by
  refine .bind .get fun s => ?_
  split
  · refine .bind (silent_slotText id) fun text => ?_
    dsimp only
    split
    · exact .report nofun
    · exact silent_writeBytes addr _
  · exact .pure _

/-! ## What records -/

theorem records_valueGet (out object keyAddr keyLength : UInt32) (hD : ∀ v, D (.store v)) :
    (valueGet out object keyAddr keyLength).Records D := by
  refine .of_silent_bind (silent_loadValue object) fun target => ?_
  refine .of_silent_bind (silent_readText keyAddr keyLength) fun key => ?_
  refine .of_silent_bind .get fun s => .of_silent_bind (.lift _) fun v => ?_
  exact records_storeRef out v (hD v)

theorem records_valueObjectCreate (out : UInt32) (hD : ∀ v, D (.store v)) :
    (valueObjectCreate out).Records D :=
  .of_silent_bind (.host _) fun _ => records_storeRef out _ (hD _)

theorem records_valueStringCreate (out addr length : UInt32) (hD : ∀ v, D (.store v)) :
    (valueStringCreate out addr length).Records D :=
  .of_silent_bind (silent_readText addr length) fun _ => records_storeRef out _ (hD _)

theorem records_valueNew (e : Engine) (out constructor argsAddr argCount : UInt32)
    (hD : ∀ v, D (.store v)) : (valueNew e out constructor argsAddr argCount).Records D := by
  refine .of_silent_bind (silent_loadValue constructor) fun f => ?_
  refine .of_silent_bind (silent_loadArgs argsAddr argCount) fun args => ?_
  exact .of_silent_bind (.host _) fun v => records_storeRef out v (hD v)

theorem records_funcApply (e : Engine) (out function receiverAddr argsAddr argCount : UInt32)
    (hD : ∀ v, D (.store v)) :
    (funcApply e out function receiverAddr argsAddr argCount).Records D := by
  refine .of_silent_bind (silent_loadValue function) fun f => ?_
  refine .of_silent_bind (silent_loadRef receiverAddr) fun receiver => ?_
  refine .of_silent_bind (silent_loadArgs argsAddr argCount) fun args => ?_
  exact .of_silent_bind (.host _) fun v => records_storeRef out v (hD v)

end Import

open ValueBridge.Action Bridge Import in
/-- A call records: it stores a value if it has one to write, and releases a claim if that is what
    it is for. -/
theorem Call.records_perform (e : Engine) (c : Call)
    (hstore : ∀ out v, c.out? = some out → D (.store v))
    (hrelease : ∀ id, c = .valueDeinit id → D (.release id)) : (c.perform e).Records D := by
  cases c with
  | valueGet out object keyAddr keyLength =>
    exact (records_valueGet out object keyAddr keyLength fun v => hstore out v rfl).bind_silent
      fun _ => .pure _
  | valueSet object keyAddr keyLength valueAddr =>
    exact (silent_valueSet object keyAddr keyLength valueAddr).records.bind_silent fun _ => .pure _
  | valueDeinit id => exact (records_releaseValue id (hrelease id rfl)).bind_silent fun _ => .pure _
  | valueObjectCreate out =>
    exact (records_valueObjectCreate out fun v => hstore out v rfl).bind_silent fun _ => .pure _
  | valueStringCreate out addr length =>
    exact (records_valueStringCreate out addr length fun v => hstore out v rfl).bind_silent
      fun _ => .pure _
  | valueStringLen id => exact (silent_valueStringLen id).records.bind_silent fun _ => .pure _
  | valueStringCopy id addr capacity =>
    exact (silent_valueStringCopy id addr capacity).records.bind_silent fun _ => .pure _
  | valueNew out constructor argsAddr argCount =>
    exact (records_valueNew e out constructor argsAddr argCount
      fun v => hstore out v rfl).bind_silent fun _ => .pure _
  | funcApply out function receiverAddr argsAddr argCount =>
    exact (records_funcApply e out function receiverAddr argsAddr argCount
      fun v => hstore out v rfl).bind_silent fun _ => .pure _

end ValueBridge
