import ValueBridge.Import
import ValueBridge.Proofs.Bridge.Logging

/-!
# Logs do not matter to imports

No import depends on what has been logged before it is called (`Call.ignoresLog_perform`).
-/

namespace ValueBridge

namespace Import

open ValueBridge.Action Bridge

theorem ignoresLog_slotText (id : UInt32) : (slotText id).IgnoresLog :=
  .bind (ignoresLog_loadValue id) fun _ => .get_bind (fun _ _ => rfl) fun _ => .lift _

theorem ignoresLog_loadArgsFrom (argsAddr : UInt32) (taken : List Value) (index : UInt32)
    (left : Nat) : (loadArgsFrom argsAddr taken index left).IgnoresLog := by
  induction left generalizing taken index with
  | zero => exact .pure _
  | succ left ih =>
    exact .bind (.lift _) fun addr => .bind (ignoresLog_loadRef addr) fun v => ih _ _

theorem ignoresLog_loadArgs (argsAddr argCount : UInt32) :
    (loadArgs argsAddr argCount).IgnoresLog :=
  ignoresLog_loadArgsFrom argsAddr [] 0 argCount.toNat

theorem ignoresLog_valueGet (out object keyAddr keyLength : UInt32) :
    (valueGet out object keyAddr keyLength).IgnoresLog := by
  refine .bind (ignoresLog_loadValue object) fun target => ?_
  refine .bind (ignoresLog_readText keyAddr keyLength) fun key => ?_
  refine .get_bind (fun _ _ => rfl) fun s => .bind (.lift _) fun v => ?_
  exact ignoresLog_storeRef out v

theorem ignoresLog_valueSet (object keyAddr keyLength valueAddr : UInt32) :
    (valueSet object keyAddr keyLength valueAddr).IgnoresLog := by
  refine .bind (ignoresLog_loadValue object) fun target => ?_
  refine .bind (ignoresLog_readText keyAddr keyLength) fun key => ?_
  refine .bind (ignoresLog_loadRef valueAddr) fun v => ?_
  refine .get_bind (fun _ _ => rfl) fun s => .bind (.lift _) fun (written, heap) => ?_
  refine .bind (.modify fun _ _ => rfl) fun _ => ?_
  split
  · exact .report _
  · exact .pure _

theorem ignoresLog_valueObjectCreate (out : UInt32) : (valueObjectCreate out).IgnoresLog :=
  .bind (.host _) fun id => ignoresLog_storeRef out (.object id)

theorem ignoresLog_valueStringCreate (out addr length : UInt32) :
    (valueStringCreate out addr length).IgnoresLog :=
  .bind (ignoresLog_readText addr length) fun text => ignoresLog_storeRef out (.string text)

theorem ignoresLog_valueStringLen (id : UInt32) : (valueStringLen id).IgnoresLog := by
  refine .bind (ignoresLog_slotText id) fun text => ?_
  dsimp only
  split
  · exact .pure _
  · exact .throw _

theorem ignoresLog_valueStringCopy (id addr capacity : UInt32) :
    (valueStringCopy id addr capacity).IgnoresLog := by
  refine .get_bind (fun _ _ => rfl) fun s => ?_
  split
  · refine .bind (ignoresLog_slotText id) fun text => ?_
    dsimp only
    split
    · exact .report _
    · exact ignoresLog_writeBytes addr _
  · exact .pure _

theorem ignoresLog_valueNew (e : Engine) (out constructor argsAddr argCount : UInt32) :
    (valueNew e out constructor argsAddr argCount).IgnoresLog := by
  refine .bind (ignoresLog_loadValue constructor) fun f => ?_
  refine .bind (ignoresLog_loadArgs argsAddr argCount) fun args => .bind (.host _) fun v => ?_
  exact ignoresLog_storeRef out v

theorem ignoresLog_funcApply (e : Engine) (out function receiverAddr argsAddr argCount : UInt32) :
    (funcApply e out function receiverAddr argsAddr argCount).IgnoresLog := by
  refine .bind (ignoresLog_loadValue function) fun f => ?_
  refine .bind (ignoresLog_loadRef receiverAddr) fun receiver => ?_
  refine .bind (ignoresLog_loadArgs argsAddr argCount) fun args => .bind (.host _) fun v => ?_
  exact ignoresLog_storeRef out v

end Import

open Bridge Import in
theorem Call.ignoresLog_perform (e : Engine) (c : Call) : (c.perform e).IgnoresLog := by
  cases c with
  | valueGet out object keyAddr keyLength =>
    exact .bind (ignoresLog_valueGet out object keyAddr keyLength) fun _ => .pure _
  | valueSet object keyAddr keyLength valueAddr =>
    exact .bind (ignoresLog_valueSet object keyAddr keyLength valueAddr) fun _ => .pure _
  | valueDeinit id => exact .bind (ignoresLog_releaseValue id) fun _ => .pure _
  | valueObjectCreate out => exact .bind (ignoresLog_valueObjectCreate out) fun _ => .pure _
  | valueStringCreate out addr length =>
    exact .bind (ignoresLog_valueStringCreate out addr length) fun _ => .pure _
  | valueStringLen id => exact .bind (ignoresLog_valueStringLen id) fun _ => .pure _
  | valueStringCopy id addr capacity =>
    exact .bind (ignoresLog_valueStringCopy id addr capacity) fun _ => .pure _
  | valueNew out constructor argsAddr argCount =>
    exact .bind (ignoresLog_valueNew e out constructor argsAddr argCount) fun _ => .pure _
  | funcApply out function receiverAddr argsAddr argCount =>
    exact .bind (ignoresLog_funcApply e out function receiverAddr argsAddr argCount)
      fun _ => .pure _

end ValueBridge
