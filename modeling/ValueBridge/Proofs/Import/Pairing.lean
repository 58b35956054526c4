import ValueBridge.Import
import ValueBridge.Proofs.Bridge.Pairing
import ValueBridge.Proofs.Engine.Pairing

/-!
# Calls in step

A call of an import, made in two states that are in step, gives the same answer or the same
fault in both, and leaves them in step (`Call.inStep_perform`), by any engine that respects
pairings.
-/

namespace ValueBridge

open Pairing Bridge

variable {p : Pairing} {s s' : State} {e : Engine}

namespace Import

theorem inStep_slotText (hs : p.PairsState s s') (id : UInt32) :
    p.InStep (fun _ => Eq) (slotText id) (slotText id) s s' := by
  refine (inStep_loadValue hs id).bind fun p' v v' t t' _ ht hv => ?_
  refine .bind_get ?_
  rw [ht.heap.hostText hv]
  exact .lift_self ht _

theorem inStep_loadArgsFrom (hs : p.PairsState s s') (argsAddr : UInt32)
    {taken taken' : List Value} (htaken : List.Forall₂ p.Matches taken taken') (index : UInt32)
    (left : Nat) :
    p.InStep (fun p => List.Forall₂ p.Matches) (loadArgsFrom argsAddr taken index left)
      (loadArgsFrom argsAddr taken' index left) s s' := by
  induction left generalizing p s s' taken taken' index with
  | zero => exact .pure hs (List.forall₂_reverse_iff.2 htaken)
  | succ left ih =>
    refine .bind_lift hs (.refl (R := Eq) (fun _ => rfl) _) ?_
    rintro addr _ rfl
    refine (inStep_loadRef hs addr).bind fun p' v v' t t' ha ht hv => ?_
    exact ih ht (.cons hv (htaken.imp fun _ _ => ha.matchesValue)) (index + 1)

theorem inStep_loadArgs (hs : p.PairsState s s') (argsAddr argCount : UInt32) :
    p.InStep (fun p => List.Forall₂ p.Matches) (loadArgs argsAddr argCount)
      (loadArgs argsAddr argCount) s s' :=
  inStep_loadArgsFrom hs argsAddr .nil 0 argCount.toNat

/-! ## Properties -/

theorem inStep_valueGet (hs : p.PairsState s s') (out object keyAddr keyLength : UInt32) :
    p.InStep (fun _ => Eq) (valueGet out object keyAddr keyLength)
      (valueGet out object keyAddr keyLength) s s' := by
  refine (inStep_loadValue hs object).bind fun p target target' s s' _ hs htarget => ?_
  refine (inStep_readText hs keyAddr keyLength).bind ?_
  rintro p key _ s s' ha hs rfl
  have hget := hs.heap.alike_get (ha.matchesValue htarget) key
  refine .bind_get (.bind_lift hs (hget.mapError BridgeFault.host) fun v v' hv => ?_)
  exact inStep_storeRef hs hv out

theorem inStep_valueSet (hs : p.PairsState s s') (object keyAddr keyLength valueAddr : UInt32) :
    p.InStep (fun _ => Eq) (valueSet object keyAddr keyLength valueAddr)
      (valueSet object keyAddr keyLength valueAddr) s s' := by
  refine (inStep_loadValue hs object).bind fun p target target' s s' _ hs htarget => ?_
  refine (inStep_readText hs keyAddr keyLength).bind ?_
  rintro p key _ s s' ha hs rfl
  refine (inStep_loadRef hs valueAddr).bind fun p v v' s s' ha' hs hv => ?_
  have hset := hs.heap.alike_set ((ha.trans ha').matchesValue htarget) hv key
  refine .bind_get (.bind_lift hs (hset.mapError BridgeFault.host) ?_)
  rintro ⟨written, heap⟩ ⟨_, heap'⟩ ⟨rfl, ha, hheap⟩
  refine (InStep.of_modify ha ⟨hheap, hs.table, hs.memory, hs.log⟩).bind ?_
  intro p _ _ s s' _ hs _
  split
  · exact .report hs _
  · exact .pure hs rfl

/-! ## Objects and texts -/

theorem inStep_valueObjectCreate (hs : p.PairsState s s') (out : UInt32) :
    p.InStep (fun _ => Eq) (valueObjectCreate out) (valueObjectCreate out) s s' := by
  refine (InStep.host hs (Standard.together_newObject hs.heap)).bind ?_
  intro p id id' s s' _ hs hid
  exact inStep_storeRef hs (.object hid) out

theorem inStep_valueStringCreate (hs : p.PairsState s s') (out addr length : UInt32) :
    p.InStep (fun _ => Eq) (valueStringCreate out addr length) (valueStringCreate out addr length)
      s s' := by
  refine (inStep_readText hs addr length).bind ?_
  rintro p text _ s s' _ hs rfl
  exact inStep_storeRef hs (.string text) out

theorem inStep_valueStringLen (hs : p.PairsState s s') (id : UInt32) :
    p.InStep (fun _ => Eq) (valueStringLen id) (valueStringLen id) s s' := by
  refine (inStep_slotText hs id).bind ?_
  rintro p text _ s s' _ hs rfl
  dsimp only
  split
  · exact .pure hs rfl
  · exact .lift_self hs (.error _)

theorem inStep_valueStringCopy (hs : p.PairsState s s') (id addr capacity : UInt32) :
    p.InStep (fun _ => Eq) (valueStringCopy id addr capacity) (valueStringCopy id addr capacity)
      s s' := by
  refine .bind_get ?_
  rw [hs.memory]
  split
  · refine (inStep_slotText hs id).bind ?_
    rintro p text _ s s' _ hs rfl
    dsimp only
    split
    · exact .report hs _
    · exact inStep_writeBytes hs addr _
  · exact .pure hs rfl

/-! ## Functions -/

theorem inStep_valueNew (he : e.Respects) (hs : p.PairsState s s')
    (out constructor argsAddr argCount : UInt32) :
    p.InStep (fun _ => Eq) (valueNew e out constructor argsAddr argCount)
      (valueNew e out constructor argsAddr argCount) s s' := by
  refine (inStep_loadValue hs constructor).bind fun p f f' s s' _ hs hf => ?_
  refine (inStep_loadArgs hs argsAddr argCount).bind fun p args args' s s' ha hs hargs => ?_
  have hmade := he.construct hs.heap (ha.matchesValue hf) hargs
  exact (InStep.host hs hmade).bind fun p v v' s s' _ hs hv => inStep_storeRef hs hv out

theorem inStep_funcApply (he : e.Respects) (hs : p.PairsState s s')
    (out function receiverAddr argsAddr argCount : UInt32) :
    p.InStep (fun _ => Eq) (funcApply e out function receiverAddr argsAddr argCount)
      (funcApply e out function receiverAddr argsAddr argCount) s s' := by
  refine (inStep_loadValue hs function).bind fun p f f' s s' _ hs hf => ?_
  refine (inStep_loadRef hs receiverAddr).bind fun p receiver receiver' s s' ha hs hr => ?_
  refine (inStep_loadArgs hs argsAddr argCount).bind fun p args args' s s' ha' hs hargs => ?_
  have hmade := he.call hs.heap ((ha.trans ha').matchesValue hf) (ha'.matchesValue hr) hargs
  exact (InStep.host hs hmade).bind fun p v v' s s' _ hs hv => inStep_storeRef hs hv out

end Import

open Import

/-- A call comes to the same in states that are in step. -/
theorem Call.inStep_perform (he : e.Respects) (hs : p.PairsState s s') (c : Call) :
    p.InStep (fun _ => Eq) (c.perform e) (c.perform e) s s' := by
  cases c with
  | valueGet out object keyAddr keyLength => exact (inStep_valueGet hs ..).bind_pure _
  | valueSet object keyAddr keyLength valueAddr => exact (inStep_valueSet hs ..).bind_pure _
  | valueDeinit id => exact (inStep_releaseValue hs id).bind_pure _
  | valueObjectCreate out => exact (inStep_valueObjectCreate hs out).bind_pure _
  | valueStringCreate out addr length => exact (inStep_valueStringCreate hs ..).bind_pure _
  | valueStringLen id => exact (inStep_valueStringLen hs id).bind_pure _
  | valueStringCopy id addr capacity => exact (inStep_valueStringCopy hs ..).bind_pure _
  | valueNew out constructor argsAddr argCount => exact (inStep_valueNew he hs ..).bind_pure _
  | funcApply out function receiverAddr argsAddr argCount =>
    exact (inStep_funcApply he hs ..).bind_pure _

end ValueBridge
