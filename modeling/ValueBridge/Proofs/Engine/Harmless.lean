import ValueBridge.Engine.Standard
import ValueBridge.Proofs.Heap.Building

/-!
# Functions that do no harm

An engine is *harmless* if none of its functions does anything to what is there when all that it
is given is undefined. The standard engine is (`Engine.harmless_standard`): its functions make
things of their own, and write to nothing but what they made and their receiver.
-/

namespace ValueBridge

/-- Functions that are given nothing but undefined do nothing to what is there. -/
def Engine.Harmless (e : Engine) : Prop :=
  ∀ native count (h : Heap), h.Keeps (e.run native .undefined (List.replicate count .undefined) h).2

namespace Standard

open Heap

/-- A fresh object that takes what it collects. -/
theorem keeps_collectInto {h₀ h : Heap} {id : ObjectId} {index : Nat} {args : List Value}
    (hk : h₀.Keeps h) (hbytes : (h.object id).bytes? = none) (hlt : id.index < h.objects.size)
    (hid : h₀.objects.size ≤ id.index) : h₀.Keeps (collectInto id index args h) := by
  induction args generalizing h index with
  | nil => exact hk
  | cons v args ih =>
    refine ih (hk.setOf hbytes hlt hid _ v) ?_ ?_
    · rw [object_setOf hbytes hlt, if_pos rfl]
    · rw [size_setOf hbytes]
      exact hlt

theorem keeps_run_undefined (native : Native) (count : Nat) (h : Heap) :
    h.Keeps (run native .undefined (List.replicate count .undefined) h).2 := by
  cases native with
  | objectOf =>
    rw [run]
    cases count <;> exact .allocObject h .plain
  | bufferOf =>
    rw [run]
    cases count <;> exact .allocObject h ⟨.empty, some #[]⟩
  | symbolOf =>
    rw [run]
    cases count <;> exact ⟨Nat.le_refl _, Nat.le_refl _, fun _ _ => rfl, fun _ _ => rfl⟩
  | put =>
    -- The receiver has no properties.
    rw [run]
    cases count <;> exact .refl h
  | collect =>
    rw [run]
    refine keeps_collectInto (.allocObject h .plain) ?_ (has_allocObject h .plain) (Nat.le_refl _)
    rw [newObject, object_allocObject]
    exact congrArg ObjectCell.bytes? (if_pos rfl)
  | apply =>
    -- What is to be called is undefined, or missing.
    rw [run.eq_def]
    cases count <;> exact .refl h
  | make =>
    rw [run.eq_def]
    cases count <;> exact .refl h
  | _ =>
    rw [run]
    exact .refl h

end Standard

namespace Engine

theorem harmless_standard : standard.Harmless :=
  Standard.keeps_run_undefined

variable {e : Engine}

theorem Harmless.keeps_construct (he : e.Harmless) (f : Value) (count : Nat) (h : Heap) :
    h.Keeps (e.construct f (List.replicate count .undefined) h).2 := by
  rw [construct]
  split
  · exact he _ count h
  · exact .refl h

theorem Harmless.keeps_call (he : e.Harmless) (f : Value) (count : Nat) (h : Heap) :
    h.Keeps (e.call f .undefined (List.replicate count .undefined) h).2 := by
  rw [call]
  split
  · exact he _ count h
  · exact .refl h

end Engine

end ValueBridge
