import ValueBridge.Engine.Standard
import ValueBridge.Proofs.Heap.Evolution

/-!
# Lawful engines

An engine is *lawful* if its functions work on the heap as a host does: they change it by the
changes that there are, and give back what was made (`Engine.Lawful`). The standard engine is
lawful (`Engine.lawful_standard`).
-/

namespace ValueBridge

/-- The outcome is one to which the heap comes by changes, with a result that was made. -/
structure Heap.ComesTo (h : Heap) (o : Outcome Value) : Prop where
  evolves : h.Evolves Heap.Anywhere o.2
  has : ∀ v, o.1 = .ok v → o.2.Has v

/-- The functions, given what was made, change the heap by the changes that there are, and
    give back what was made. -/
def Engine.Lawful (e : Engine) : Prop :=
  ∀ native receiver args (h : Heap), h.Closed → h.Has receiver → (∀ v ∈ args, h.Has v) →
    h.ComesTo (e.run native receiver args h)

namespace Heap

variable {h h' : Heap}

theorem comesTo_error (h : Heap) (fault : Fault) : h.ComesTo (.error fault, h) :=
  ⟨.refl _ h, nofun⟩

theorem comesTo_ok {v : Value} (he : h.Evolves Anywhere h') (hv : h'.Has v) :
    h.ComesTo (.ok v, h') := by
  refine ⟨he, ?_⟩
  rintro _ ⟨⟩
  exact hv

end Heap

namespace Standard

open Heap

variable {α : Type} {h : Heap} {args : List Value}

/-! ## Results -/

theorem comesTo_unchanged {result : Except Fault Value} (hv : ∀ v, result = .ok v → h.Has v) :
    h.ComesTo (unchanged h result) :=
  ⟨.refl _ h, hv⟩

/-- What is computed of something else is made if all that is so computed is. -/
theorem comesTo_map (result : Except Fault α) {f : α → Value} (hf : ∀ a, h.Has (f a)) :
    h.ComesTo (unchanged h (result.map f)) := by
  cases result with
  | error fault => exact comesTo_error h fault
  | ok a => exact comesTo_ok (.refl _ h) (hf a)

/-- A result that is a fault in any case. -/
theorem comesTo_bind_error (f : α → Fault) (result : Except Fault α) :
    h.ComesTo (unchanged h (result.bind fun a => .error (f a))) := by
  cases result with
  | error fault => exact comesTo_error h fault
  | ok a => exact comesTo_error h (f a)

theorem has_first (hargs : ∀ v ∈ args, h.Has v) : h.Has (first args) := by
  cases args with
  | nil => trivial
  | cons v args => exact hargs v List.mem_cons_self

theorem has_of_mem_tail (hargs : ∀ v ∈ args, h.Has v) : ∀ v ∈ args.tail, h.Has v :=
  fun v hv => hargs v (List.mem_of_mem_tail hv)

/-! ## Fresh things -/

theorem comesTo_newObject (h : Heap) : h.ComesTo (.ok (.object h.newObject.1), h.newObject.2) :=
  comesTo_ok (.of_change (.object none)) (has_allocObject h .plain)

theorem comesTo_objectOf (hargs : ∀ v ∈ args, h.Has v) :
    h.ComesTo (.ok (objectOf args h).1, (objectOf args h).2) := by
  unfold objectOf
  split
  · next hid => exact comesTo_ok (.refl _ h) (hargs _ (List.mem_of_head? hid))
  · next hid => exact comesTo_ok (.refl _ h) (hargs _ (List.mem_of_head? hid))
  · exact comesTo_newObject h

/-- An object takes the values that it collects, which were made. -/
theorem evolves_collectInto (id : ObjectId) (index : Nat) (hargs : ∀ v ∈ args, h.Has v) :
    h.Evolves Anywhere (collectInto id index args h) := by
  induction args generalizing h index with
  | nil => exact .refl _ h
  | cons v args ih =>
    have hset : h.Evolves Anywhere (h.setOf id (Text.indexKey index) v).2 :=
      evolves_setOf h id _ (hargs v List.mem_cons_self) trivial
    exact hset.trans (ih _ fun w hw => hset.has (hargs w (List.mem_cons_of_mem _ hw)))

theorem comesTo_collect {receiver : Value} (hargs : ∀ v ∈ args, h.Has v) :
    h.ComesTo (run .collect receiver args h) := by
  have hobject := comesTo_newObject h
  have hcollect : h.newObject.2.Evolves Anywhere
      (collectInto h.newObject.1 0 args h.newObject.2) :=
    evolves_collectInto _ 0 fun v hv => hobject.evolves.has (hargs v hv)
  rw [run]
  exact comesTo_ok (hobject.evolves.trans hcollect) (hcollect.has (hobject.has _ rfl))

theorem comesTo_bufferOf (h : Heap) (receiver : Value) (args : List Value) :
    h.ComesTo (run .bufferOf receiver args h) := by
  rw [run]
  split
  · exact comesTo_error h _
  · next bytes _ => exact comesTo_ok (.of_change (.object (some bytes))) (has_allocObject h _)

theorem comesTo_symbolOf (h : Heap) (receiver : Value) (args : List Value) :
    h.ComesTo (run .symbolOf receiver args h) := by
  rw [run]
  split
  · exact comesTo_error h _
  · next description? _ =>
    exact comesTo_ok (.of_change (.symbol description?)) (has_newSymbol h description?)

/-- A property that the host sets is one change of the heap. -/
theorem comesTo_put {receiver : Value} (hargs : ∀ v ∈ args, h.Has v) :
    h.ComesTo (run .put receiver args h) := by
  rw [run]
  split
  · exact comesTo_error h _
  · next written h' hset =>
    cases htext : h.hostText (first args) with
    | error fault =>
      rw [htext] at hset
      cases hset
    | ok key =>
      rw [htext] at hset
      have hvalue := has_first (has_of_mem_tail hargs)
      exact comesTo_ok (.of_change (.set trivial hvalue hset)) trivial

/-! ## The standard engine -/

theorem comesTo_run (native : Native) (receiver : Value) (args : List Value) (hh : h.Closed)
    (hreceiver : h.Has receiver) (hargs : ∀ v ∈ args, h.Has v) :
    h.ComesTo (run native receiver args h) := by
  -- A behaviour that runs another one hands on fewer arguments.
  induction hlength : args.length using Nat.strongRecOn
    generalizing native receiver args with | _ n ih
  cases native with
  | objectOf =>
    rw [run]
    exact comesTo_objectOf hargs
  | bufferOf => exact comesTo_bufferOf h receiver args
  | symbolOf => exact comesTo_symbolOf h receiver args
  | textOf =>
    rw [run]
    exact comesTo_map _ fun _ => trivial
  | requireNew name =>
    rw [run]
    exact comesTo_error h _
  | double =>
    rw [run]
    exact comesTo_map _ fun _ => trivial
  | receiverTag =>
    rw [run]
    exact comesTo_unchanged fun v hv => hh.has_get hv
  | receiver =>
    rw [run]
    exact comesTo_ok (.refl _ h) hreceiver
  | first =>
    rw [run]
    exact comesTo_ok (.refl _ h) (has_first hargs)
  | count =>
    rw [run]
    exact comesTo_ok (.refl _ h) trivial
  | sum =>
    rw [run]
    exact comesTo_map _ fun _ => trivial
  | concat =>
    rw [run]
    exact comesTo_map _ fun _ => trivial
  | put => exact comesTo_put hargs
  | collect => exact comesTo_collect hargs
  | failType =>
    rw [run]
    exact comesTo_bind_error _ _
  | failRange =>
    rw [run]
    exact comesTo_bind_error _ _
  | apply =>
    cases args with
    | nil =>
      rw [run]
      exact comesTo_error h _
    | cons f rest =>
      have hrest : ∀ v ∈ rest, h.Has v := fun v hv => hargs v (List.mem_cons_of_mem _ hv)
      rw [List.length_cons] at hlength
      rw [run]
      split
      · exact comesTo_error h _
      · refine ih rest.tail.length ?_ _ (first rest) rest.tail (has_first hrest)
          (has_of_mem_tail hrest) rfl
        rw [List.length_tail]
        omega
  | make =>
    cases args with
    | nil =>
      rw [run]
      exact comesTo_error h _
    | cons f rest =>
      have hrest : ∀ v ∈ rest, h.Has v := fun v hv => hargs v (List.mem_cons_of_mem _ hv)
      rw [List.length_cons] at hlength
      rw [run]
      split
      · exact comesTo_error h _
      · exact ih rest.length (by omega) _ .undefined rest trivial hrest rfl

end Standard

theorem Engine.lawful_standard : Engine.standard.Lawful :=
  fun native receiver args _ hh hreceiver hargs =>
    Standard.comesTo_run native receiver args hh hreceiver hargs

end ValueBridge
