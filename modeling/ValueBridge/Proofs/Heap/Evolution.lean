import Mathlib.Logic.Relation
import ValueBridge.Proofs.Heap.Access
import ValueBridge.Realm

/-!
# How heaps evolve

The host changes its heap in a few ways only (`Heap.Change`): it makes an object, a function
or a symbol, or writes a value that it has to a property. A heap *evolves* by such changes,
one after the other, with writes to the properties of a given set alone (`Heap.Evolves`).

What was made stays (`Evolves.has`), and a property to which nothing is written stays as it is
(`Evolves.get_eq`). A heap is *closed* if its properties hold nothing but what was made, and
remains so (`Evolves.closed`).
-/

namespace ValueBridge

namespace Heap

open Relation

variable {W W' : Value → String → Prop} {h h' h'' : Heap} {target v : Value} {key : String}

/-- All properties hold values that were made. -/
structure Closed (h : Heap) : Prop where
  object : ∀ {id key v}, (h.object id).properties.get? key = some v → h.Has v
  function : ∀ {id key v}, (h.function id).properties.get? key = some v → h.Has v

/-- The properties of all things. -/
def Anywhere (_ : Value) (_ : String) : Prop := True

/-- The properties other than the given one. -/
def Elsewhere (target : Value) (key : String) (t : Value) (k : String) : Prop :=
  ¬(t = target ∧ k = key)

/-- A change of the heap, which writes to a property in `W` if it writes to any. -/
inductive Change (W : Value → String → Prop) (h : Heap) : Heap → Prop
  | object (bytes? : Option (Array UInt8)) : Change W h (h.allocObject ⟨.empty, bytes?⟩).2
  | function (name : String) (call? construct? : Option Native) :
      Change W h (h.newFunction name call? construct?).2
  | symbol (description? : Option String) : Change W h (h.newSymbol description?).2
  | set {target v : Value} {key : String} {written : Bool} {h' : Heap} : W target key →
      h.Has v → h.set target key v = .ok (written, h') → Change W h h'

/-- The heap comes to the other by changes. -/
def Evolves (W : Value → String → Prop) : Heap → Heap → Prop :=
  ReflTransGen (Change W)

/-! ## New things -/

theorem object_allocObject (h : Heap) (cell : ObjectCell) (id : ObjectId) :
    (h.allocObject cell).2.object id =
      if id.index = h.objects.size then cell else h.object id := by
  simp only [object, allocObject, Array.getD_eq_getD_getElem?, Array.getElem?_push]
  split <;> rfl

theorem function_newFunction (h : Heap) (name : String) (call? construct? : Option Native)
    (id : FunctionId) :
    (h.newFunction name call? construct?).2.function id =
      if id.index = h.functions.size then ⟨name, call?, construct?, .empty⟩
      else h.function id := by
  simp only [function, newFunction, Array.getD_eq_getD_getElem?, Array.getElem?_push]
  split <;> rfl

theorem has_allocObject (h : Heap) (cell : ObjectCell) :
    (h.allocObject cell).2.Has (.object (h.allocObject cell).1) := by
  simp [Has, allocObject]

theorem has_newFunction (h : Heap) (name : String) (call? construct? : Option Native) :
    (h.newFunction name call? construct?).2.Has
      (.function (h.newFunction name call? construct?).1) := by
  simp [Has, newFunction]

theorem has_newSymbol (h : Heap) (description? : Option String) :
    (h.newSymbol description?).2.Has (.symbol (h.newSymbol description?).1) := by
  simp [Has, newSymbol]

/-! ## One change -/

namespace Sets

variable (hs : h.Sets target key v h')

include hs

theorem has {w : Value} : h'.Has w ↔ h.Has w := by
  cases hs <;> cases w <;> simp [Has, putObject, putFunction]

theorem isSome_bytes? (id : ObjectId) :
    (h'.object id).bytes?.isSome = (h.object id).bytes?.isSome := by
  cases hs with
  | object _ hcell =>
    rw [object_putObject]
    split
    · next hid => rw [hcell.isSome_bytes?, hid.1]
    · rfl
  | _ => rfl

theorem closed (hh : h.Closed) (hv : h.Has v) : h'.Closed := by
  have hhas {w : Value} := hs.has (w := w)
  cases hs with
  | refused => exact hh
  | @object id cell _ hcell =>
    refine ⟨fun {id' key' w} hw => hhas.2 ?_, fun hw => hhas.2 (hh.function hw)⟩
    rw [object_putObject] at hw
    split at hw
    · rcases hcell.property_cases hw with rfl | hw
      · exact hv
      · exact hh.object hw
    · exact hh.object hw
  | @function id cell _ hcell =>
    refine ⟨fun hw => hhas.2 (hh.object hw), fun {id' key' w} hw => hhas.2 ?_⟩
    rw [function_putFunction] at hw
    split at hw
    · rcases FunctionCell.property_cases hcell hw with rfl | hw
      · exact hv
      · exact hh.function hw
    · exact hh.function hw

end Sets

namespace Change

theorem mono (hW : ∀ t k, W t k → W' t k) (hc : h.Change W h') : h.Change W' h' := by
  cases hc with
  | object bytes? => exact .object bytes?
  | function name call? construct? => exact .function name call? construct?
  | symbol description? => exact .symbol description?
  | set htarget hv hset => exact .set (hW _ _ htarget) hv hset

/-- What was made stays. -/
theorem has (hc : h.Change W h') (hv : h.Has v) : h'.Has v := by
  cases hc with
  | set _ _ hset => exact (sets_of_set hset).has.2 hv
  | _ =>
    cases v <;> simp only [Has, allocObject, newFunction, newSymbol, Array.size_push] at hv ⊢ <;>
      omega

/-- A property to which nothing is written stays as it is. -/
theorem get_eq (hc : h.Change W h') (htarget : h.Has target) (hW : ¬W target key) :
    h'.get target key = h.get target key := by
  cases hc with
  | object bytes? =>
    cases target with
    | object id =>
      have hne : id.index ≠ h.objects.size := Nat.ne_of_lt htarget
      simp only [get, getOf, object_allocObject, if_neg hne]
    | _ => rfl
  | function name call? construct? =>
    cases target with
    | function id =>
      have hne : id.index ≠ h.functions.size := Nat.ne_of_lt htarget
      simp only [get, function_newFunction, if_neg hne]
    | _ => rfl
  | symbol => cases target <;> rfl
  | set hwritten _ hset =>
    refine get_set_of_ne hset ?_
    rintro ⟨rfl, rfl⟩
    exact hW hwritten

/-- An object that is no buffer does not become one. -/
theorem isSome_bytes? (hc : h.Change W h') {id : ObjectId} (hid : h.Has (.object id)) :
    (h'.object id).bytes?.isSome = (h.object id).bytes?.isSome := by
  cases hc with
  | object bytes? => rw [object_allocObject, if_neg (Nat.ne_of_lt hid)]
  | set _ _ hset => exact (sets_of_set hset).isSome_bytes? id
  | _ => rfl

theorem closed (hc : h.Change W h') (hh : h.Closed) : h'.Closed := by
  have hhas {w : Value} (hw : h.Has w) : h'.Has w := hc.has hw
  cases hc with
  | object bytes? =>
    refine ⟨fun {id key w} hw => hhas ?_, fun hw => hhas (hh.function hw)⟩
    rw [object_allocObject] at hw
    split at hw
    · cases hw
    · exact hh.object hw
  | function name call? construct? =>
    refine ⟨fun hw => hhas (hh.object hw), fun {id key w} hw => hhas ?_⟩
    rw [function_newFunction] at hw
    split at hw
    · cases hw
    · exact hh.function hw
  | symbol => exact ⟨fun hw => hhas (hh.object hw), fun hw => hhas (hh.function hw)⟩
  | set _ hv hset => exact (sets_of_set hset).closed hh hv

end Change

/-! ## Many changes -/

namespace Evolves

theorem refl (W : Value → String → Prop) (h : Heap) : h.Evolves W h :=
  ReflTransGen.refl

theorem of_change (hc : h.Change W h') : h.Evolves W h' :=
  .single hc

theorem trans (he : h.Evolves W h') (he' : h'.Evolves W h'') : h.Evolves W h'' :=
  ReflTransGen.trans he he'

theorem mono (hW : ∀ t k, W t k → W' t k) (he : h.Evolves W h') : h.Evolves W' h' := by
  induction he with
  | refl => exact .refl W' h
  | tail _ hc ih => exact ih.trans (.of_change (hc.mono hW))

theorem has (he : h.Evolves W h') (hv : h.Has v) : h'.Has v := by
  induction he with
  | refl => exact hv
  | tail _ hc ih => exact hc.has ih

theorem get_eq (he : h.Evolves W h') (htarget : h.Has target) (hW : ¬W target key) :
    h'.get target key = h.get target key := by
  induction he with
  | refl => rfl
  | tail he hc ih => exact (hc.get_eq (Evolves.has he htarget) hW).trans ih

theorem isSome_bytes? (he : h.Evolves W h') {id : ObjectId} (hid : h.Has (.object id)) :
    (h'.object id).bytes?.isSome = (h.object id).bytes?.isSome := by
  induction he with
  | refl => rfl
  | tail he hc ih => exact (hc.isSome_bytes? (Evolves.has he hid)).trans ih

theorem closed (he : h.Evolves W h') (hh : h.Closed) : h'.Closed := by
  induction he with
  | refl => exact hh
  | tail _ hc ih => exact hc.closed ih

end Evolves

theorem closed_empty : empty.Closed :=
  ⟨nofun, nofun⟩

/-- The properties of a closed heap are had. -/
theorem Closed.has_get (hh : h.Closed) (hget : h.get target key = .ok v) : h.Has v := by
  have hown {m : PropertyMap Value} (hm : ∀ {w}, m.get? key = some w → h.Has w) :
      h.Has ((m.get? key).getD .undefined) := by
    cases hw : m.get? key with
    | none => trivial
    | some w => exact hm hw
  cases target with
  | object id =>
    rw [get, Except.ok.injEq] at hget
    subst hget
    simp only [getOf, ObjectCell.get]
    split
    · exact hown hh.object
    · split
      · trivial
      · split
        · split <;> trivial
        · exact hown hh.object
  | function id =>
    rw [get, Except.ok.injEq] at hget
    subst hget
    rw [FunctionCell.get]
    split
    · trivial
    · exact hown hh.function
  | _ => cases hget

end Heap

/-! ## Realms -/

/-- The realm was made: its global object is there, and is no buffer. -/
structure Heap.HasRealm (h : Heap) (r : Realm) : Prop where
  has : h.Has (.object r.global)
  plain : (h.object r.global).bytes? = none

namespace Heap

variable {W : Value → String → Prop} {h h' : Heap} {r : Realm} {v : Value}

theorem HasRealm.evolves (hr : h.HasRealm r) (he : h.Evolves W h') : h'.HasRealm r where
  has := he.has hr.has
  plain := by
    have hbytes := he.isSome_bytes? hr.has
    rw [hr.plain] at hbytes
    exact Option.not_isSome_iff_eq_none.1 (by rw [hbytes]; exact Bool.false_ne_true)

/-- A property of an object written. -/
theorem evolves_setOf (h : Heap) (id : ObjectId) (key : String) (hv : h.Has v)
    (hW : W (.object id) key) : h.Evolves W (h.setOf id key v).2 :=
  .of_change (.set hW hv rfl)

theorem evolves_define (r : Realm) (name : String) (hv : h.Has v)
    (hW : W (.object r.global) name) : h.Evolves W (r.define h name v) :=
  evolves_setOf h r.global name hv hW

theorem evolves_install (r : Realm) (b : Builtin) (h : Heap) (hW : W (.object r.global) b.name) :
    h.Evolves W (r.install h b) := by
  have hfunction : h.Evolves W (h.newFunction b.name b.call? b.construct?).2 :=
    .of_change (.function b.name b.call? b.construct?)
  exact hfunction.trans (evolves_define r b.name (has_newFunction h _ _ _) hW)

theorem evolves_foldl_install (r : Realm) (bs : List Builtin) (h : Heap)
    (hW : ∀ b ∈ bs, W (.object r.global) b.name) : h.Evolves W (bs.foldl r.install h) := by
  induction bs generalizing h with
  | nil => exact .refl W h
  | cons b bs ih =>
    exact (evolves_install r b h (hW b List.mem_cons_self)).trans
      (ih (r.install h b) fun b' hb' => hW b' (List.mem_cons_of_mem _ hb'))

theorem hasRealm_newObject (h : Heap) : h.newObject.2.HasRealm ⟨h.newObject.1⟩ where
  has := has_allocObject h .plain
  plain := by
    rw [newObject, object_allocObject]
    exact congrArg ObjectCell.bytes? (if_pos rfl)

/-- A fresh global object with constructors is made, and by changes of the heap. -/
theorem evolves_newRealm (bs : List Builtin) (h : Heap) :
    h.Evolves Anywhere (bs.foldl (Realm.install ⟨h.newObject.1⟩) h.newObject.2) ∧
      (bs.foldl (Realm.install ⟨h.newObject.1⟩) h.newObject.2).HasRealm ⟨h.newObject.1⟩ := by
  have hobject : h.Evolves Anywhere h.newObject.2 := .of_change (.object none)
  have hbuiltins := evolves_foldl_install (W := Anywhere) ⟨h.newObject.1⟩ bs h.newObject.2
    fun _ _ => trivial
  exact ⟨hobject.trans hbuiltins, (hasRealm_newObject h).evolves hbuiltins⟩

theorem evolves_createRealm (h : Heap) :
    h.Evolves Anywhere (Realm.create h).2 ∧ (Realm.create h).2.HasRealm (Realm.create h).1 := by
  rw [Realm.create]
  generalize Realm.builtins = bs
  exact evolves_newRealm bs h

end Heap

end ValueBridge
