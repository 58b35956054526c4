import ValueBridge.Proofs.Import.Safety
import ValueBridge.Proofs.Instance.Run

/-!
# Instances that hold on to what was made

A host makes what it hands out, and changes its heap in the ways that there are. An operation
that does no more is *lawful* (`Operation.Lawful`). The instances that come of a bridge over a
realm by lawful operations (`Instance.Arises`) are sound: all that their tables and heaps hold
was made, and the realm of the bridge is there (`Arises.sound`).

A lawful operation writes to a property only if it may (`Operation.MayWrite`), so that a
property to which no operation of a run writes is the same at its end (`Arises.get_run`).
-/

namespace ValueBridge

namespace Operation

/-- The host uses what was made, and changes its heap in the ways that there are. -/
def Lawful (i : Instance) : Operation → Prop
  | .call e _ | .invoke e _ => e.Lawful
  | .storeValue v | .storeRef _ v => i.heap.Has v
  | .host heap => i.heap.Evolves Heap.Anywhere heap
  | _ => True

/-- The operation may write to the property of the value. -/
def MayWrite (i : Instance) : Operation → Value → String → Prop
  | .call _ c, target, key | .invoke _ c, target, key => c.MayWrite i.state target key
  | .host _, _, _ => True
  | _, _, _ => False

/-- The operation writes to the property: it may, and it is not only elsewhere that it does. -/
def Writes (i : Instance) (target : Value) (key : String) (op : Operation) : Prop :=
  op.MayWrite i target key ∧ ¬i.heap.Evolves (Heap.Elsewhere target key) (i.next op).heap

/-- The operation is lawful and does not write to the property. -/
def LeavesProperty (target : Value) (key : String) (i : Instance) (op : Operation) : Prop :=
  op.Lawful i ∧ ¬op.Writes i target key

end Operation

namespace Instance

/-- The instance comes of a bridge over a realm by lawful operations. -/
inductive Arises (realm : Realm) : Instance → Prop
  | create (config : Config) {h : Heap} (bytes : Array UInt8) : h.Closed → h.HasRealm realm →
      Arises realm (create config realm h bytes)
  | next {i : Instance} {op : Operation} : Arises realm i → op.Lawful i →
      Arises realm (i.next op)

variable {α : Type} {W : Value → String → Prop} {i : Instance} {op : Operation}
  {ops : List Operation} {realm : Realm} {target v : Value} {key : String}

/-- The heap evolves, and all that the table and the heap hold was made. -/
structure Goes (W : Value → String → Prop) (i i' : Instance) : Prop where
  evolves : i.heap.Evolves W i'.heap
  sound : i'.state.Sound

theorem goes_of_safe {P : α → Heap → Prop} {x : Action α} (hx : x.Safe W P i.state) :
    Goes W i (i.perform x).2 :=
  ⟨hx.evolves, hx.sound.closed, hx.sound.has⟩

theorem goes_of_reads {x : Action α} (hx : x.Reads) (hi : i.state.Sound) :
    Goes W i (i.perform x).2 :=
  goes_of_safe (P := fun _ _ => True) (.of_reads hx hi fun _ _ => trivial)

theorem goes_of_eq {i' : Instance} (hheap : i'.heap = i.heap) (htable : i'.table = i.table)
    (hi : i.state.Sound) : Goes W i i' := by
  refine ⟨hheap ▸ .refl W i.heap, ?_, ?_⟩ <;> simp only [state, hheap, htable]
  · exact hi.closed
  · exact hi.has

/-- A lawful operation takes a sound instance to a sound one, and writes where it may. -/
theorem goes_next (hi : i.state.Sound) (hop : op.Lawful i) :
    Goes (op.MayWrite i) i (i.next op) := by
  cases op with
  | call e c => exact goes_of_safe (c.safe_perform hop hi)
  | invoke e c =>
    obtain ⟨log, log', h⟩ := exists_invoke e i c
    have hsafe := c.safe_perform (s := { i.state with log }) hop (hi.log log)
    rw [next, h]
    exact ⟨hsafe.evolves, hsafe.sound.closed, hsafe.sound.has⟩
  | loadValue id => exact goes_of_reads (Bridge.reads_loadValue id) hi
  | storeValue v => exact goes_of_safe (Bridge.safe_storeValue hi hop)
  | retainValue id => exact goes_of_safe (Bridge.safe_retainValue hi id)
  | deleteValue id => exact goes_of_safe (Bridge.safe_deleteValue hi id)
  | readRef addr => exact goes_of_reads (Bridge.reads_readRef? addr) hi
  | loadRef addr => exact goes_of_reads (Bridge.reads_loadRef addr) hi
  | storeRef addr v => exact goes_of_safe (Bridge.safe_storeRef hi hop addr)
  | bind exported =>
    rw [next]
    split
    · next i' hbind =>
      rw [bind] at hbind
      split at hbind
      · cases hbind
        exact goes_of_eq rfl rfl hi
      · cases hbind
    · exact goes_of_eq rfl rfl hi
  | unbind => exact goes_of_eq rfl rfl hi
  | guest bytes => exact goes_of_eq rfl rfl hi
  | host heap => exact ⟨hop, hop.closed hi.closed, fun hload => hop.has (hi.has hload)⟩

/-- A lawful operation that does not write to a property goes on by changes elsewhere. -/
theorem evolves_next (hi : i.state.Sound) (hop : op.LeavesProperty target key i) :
    i.heap.Evolves (Heap.Elsewhere target key) (i.next op).heap := by
  by_cases hmay : op.MayWrite i target key
  · exact not_not.1 fun helse => hop.2 ⟨hmay, helse⟩
  · refine (goes_next hi hop.1).evolves.mono ?_
    rintro t k ht ⟨rfl, rfl⟩
    exact hmay ht

/-! ## Instances that arise -/

/-- What holds of all instances that arise over a realm. -/
structure Sound (realm : Realm) (i : Instance) : Prop where
  made : i.state.Sound
  hasRealm : i.heap.HasRealm realm
  wellFormed : i.table.WellFormed
  singletons : ∃ runtime, ∀ s : Singleton,
    i.table.load s.slot = .ok (s.value (.object realm.global) runtime)

theorem Sound.next (hi : i.Sound realm) (hop : op.Lawful i) : (i.next op).Sound realm where
  made := (goes_next hi.made hop).sound
  hasRealm := hi.hasRealm.evolves (goes_next hi.made hop).evolves
  wellFormed := wellFormed_next hi.wellFormed op
  singletons := by
    obtain ⟨runtime, hsingletons⟩ := hi.singletons
    refine ⟨runtime, fun s => ?_⟩
    rcases (i.confined_next op).table with htable | ⟨top, _, htable⟩ <;> rw [htable]
    · exact hsingletons s
    · exact Table.load_apply hi.wellFormed (hsingletons s) (Table.not_frees_singleton s.slot_le top)

/-- A fresh bridge makes its runtime object, and tells it the module of the imports. -/
theorem evolves_createBridge (config : Config) (realm : Realm) (h : Heap) :
    h.Evolves Heap.Anywhere (Bridge.create config realm h).2 ∧
      (Bridge.create config realm h).2.Has (.object (Bridge.create config realm h).1.runtime) := by
  have hobject : h.Evolves Heap.Anywhere h.newObject.2 := .of_change (.object none)
  have hmodule : h.newObject.2.Evolves Heap.Anywhere
      (h.newObject.2.setOf h.newObject.1 runtimeModuleKey (.string config.importModule)).2 :=
    Heap.evolves_setOf _ _ _ trivial trivial
  exact ⟨hobject.trans hmodule, hmodule.has (Heap.has_allocObject h .plain)⟩

theorem Sound.create (config : Config) {h : Heap} (bytes : Array UInt8) (hh : h.Closed)
    (hrealm : h.HasRealm realm) : (create config realm h bytes).Sound realm := by
  obtain ⟨hevolves, hruntime⟩ := evolves_createBridge config realm h
  have hrealm := hrealm.evolves hevolves
  refine ⟨⟨hevolves.closed hh, fun hload => ?_⟩, hrealm, .create _ _, _,
    Table.load_singleton_create _ _⟩
  obtain ⟨s, rfl⟩ := Table.singleton_of_load_create hload
  cases s with
  | global => exact hrealm.has
  | runtime => exact hruntime
  | _ => trivial

theorem Arises.sound (hi : i.Arises realm) : i.Sound realm := by
  induction hi with
  | create config bytes hh hrealm => exact .create config bytes hh hrealm
  | next _ hop ih => exact ih.next hop

/-- A run that leaves a property leaves its value. -/
theorem Arises.get_run (hi : i.Arises realm) (htarget : i.heap.Has target)
    (hops : i.Throughout (Operation.LeavesProperty target key) ops) :
    (i.run ops).Arises realm ∧ (i.run ops).heap.Has target ∧
      (i.run ops).heap.get target key = i.heap.get target key := by
  refine ValueBridge.Throughout.foldl hops
    (I := fun j => j.Arises realm ∧ j.heap.Has target ∧
      j.heap.get target key = i.heap.get target key) ?_ ⟨hi, htarget, rfl⟩
  rintro j op ⟨hj, hhas, hget⟩ hop
  have hevolves := evolves_next hj.sound.made hop
  refine ⟨hj.next hop.1, hevolves.has hhas, ?_⟩
  rw [hevolves.get_eq hhas fun helse => helse ⟨rfl, rfl⟩, hget]

end Instance

end ValueBridge
