import ValueBridge.Proofs.Import.Property
import ValueBridge.Proofs.Instance.Soundness
import ValueBridge.Proofs.Text.Utf8

/-!
# Properties keep what was written last

Several ways lead to a property: the slots that hold its object, that of the global object
among them, and the host's own. Whatever the way that it is read, a property has the value
that was written last (`Instance.PropertyIs`), for as long as no operation writes to it
(`Instance.last_write_wins`).

A property is read through the bridge by a call that delivers its value (`Instance.Delivers`).
It is delivered unless no slot is left for it, so that all are live.
-/

namespace ValueBridge.Instance

variable {i i' : Instance} {ops : List Operation} {realm : Realm} {target v : Value}
  {key : String}

/-- The call delivers the value to the address, unless all slots are live. -/
def Delivers (e : Engine) (c : Call) (out : UInt32) (v : Value) (i : Instance) : Prop :=
  match i.perform (c.perform e) with
  | (.ok _, j) => (j.perform (Bridge.loadRef out)).1 = .ok v.received
  | (.error fault, _) => fault = .tableFull ∧ ∀ id, i.table.isLive id = true

/-- The property has the value, whatever the way that it is read. -/
structure PropertyIs (realm : Realm) (target : Value) (key : String) (v : Value)
    (i : Instance) : Prop where
  /-- The host reads it. -/
  get : i.heap.get target key = .ok v
  /-- The host looks it up by name, if it is one of the global object. -/
  lookup : target = .object realm.global → realm.lookup i.heap key = v
  /-- The guest gets it through any slot of the target. -/
  valueGet : ∀ e out object keyAddr keyLength, i.bound = true →
    i.table.load object = .ok target → i.memory.readText keyAddr keyLength = .ok key →
    out.toNat + Memory.refSize ≤ i.bytes.size →
    i.Delivers e (.valueGet out object keyAddr keyLength) out v

/-! ## Reading -/

theorem state_resume {s : State} (h : s.memory.isBound = i.bound) : (i.resume s).state = s := by
  obtain ⟨heap, table, memory, log⟩ := s
  cases memory <;> simp_all [state, resume, Instance.memory, Memory.isBound]

theorem memory_of_bound (hbound : i.bound = true) : i.state.memory = .bound i.bytes := by
  rw [state, memory, hbound, if_pos rfl]

theorem delivers_valueGet (hi : i.Sound realm) (hget : i.heap.get target key = .ok v)
    (e : Engine) {out object keyAddr keyLength : UInt32} (hbound : i.bound = true)
    (htarget : i.table.load object = .ok target)
    (hkey : i.memory.readText keyAddr keyLength = .ok key)
    (hin : out.toNat + Memory.refSize ≤ i.bytes.size) :
    i.Delivers e (.valueGet out object keyAddr keyLength) out v := by
  obtain ⟨runtime, hsingletons⟩ := hi.singletons
  obtain ⟨log, hvalueGet⟩ := Import.valueGet_apply out (s := i.state) htarget hkey hget
  rw [Delivers, perform_eq, Call.perform, Action.bind_apply, hvalueGet]
  rcases Bridge.storeRef_loads (s := { i.state with log }) (v := v) hi.wellFormed hsingletons
    (memory_of_bound hbound) hin with ⟨s', hstored, _, hbound', hload⟩ | ⟨hfull, hlive⟩
  · rw [hstored]
    change (Bridge.loadRef out (i.resume s').state).1 = .ok v.received
    rwa [state_resume (hbound'.trans hbound.symm)]
  · rw [hfull]
    exact ⟨rfl, hlive⟩

theorem propertyIs_of_get (hi : i.Sound realm) (hget : i.heap.get target key = .ok v) :
    i.PropertyIs realm target key v where
  get := hget
  lookup := by
    rintro rfl
    cases hget
    rfl
  valueGet e _ _ _ _ hbound htarget hkey hin := delivers_valueGet hi hget e hbound htarget hkey hin

/-- A property has its value throughout a run that leaves it. -/
theorem Arises.propertyIs_run (hi : i.Arises realm) (htarget : i.heap.Has target)
    (hget : i.heap.get target key = .ok v)
    (hops : i.Throughout (Operation.LeavesProperty target key) ops) :
    (i.run ops).PropertyIs realm target key v := by
  obtain ⟨harises, _, hsame⟩ := hi.get_run htarget hops
  exact propertyIs_of_get harises.sound (hsame.trans hget)

/-! ## Writing -/

/-- The heap after a property is set has what the reference stands for. -/
theorem get_of_valueSet {e : Engine} {object keyAddr keyLength valueAddr : UInt32}
    (hi : i.Sound realm) (htarget : i.table.load object = .ok target)
    (hkey : i.memory.readText keyAddr keyLength = .ok key)
    (hplain : i.heap.PlainProperty target key)
    (hset : i.perform ((Call.valueSet object keyAddr keyLength valueAddr).perform e) =
      (.ok .nothing, i')) :
    ∃ v, (i.perform (Bridge.loadRef valueAddr)).1 = .ok v ∧ i'.heap.get target key = .ok v := by
  rw [perform_eq, Call.perform, Action.bind_apply] at hset
  rcases hvalueSet : Import.valueSet object keyAddr keyLength valueAddr i.state with
    ⟨fault | _, s'⟩ <;> rw [hvalueSet] at hset <;> cases hset
  obtain ⟨v, written, hload, hwritten⟩ := Import.valueSet_of_ok hvalueSet htarget hkey
  exact ⟨v, hload, Heap.get_set_self hwritten (hi.made.has htarget) hplain⟩

/-- To set a property is lawful, as no engine has a part in it. -/
theorem Arises.valueSet (hi : i.Arises realm) (e : Engine)
    (object keyAddr keyLength valueAddr : UInt32) :
    let op := Operation.call e (.valueSet object keyAddr keyLength valueAddr)
    (i.next op).Arises realm ∧ Goes (op.MayWrite i) i (i.next op) := by
  have hop : (Operation.call .standard (.valueSet object keyAddr keyLength valueAddr)).Lawful i :=
    Engine.lawful_standard
  have hnext := hi.next hop
  have hgoes := goes_next hi.sound.made hop
  exact ⟨hnext, hgoes⟩

theorem heap_valueGet (e : Engine) (out object keyAddr keyLength : UInt32) :
    (i.next (.call e (.valueGet out object keyAddr keyLength))).heap = i.heap := by
  have hheap := Import.heap_valueGet out object keyAddr keyLength i.state
  rw [next, perform_eq, Call.perform, Action.bind_apply]
  rcases hvalueGet : Import.valueGet out object keyAddr keyLength i.state with ⟨fault | _, s'⟩ <;>
    rwa [hvalueGet] at hheap

/-- The heap after a global is defined has the value. -/
theorem get_of_define (hi : i.Sound realm) (name : String) (v : Value) :
    (realm.define i.heap name v).get (.object realm.global) name = .ok v :=
  Heap.get_set_self (h := i.heap) rfl hi.hasRealm.has hi.hasRealm.plain

/-- In an instance that arises over a realm, a plain property that the guest sets has what the
    reference stands for, and a global that the host defines has its value, throughout every
    run that does not write to the property. To set a property changes no other property, and
    to get one changes none. -/
theorem last_write_wins (hi : i.Arises realm) :
    (∀ e object keyAddr keyLength valueAddr target key i',
      i.table.load object = .ok target → i.memory.readText keyAddr keyLength = .ok key →
      i.heap.PlainProperty target key →
      i.perform ((Call.valueSet object keyAddr keyLength valueAddr).perform e) =
        (.ok .nothing, i') →
      ∃ v, (i.perform (Bridge.loadRef valueAddr)).1 = .ok v ∧
        ∀ ops, i'.Throughout (Operation.LeavesProperty target key) ops →
          (i'.run ops).PropertyIs realm target key v) ∧
    (∀ name v ops, i.heap.Has v →
      let i' := i.next (.host (realm.define i.heap name v))
      let j := i'.run ops
      i'.Throughout (Operation.LeavesProperty (.object realm.global) name) ops →
        j.PropertyIs realm (.object realm.global) name v ∧
          ∀ e out keyAddr keyLength, j.bound = true →
            j.memory.read? keyAddr keyLength.toNat = .ok (some (Utf8.encode name)) →
            out.toNat + Memory.refSize ≤ j.bytes.size →
            j.Delivers e (.valueGet out Singleton.global.slot keyAddr keyLength) out v) ∧
    (∀ e object keyAddr keyLength valueAddr target key, i.heap.Has target →
      ¬(i.table.load object = .ok target ∧ i.memory.readText keyAddr keyLength = .ok key) →
      (i.next (.call e (.valueSet object keyAddr keyLength valueAddr))).heap.get target key =
        i.heap.get target key) ∧
    ∀ e out object keyAddr keyLength,
      (i.next (.call e (.valueGet out object keyAddr keyLength))).heap = i.heap := by
  refine ⟨?_, ?_, ?_, ?_⟩
  · intro e object keyAddr keyLength valueAddr target key i' htarget hkey hplain hset
    obtain ⟨v, hload, hget⟩ := get_of_valueSet hi.sound htarget hkey hplain hset
    obtain rfl : i.next (.call e (.valueSet object keyAddr keyLength valueAddr)) = i' :=
      congrArg Prod.snd hset
    obtain ⟨hi', hgoes⟩ := hi.valueSet e object keyAddr keyLength valueAddr
    have hhas := hgoes.evolves.has (hi.sound.made.has htarget)
    exact ⟨v, hload, fun ops hops => hi'.propertyIs_run hhas hget hops⟩
  · intro name v ops hv i' j hops
    have hevolves := Heap.evolves_define (W := Heap.Anywhere) realm name hv trivial
    have hi' : i'.Arises realm := hi.next hevolves
    have hj := hi'.propertyIs_run (hevolves.has hi.sound.hasRealm.has)
      (get_of_define hi.sound name v) hops
    refine ⟨hj, fun e out keyAddr keyLength hbound hread hin => ?_⟩
    obtain ⟨harises, _, _⟩ := hi'.get_run (hevolves.has hi.sound.hasRealm.has) hops
    obtain ⟨runtime, hsingletons⟩ := harises.sound.singletons
    exact hj.valueGet e out _ keyAddr keyLength hbound (hsingletons .global)
      (Memory.readText_of_read? hread) hin
  · intro e object keyAddr keyLength valueAddr target key htarget hother
    obtain ⟨_, hgoes⟩ := hi.valueSet e object keyAddr keyLength valueAddr
    exact hgoes.evolves.get_eq htarget hother
  · intro e out object keyAddr keyLength
    exact heap_valueGet e out object keyAddr keyLength

/-- The realm of a host that has nothing else, and its heap. -/
def firstRealm : Realm × Heap :=
  Realm.create .empty

/-- An instance over the first realm, with the key a and then zeros in its memory. -/
def keyed : Instance :=
  (create .default firstRealm.1 firstRealm.2 (Memory.overwrite (Array.replicate 24 0) 0 [97])).next
    (.bind memoryExport)

theorem arises_keyed : keyed.Arises firstRealm.1 := by
  obtain ⟨hevolves, hrealm⟩ := Heap.evolves_createRealm .empty
  exact .next (.create _ _ (hevolves.closed Heap.closed_empty) hrealm) trivial

/-- The guest sets a global to zero, and it is zero after an object was made. -/
theorem last_write_wins_zero :
    let i := keyed.next (.call .standard (.valueSet Singleton.global.slot 0 1 8))
    (i.run [.call .standard (.valueObjectCreate 16)]).PropertyIs firstRealm.1
      (.object firstRealm.1.global) "a" (.number (.zero false)) := by
  have hset : keyed.perform ((Call.valueSet Singleton.global.slot 0 1 8).perform .standard) =
      (.ok .nothing, keyed.next (.call .standard (.valueSet Singleton.global.slot 0 1 8))) :=
    Prod.ext rfl rfl
  have htarget : keyed.table.load Singleton.global.slot = .ok (.object firstRealm.1.global) := rfl
  have hkey : keyed.memory.readText 0 1 = .ok "a" := rfl
  have hplain : (keyed.heap.object firstRealm.1.global).bytes? = none := rfl
  obtain ⟨v, hload, hrun⟩ :=
    (last_write_wins arises_keyed).1 _ _ _ _ _ _ _ _ htarget hkey hplain hset
  cases hload
  exact hrun _ ⟨⟨Engine.lawful_standard, fun hwrites => hwrites.1⟩, trivial⟩

end ValueBridge.Instance
