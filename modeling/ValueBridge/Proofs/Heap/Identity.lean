import ValueBridge.Proofs.Engine.Lawful
import ValueBridge.Proofs.Heap.Building
import ValueBridge.Proofs.Heap.BufferWrites
import ValueBridge.Proofs.Realm

/-!
# New identities

What a host makes that has an identity: objects, buffers and symbols by the constructors of a
realm, and objects of JSON values (`Heap.Makes`). All of it is *new* (`Heap.IsNew`,
`Heap.Makes.isNew`): it was not there before, and is from then on, and nothing that was there is
changed.

A value that is there and one that is not are different (`Heap.Has.differs`), so that what is new
differs from all that was there, and from all that will be made.
-/

namespace ValueBridge

/-- The values are not strictly equal, whichever comes first. -/
def Value.Differs (v w : Value) : Prop :=
  v.strictEqual w = false ∧ w.strictEqual v = false

theorem Value.Differs.symm {v w : Value} (h : v.Differs w) : w.Differs v :=
  And.symm h

/-- The first argument, if there is one, is neither an object nor a function. -/
def Standard.NoThing (args : List Value) : Prop :=
  ∀ v, args.head? = some v → (∀ id, v ≠ .object id) ∧ ∀ id, v ≠ .function id

namespace Heap

variable {h h' : Heap} {f receiver v w : Value} {args : List Value}

/-- The value was made between the heaps, and is all that is different between them, as far as what
    there was is concerned. -/
structure IsNew (h : Heap) (v : Value) (h' : Heap) : Prop where
  fresh : ¬h.Has v
  has : h'.Has v
  keeps : h.Keeps h'

/-- The host makes the value: a fresh object, what a constructor of a realm makes if it is not
    given what it gives back, or one of the objects of a JSON value. -/
inductive Makes (h : Heap) : Value → Heap → Prop
  | object : Makes h (.object h.newObject.1) h.newObject.2
  | callObject {f receiver v : Value} {args : List Value} {h' : Heap} : h.IsBuiltin .object f →
      Standard.NoThing args → Engine.standard.call f receiver args h = (.ok v, h') → Makes h v h'
  | constructObject {f v : Value} {args : List Value} {h' : Heap} : h.IsBuiltin .object f →
      Standard.NoThing args → Engine.standard.construct f args h = (.ok v, h') → Makes h v h'
  | constructBuffer {f v : Value} {args : List Value} {h' : Heap} : h.IsBuiltin .buffer f →
      Engine.standard.construct f args h = (.ok v, h') → Makes h v h'
  | callSymbol {f receiver v : Value} {args : List Value} {h' : Heap} : h.IsBuiltin .symbol f →
      Engine.standard.call f receiver args h = (.ok v, h') → Makes h v h'
  | json (j : Json) {c : ObjectId} : (ofJson j h).2.LeadsTo (ofJson j h).1 c →
      Makes h (.object c) (ofJson j h).2

/-! ## Constructors -/

theorem call_of_isBuiltin {b : Builtin} {native : Native} (hf : h.IsBuiltin b f)
    (hb : b.call? = some native) (receiver : Value) (args : List Value) :
    Engine.standard.call f receiver args h = Standard.run native receiver args h := by
  rw [Engine.call, hf.callBehaviour_eq hb]
  rfl

theorem construct_of_isBuiltin {b : Builtin} {native : Native} (hf : h.IsBuiltin b f)
    (hb : b.construct? = some native) (args : List Value) :
    Engine.standard.construct f args h = Standard.run native .undefined args h := by
  rw [Engine.construct, hf.constructBehaviour_eq hb]
  rfl

/-- An object or a function is given back as it is. -/
theorem run_objectOf_thing (receiver : Value) (hv : args.head? = some v)
    (hthing : (∃ id, v = .object id) ∨ ∃ id, v = .function id) :
    Standard.run .objectOf receiver args h = (.ok v, h) := by
  rw [Standard.run]
  rcases hthing with ⟨id, rfl⟩ | ⟨id, rfl⟩ <;> simp only [Standard.objectOf, hv]

theorem objectOf_of_noThing (hargs : Standard.NoThing args) :
    Standard.objectOf args h = (.object h.newObject.1, h.newObject.2) := by
  rw [Standard.objectOf]
  split
  · next id hid => exact absurd rfl ((hargs _ hid).1 id)
  · next id hid => exact absurd rfl ((hargs _ hid).2 id)
  · rfl

theorem run_objectOf_noThing (receiver : Value) (hargs : Standard.NoThing args) :
    Standard.run .objectOf receiver args h = (.ok (.object h.newObject.1), h.newObject.2) := by
  rw [Standard.run, objectOf_of_noThing hargs]

/-- What the constructor of objects gives, whether it is called or constructs: an object or a
    function as it is, and something fresh otherwise. It refuses nothing. -/
structure GivesObjects (h : Heap) (f : Value) : Prop where
  fresh : ∀ receiver args, Standard.NoThing args →
    ∃ v h', Engine.standard.call f receiver args h = (.ok v, h') ∧
      Engine.standard.construct f args h = (.ok v, h')
  same : ∀ receiver args v, args.head? = some v →
    ((∃ id, v = .object id) ∨ ∃ id, v = .function id) →
    Engine.standard.call f receiver args h = (.ok v, h) ∧
      Engine.standard.construct f args h = (.ok v, h)

theorem givesObjects (hf : h.IsBuiltin .object f) : h.GivesObjects f where
  fresh receiver args hargs := by
    rw [call_of_isBuiltin hf rfl, construct_of_isBuiltin hf rfl]
    exact ⟨_, _, run_objectOf_noThing _ hargs, run_objectOf_noThing _ hargs⟩
  same receiver args v hv hthing := by
    rw [call_of_isBuiltin hf rfl, construct_of_isBuiltin hf rfl]
    exact ⟨run_objectOf_thing _ hv hthing, run_objectOf_thing _ hv hthing⟩

theorem newSymbol_of_run (hrun : Standard.run .symbolOf receiver args h = (.ok v, h')) :
    ∃ description?, v = .symbol (h.newSymbol description?).1 ∧
      h' = (h.newSymbol description?).2 := by
  rw [Standard.run] at hrun
  split at hrun
  · cases hrun
  · next description? _ =>
    cases hrun
    exact ⟨description?, rfl, rfl⟩

/-- A symbol is made with any description that is not a symbol itself. -/
theorem exists_call_symbol (hf : h.IsBuiltin .symbol f) (receiver : Value)
    (hargs : ∀ id, args.head? ≠ some (.symbol id)) :
    ∃ v h', Engine.standard.call f receiver args h = (.ok v, h') := by
  obtain ⟨description?, hdescription⟩ :
      ∃ description?, Standard.symbolDescription args h = .ok description? := by
    rw [Standard.symbolDescription]
    rcases hhead : args.head? with _ | v
    · exact ⟨none, rfl⟩
    · cases v with
      | symbol id => exact absurd hhead (hargs id)
      | _ => exact ⟨_, rfl⟩
  rw [call_of_isBuiltin hf rfl, Standard.run, hdescription]
  exact ⟨_, _, rfl⟩

/-- The objects of a JSON value are a tree. -/
theorem isTree_ofJson (h : Heap) (j : Json) : (ofJson j h).2.IsTree (ofJson j h).1 := by
  have hbuilt := built_ofJson j h
  exact hbuilt.forest.isTree
    (fun c hc => ⟨Nat.le_of_eq (hbuilt.root c hc).1.symm, (hbuilt.root c hc).2⟩) hbuilt.unfolds

/-! ## What is new -/

theorem Keeps.newSymbol (h : Heap) (description? : Option String) :
    h.Keeps (h.newSymbol description?).2 :=
  ⟨Nat.le_refl _, Nat.le_refl _, fun _ _ => rfl, fun _ _ => rfl⟩

theorem isNew_allocObject (h : Heap) (cell : ObjectCell) :
    h.IsNew (.object (h.allocObject cell).1) (h.allocObject cell).2 :=
  ⟨Nat.lt_irrefl h.objects.size, has_allocObject h cell, .allocObject h cell⟩

theorem isNew_newSymbol (h : Heap) (description? : Option String) :
    h.IsNew (.symbol (h.newSymbol description?).1) (h.newSymbol description?).2 :=
  ⟨Nat.lt_irrefl h.symbols.size, has_newSymbol h description?, .newSymbol h description?⟩

theorem isNew_ofJson (h : Heap) (j : Json) {c : ObjectId}
    (hc : (ofJson j h).2.LeadsTo (ofJson j h).1 c) : h.IsNew (.object c) (ofJson j h).2 := by
  have hbuilt := built_ofJson j h
  have hroot := hc
  obtain ⟨r, hr, -⟩ := hroot
  obtain ⟨hindex, hsize⟩ := hbuilt.root r hr
  obtain ⟨hle, hlt⟩ := hbuilt.forest.le_of_leadsTo (Nat.le_of_eq hindex.symm) hsize (hr ▸ hc)
  exact ⟨Nat.not_lt_of_le (hindex ▸ hle), hlt, hbuilt.keeps⟩

/-! ## How it is made -/

/-- The JSON value is built by changes of any heap, and is there then. -/
def Comes (j : Json) : Prop :=
  ∀ h : Heap, h.ComesTo (.ok (ofJson j h).1, (ofJson j h).2)

theorem comes_number (n : Json.Number) : Comes (.number n) := by
  intro h
  rw [ofJson]
  exact comesTo_ok (.refl _ h) trivial

theorem evolves_setMembers (id : ObjectId) {members : List (String × Json)}
    (hmembers : ∀ e ∈ members, Comes e.2) (h : Heap) :
    h.Evolves Anywhere (setMembers id members h) := by
  induction members generalizing h with
  | nil =>
    rw [setMembers]
    exact .refl _ h
  | cons e members ih =>
    have hmember := hmembers e List.mem_cons_self h
    have hset := hmember.evolves.trans (evolves_setOf _ id e.1 (hmember.has _ rfl) trivial)
    rw [setMembers]
    exact hset.trans (ih (fun e' he' => hmembers e' (List.mem_cons_of_mem _ he')) _)

theorem comes_object {members : List (String × Json)} (hmembers : ∀ e ∈ members, Comes e.2) :
    Comes (.object members) := by
  intro h
  have hnew := Standard.comesTo_newObject h
  have hset := evolves_setMembers h.newObject.1 hmembers h.newObject.2
  rw [ofJson]
  exact comesTo_ok (hnew.evolves.trans hset) (hset.has (hnew.has _ rfl))

/-- Every JSON value is built by changes of the heap. -/
theorem comes_ofJson (j : Json) : Comes j := by
  induction j using Json.induct with
  | null | bool | string =>
    intro h
    rw [ofJson]
    exact comesTo_ok (.refl _ h) trivial
  | number n => exact comes_number n
  | array items ih =>
    intro h
    rw [ofJson_array]
    -- The members of an array are its items and its length, which is a number.
    refine comes_object (fun e he => ?_) h
    rcases Json.mem_arrayMembers he with hitem | ⟨n, hn⟩
    · exact ih _ hitem
    · rw [hn]
      exact comes_number n
  | object members ih => exact comes_object ih

/-- What is made is a fresh object or a fresh symbol, or comes of a JSON value. -/
theorem Makes.cases (hmakes : h.Makes v h') :
    (∃ bytes?, v = .object (h.allocObject ⟨.empty, bytes?⟩).1 ∧
      h' = (h.allocObject ⟨.empty, bytes?⟩).2) ∨
    (∃ description?, v = .symbol (h.newSymbol description?).1 ∧
      h' = (h.newSymbol description?).2) ∨
    ∃ j c, v = .object c ∧ (ofJson j h).2.LeadsTo (ofJson j h).1 c ∧ h' = (ofJson j h).2 := by
  cases hmakes with
  | object => exact .inl ⟨none, rfl, rfl⟩
  | callObject hf hargs hcall =>
    rw [call_of_isBuiltin hf rfl, run_objectOf_noThing _ hargs] at hcall
    cases hcall
    exact .inl ⟨none, rfl, rfl⟩
  | constructObject hf hargs hconstruct =>
    rw [construct_of_isBuiltin hf rfl, run_objectOf_noThing _ hargs] at hconstruct
    cases hconstruct
    exact .inl ⟨none, rfl, rfl⟩
  | constructBuffer hf hconstruct =>
    rw [construct_of_isBuiltin hf rfl] at hconstruct
    obtain ⟨bytes, rfl, rfl⟩ := newBuffer_of_run hconstruct
    exact .inl ⟨some bytes, rfl, rfl⟩
  | callSymbol hf hcall =>
    rw [call_of_isBuiltin hf rfl] at hcall
    exact .inr (.inl (newSymbol_of_run hcall))
  | json j hc => exact .inr (.inr ⟨j, _, rfl, hc, rfl⟩)

/-- What is made is new. -/
theorem Makes.isNew (hmakes : h.Makes v h') : h.IsNew v h' := by
  rcases hmakes.cases with ⟨bytes?, rfl, rfl⟩ | ⟨description?, rfl, rfl⟩ | ⟨j, c, rfl, hc, rfl⟩
  · exact isNew_allocObject h _
  · exact isNew_newSymbol h description?
  · exact isNew_ofJson h j hc

/-- It is made by the changes that there are. -/
theorem Makes.evolves (hmakes : h.Makes v h') : h.Evolves Anywhere h' := by
  rcases hmakes.cases with ⟨bytes?, rfl, rfl⟩ | ⟨description?, rfl, rfl⟩ | ⟨j, c, rfl, hc, rfl⟩
  · exact .of_change (.object bytes?)
  · exact .of_change (.symbol description?)
  · exact (comes_ofJson j h).evolves

/-! ## Differences -/

/-- What is there differs from what is not. -/
theorem Has.differs (hw : h.Has w) (hv : ¬h.Has v) : v.Differs w := by
  have hne : v ≠ w := by
    rintro rfl
    exact hv hw
  cases v with
  | object | function | symbol =>
    constructor
    · exact beq_false_of_ne hne
    · cases w <;> exact beq_false_of_ne hne.symm
  | _ => exact absurd trivial hv

end Heap

end ValueBridge
