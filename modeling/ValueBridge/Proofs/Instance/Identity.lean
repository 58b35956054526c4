import ValueBridge.Proofs.Heap.Identity
import ValueBridge.Proofs.Import.Arguments
import ValueBridge.Proofs.Instance.Property

/-!
# Identities in a run

In a run of an instance, the host makes objects and symbols, and so does the guest through the
bridge (`Instance.Makes`). Whatever the guest is given for one of them is what the host made
(`Instance.Makes.heap`), so that it is new (`Instance.Makes.makesNew`). However often slots are
released and taken again meanwhile, the values that are made in a run all differ from one another,
and from all that there was before (`Instance.MakesAll.differ`). This and more is what it takes for
an instance to keep things apart (`Instance.KeepsApart`).
-/

namespace ValueBridge

open ValueBridge.Action

/-- What has an identity is received as it was sent. -/
theorem Heap.received_of_not_has {h : Heap} {v : Value} (hv : ¬h.Has v) : v.received = v := by
  cases v with
  | number x => exact absurd trivial hv
  | _ => rfl

/-! ## Calls that make something -/

/-- The call asks for something new: a fresh object, or what a constructor makes that is found in a
    slot, if it is not given what it gives back. -/
def Call.AsksForNew (s : State) : Call → Prop
  | .valueObjectCreate _ => True
  | .valueNew _ constructor argsAddr argCount =>
    ∃ f args, s.table.load constructor = .ok f ∧
      (Import.loadArgs argsAddr argCount s).1 = .ok args ∧
      (s.heap.IsBuiltin .buffer f ∨ s.heap.IsBuiltin .object f ∧ Standard.NoThing args)
  | .funcApply _ function receiverAddr argsAddr argCount =>
    ∃ f receiver args, s.table.load function = .ok f ∧
      (Bridge.loadRef receiverAddr s).1 = .ok receiver ∧
      (Import.loadArgs argsAddr argCount s).1 = .ok args ∧
      (s.heap.IsBuiltin .symbol f ∨ s.heap.IsBuiltin .object f ∧ Standard.NoThing args)
  | _ => False

namespace Call

variable {s s' : State} {c : Call} {out : UInt32} {v global runtime : Value} {answer : Answer}

theorem AsksForNew.log (hc : c.AsksForNew s) (log : Array Event) :
    c.AsksForNew { s with log } := by
  have hargs (argsAddr argCount : UInt32) : (Import.loadArgs argsAddr argCount { s with log }).1 =
      (Import.loadArgs argsAddr argCount s).1 := by
    obtain ⟨_, h⟩ := Import.ignoresLog_loadArgs argsAddr argCount s log
    rw [h]
  cases c with
  | valueObjectCreate => trivial
  | valueNew out constructor argsAddr argCount =>
    obtain ⟨f, args, hf, hargs', h⟩ := hc
    exact ⟨f, args, hf, (hargs _ _).trans hargs', h⟩
  | funcApply out function receiverAddr argsAddr argCount =>
    obtain ⟨f, receiver, args, hf, hreceiver, hargs', h⟩ := hc
    refine ⟨f, receiver, args, hf, ?_, (hargs _ _).trans hargs', h⟩
    rwa [Bridge.loadRef_fst] at hreceiver ⊢
  | _ => cases hc

section Delivery

variable (htable : s.table.WellFormed)
  (hsingletons : ∀ x : Singleton, s.table.load x.slot = .ok (x.value global runtime))
  (hbound : s.memory.isBound = true)

include htable hsingletons hbound

/-- What the host makes is what is loaded from where it is delivered. -/
theorem makes_of_host {α : Type} {op : Heap → Outcome α} {g : α → Value}
    (hop : ∀ a h', op s.heap = (.ok a, h') → s.heap.Makes (g a) h')
    (hx : (host op >>= fun a => Bridge.storeRef out (g a)) s = (.ok (), s'))
    (hload : (Bridge.loadRef out s').1 = .ok v) : s.heap.Makes v s'.heap := by
  obtain ⟨bytes, hmem⟩ := Memory.eq_bound_of_isBound hbound
  rcases hhost : op s.heap with ⟨fault | a, h'⟩
  · have herror : host op s = (.error (.host fault), { s with heap := h' }) := by
      rw [host, hhost]
      rfl
    rw [bind_of_error herror] at hx
    cases hx
  · have hmakes := hop a h' hhost
    have hok : host op s = (.ok a, { s with heap := h' }) := by
      rw [host, hhost]
      rfl
    rw [bind_of_ok hok] at hx
    -- The reference was written, so that its address lies in memory.
    rcases Bridge.storeRef_cases out (g a) { s with heap := h' } with
      ⟨hunbound, _⟩ | ⟨_, hfault⟩ | ⟨bytes', _, _, _, hmem', hin, _⟩
    · rw [hmem] at hunbound
      cases hunbound
    · rw [hfault] at hx
      cases hx
    · rcases Bridge.storeRef_loads (s := { s with heap := h' }) (v := g a) htable hsingletons hmem'
        hin with ⟨t, hstored, hheap, _, hloaded⟩ | ⟨hfull, _⟩
      · rw [hstored] at hx
        cases hx
        rw [hloaded, Heap.received_of_not_has hmakes.isNew.fresh, Except.ok.injEq] at hload
        subst hload
        rwa [hheap]
      · rw [hfull] at hx
        cases hx

/-- What a call that asks for something new delivers was made by the host. -/
theorem makes_of_perform (hc : c.AsksForNew s) (hout : c.out? = some out)
    (hp : c.perform .standard s = (.ok answer, s'))
    (hload : (Bridge.loadRef out s').1 = .ok v) : s.heap.Makes v s'.heap := by
  have hdone {x : Action Unit}
      (h : (x >>= fun _ => pure Answer.nothing) s = (.ok answer, s')) : x s = (.ok (), s') := by
    rw [bind_apply] at h
    rcases hxs : x s with ⟨fault | _, t⟩ <;> rw [hxs] at h <;> cases h
    rfl
  cases c with
  | valueObjectCreate =>
    cases hout
    refine makes_of_host htable hsingletons hbound (g := .object) ?_ (hdone hp) hload
    rintro _ _ ⟨⟩
    exact .object
  | valueNew _ constructor argsAddr argCount =>
    cases hout
    obtain ⟨f, args, hf, hargs, hmakes⟩ := hc
    have htakes : Import.TakesArgs argsAddr argCount s
        (Import.valueNew .standard out constructor argsAddr argCount) _ :=
      Import.takesArgs_valueNew hf
    obtain ⟨log, hx⟩ := htakes.ok args hargs
    refine makes_of_host (s := { s with log }) (g := id) htable hsingletons hbound ?_
      (hx.symm.trans (hdone hp)) hload
    intro v h' hconstruct
    rcases hmakes with hf | ⟨hf, hargs⟩
    · exact .constructBuffer hf hconstruct
    · exact .constructObject hf hargs hconstruct
  | funcApply _ function receiverAddr argsAddr argCount =>
    cases hout
    obtain ⟨f, receiver, args, hf, hreceiver, hargs, hmakes⟩ := hc
    have htakes : Import.TakesArgs argsAddr argCount s
        (Import.funcApply .standard out function receiverAddr argsAddr argCount) _ :=
      Import.takesArgs_funcApply hf hreceiver
    obtain ⟨log, hx⟩ := htakes.ok args hargs
    refine makes_of_host (s := { s with log }) (g := id) htable hsingletons hbound ?_
      (hx.symm.trans (hdone hp)) hload
    intro v h' hcall
    rcases hmakes with hf | ⟨hf, hargs⟩
    · exact .callSymbol hf hcall
    · exact .callObject hf hargs hcall
  | _ => cases hc

end Delivery

end Call

/-! ## Instances -/

namespace Instance

/-- The operation makes the value: the host does, or a call that asks for something new, by the
    host or by the guest, succeeds, and the value is what is then loaded from the address to which
    it delivers. -/
inductive Makes (i : Instance) : Operation → Value → Prop
  | host {v : Value} {h : Heap} : i.heap.Makes v h → Makes i (.host h) v
  | call {c : Call} {out : UInt32} {v : Value} {answer : Answer} : i.bound = true →
      c.AsksForNew i.state → c.out? = some out →
      (i.perform (c.perform .standard)).1 = .ok answer →
      ((i.next (.call .standard c)).perform (Bridge.loadRef out)).1 = .ok v →
      Makes i (.call .standard c) v
  | invoke {c : Call} {out : UInt32} {v : Value} {answer : Answer} : i.bound = true →
      c.AsksForNew i.state → c.out? = some out → (i.invoke .standard c).1 = .ok answer →
      ((i.next (.invoke .standard c)).perform (Bridge.loadRef out)).1 = .ok v →
      Makes i (.invoke .standard c) v

/-- The operation goes on lawfully to a value that was not there, that differs from all that was
    there and from all that is not there yet, and with which nothing else was changed. -/
structure MakesNew (i : Instance) (op : Operation) (v : Value) : Prop where
  lawful : op.Lawful i
  has : (i.next op).heap.Has v
  before : ∀ w, i.heap.Has w → v.Differs w
  later : ∀ w, ¬(i.next op).heap.Has w → v.Differs w
  keeps : i.heap.Keeps (i.next op).heap

/-- The operations are lawful, and make the values in order, and others perhaps. -/
inductive MakesAll : Instance → List Operation → List Value → Prop
  | nil (i : Instance) : MakesAll i [] []
  | pass {i : Instance} {op : Operation} {ops : List Operation} {vs : List Value} :
      op.Lawful i → MakesAll (i.next op) ops vs → MakesAll i (op :: ops) vs
  | make {i : Instance} {op : Operation} {ops : List Operation} {v : Value} {vs : List Value} :
      i.Makes op v → MakesAll (i.next op) ops vs → MakesAll i (op :: ops) (v :: vs)

variable {i : Instance} {op : Operation} {ops : List Operation} {realm : Realm} {v : Value}
  {vs : List Value} {c : Call} {out : UInt32} {answer : Answer}

/-- An action that is performed on a bound memory leaves the state that it comes to. -/
theorem state_perform_call (e : Engine) (c : Call) (i : Instance) :
    (i.perform (c.perform e)).2.state = (c.perform e i.state).2 := by
  have hmemory : i.memory.isBound = i.bound := by
    rw [memory]
    cases i.bound <;> rfl
  exact state_resume ((Call.effect_perform e c i.state).agreesBut.isBound.trans hmemory)

theorem makes_of_call (hi : i.Sound realm) (hbound : i.bound = true)
    (hc : c.AsksForNew i.state) (hout : c.out? = some out)
    (hp : (i.perform (c.perform .standard)).1 = .ok answer)
    (hload : ((i.perform (c.perform .standard)).2.perform (Bridge.loadRef out)).1 = .ok v) :
    i.heap.Makes v (i.perform (c.perform .standard)).2.heap := by
  obtain ⟨runtime, hsingletons⟩ := hi.singletons
  have hmemory : i.state.memory.isBound = true := by rw [memory_of_bound hbound]; rfl
  rw [perform_eq, state_perform_call] at hload
  exact Call.makes_of_perform hi.wellFormed hsingletons hmemory hc hout (Prod.ext hp rfl) hload

/-- What is made by an operation is made by the host. -/
theorem Makes.heap (hi : i.Sound realm) (hmakes : i.Makes op v) :
    i.heap.Makes v (i.next op).heap := by
  cases hmakes with
  | host h => exact h
  | call hbound hc hout hp hload => exact makes_of_call hi hbound hc hout hp hload
  | @invoke c out _ answer hbound hc hout hp hload =>
    obtain ⟨log, hinvoke⟩ := exists_invoke_eq .standard i c
    have hlogged : ({ i with log } : Instance).Sound realm :=
      ⟨hi.made.log log, hi.hasRealm, hi.wellFormed, hi.singletons⟩
    rw [next, hinvoke] at hload ⊢
    rw [hinvoke] at hp
    -- A call by the guest is the action after a line in the log, and a trap if that fails.
    rcases hperform : ({ i with log } : Instance).perform (c.perform .standard) with
      ⟨fault | answer', j⟩
    · rw [hperform] at hp
      cases hp
    · have hload' : ((({ i with log } : Instance).perform (c.perform .standard)).2.perform
          (Bridge.loadRef out)).1 = .ok v := by
        rwa [hperform] at hload ⊢
      have hmakes := makes_of_call hlogged hbound (hc.log log) hout
        (Prod.ext_iff.1 hperform).1 hload'
      rw [hperform] at hmakes
      exact hmakes

theorem Makes.lawful (hmakes : i.Makes op v) : op.Lawful i := by
  cases hmakes with
  | host h => exact h.evolves
  | call => exact Engine.lawful_standard
  | invoke => exact Engine.lawful_standard

theorem Makes.makesNew (hi : i.Sound realm) (hmakes : i.Makes op v) : i.MakesNew op v := by
  have hnew := (hmakes.heap hi).isNew
  exact ⟨hmakes.lawful, hnew.has, fun w hw => hw.differs hnew.fresh,
    fun w hw => (hnew.has.differs hw).symm, hnew.keeps⟩

/-- What there is stays when an instance goes on. -/
theorem Arises.has_next (hi : i.Arises realm) (hop : op.Lawful i) {w : Value}
    (hw : i.heap.Has w) : (i.next op).heap.Has w :=
  (goes_next hi.sound.made hop).evolves.has hw

/-- What was there before a run, or was made in it, is there at its end. -/
theorem MakesAll.has (hi : i.Arises realm) (hall : i.MakesAll ops vs) :
    ∀ w, i.heap.Has w ∨ w ∈ vs → (i.run ops).heap.Has w := by
  induction hall with
  | nil i =>
    rintro w (hw | hw)
    · exact hw
    · cases hw
  | pass hop _ ih =>
    intro w hw
    exact ih (hi.next hop) w (hw.imp_left (hi.has_next hop))
  | make hmakes _ ih =>
    have hop := hmakes.lawful
    intro w hw
    refine ih (hi.next hop) w ?_
    rcases hw with hw | hw
    · exact .inl (hi.has_next hop hw)
    · rcases List.mem_cons.1 hw with rfl | hw
      · exact .inl (hmakes.makesNew hi.sound).has
      · exact .inr hw

/-- The values that are made in a run differ from all that there was before it. -/
theorem MakesAll.before (hi : i.Arises realm) (hall : i.MakesAll ops vs) :
    ∀ v ∈ vs, ∀ w, i.heap.Has w → v.Differs w := by
  induction hall with
  | nil => exact nofun
  | pass hop _ ih =>
    intro v hv w hw
    exact ih (hi.next hop) v hv w (hi.has_next hop hw)
  | make hmakes _ ih =>
    have hop := hmakes.lawful
    intro v hv w hw
    rcases List.mem_cons.1 hv with rfl | hv
    · exact (hmakes.makesNew hi.sound).before w hw
    · -- What is made later was not there even then.
      exact ih (hi.next hop) v hv w (hi.has_next hop hw)

/-- The values that are made in a run differ from one another. -/
theorem MakesAll.differ (hi : i.Arises realm) (hall : i.MakesAll ops vs) :
    vs.Pairwise Value.Differs := by
  induction hall with
  | nil => exact .nil
  | pass hop _ ih => exact ih (hi.next hop)
  | make hmakes hrest ih =>
    have hi' := hi.next hmakes.lawful
    -- What is made later finds the first value there.
    refine .cons (fun w hw => ?_) (ih hi')
    exact (hrest.before hi' w hw _ (hmakes.makesNew hi.sound).has).symm

/-- A guest is given a fresh object, unless no slot is left for it. -/
theorem makes_valueObjectCreate (hi : i.Sound realm) (hbound : i.bound = true)
    (hin : out.toNat + Memory.refSize ≤ i.bytes.size) :
    let c := Call.valueObjectCreate out
    (∃ v, i.Makes (.call .standard c) v) ∨
      (i.perform (c.perform .standard)).1 = .error .tableFull ∧
        ∀ id, i.table.isLive id = true := by
  intro c
  obtain ⟨runtime, hsingletons⟩ := hi.singletons
  have hcreate : c.perform .standard i.state =
      (Bridge.storeRef out (.object i.heap.newObject.1) >>= fun _ => pure Answer.nothing)
        { i.state with heap := i.heap.newObject.2 } := by
    rfl
  have hstate := state_perform_call .standard c i
  rcases Bridge.storeRef_loads (s := { i.state with heap := i.heap.newObject.2 })
    (v := .object i.heap.newObject.1) hi.wellFormed hsingletons (memory_of_bound hbound) hin with
    ⟨s', hstored, _, _, hload⟩ | ⟨hfull, hlive⟩
  · rw [bind_of_ok hstored] at hcreate
    have hp : (i.perform ((Call.valueObjectCreate out).perform .standard)).1 = .ok .nothing := by
      rw [perform_eq, hcreate]
      rfl
    refine .inl ⟨.object i.heap.newObject.1, .call hbound trivial rfl hp ?_⟩
    rw [hcreate] at hstate
    rw [next, perform_eq, hstate]
    exact hload
  · rw [bind_of_error hfull] at hcreate
    refine .inr ⟨?_, hlive⟩
    rw [perform_eq, hcreate]

/-- An instance keeps what it makes apart. What an operation makes is new, and differs from all that
    the slots and the properties lead to. The values that are made in a run differ from one another
    and from all that was there before, even if slots are used again. A guest can always make an
    object, but for want of slots. The objects of a JSON value differ from one another as well. The
    constructor of objects gives fresh ones, and gives objects and functions back as they are; a
    symbol can be made with any description. The constructors are found in their realm. -/
structure KeepsApart (i : Instance) : Prop where
  makesNew : ∀ op v, i.Makes op v → i.MakesNew op v
  has_load : ∀ id w, i.table.load id = .ok w → i.heap.Has w
  has_get : ∀ target key w, i.heap.get target key = .ok w → i.heap.Has w
  differ : ∀ ops vs, i.MakesAll ops vs → vs.Pairwise Value.Differs
  has_run : ∀ ops vs, i.MakesAll ops vs → ∀ v ∈ vs, (i.run ops).heap.Has v
  before : ∀ ops vs, i.MakesAll ops vs → ∀ v ∈ vs, ∀ w, i.heap.Has w → v.Differs w
  asked : ∀ out, i.bound = true → out.toNat + Memory.refSize ≤ i.bytes.size →
    let c := Call.valueObjectCreate out
    (∃ v, i.Makes (.call .standard c) v) ∨
      (i.perform (c.perform .standard)).1 = .error .tableFull ∧ ∀ id, i.table.isLive id = true
  json : ∀ j, (Heap.ofJson j i.heap).2.IsTree (Heap.ofJson j i.heap).1
  objects : ∀ f, i.heap.IsBuiltin .object f → i.heap.GivesObjects f
  symbols : ∀ f receiver args, i.heap.IsBuiltin .symbol f →
    (∀ id, args.head? ≠ some (.symbol id)) →
      ∃ v h, Engine.standard.call f receiver args i.heap = (.ok v, h)
  constructors : ∀ h₀, (Realm.create h₀).2.Evolves Heap.Anywhere i.heap →
    let find := (Realm.create h₀).1.lookup (Realm.create h₀).2
    i.heap.IsBuiltin .object (find "Object") ∧ i.heap.IsBuiltin .buffer (find "Uint8Array") ∧
      i.heap.IsBuiltin .symbol (find "Symbol")

/-- An instance that arises keeps what it makes apart. -/
theorem identities (hi : i.Arises realm) : i.KeepsApart where
  makesNew _ _ hmakes := hmakes.makesNew hi.sound
  has_load _ _ := hi.sound.made.has
  has_get _ _ _ := hi.sound.made.closed.has_get
  differ _ _ hall := hall.differ hi
  has_run _ _ hall v hv := hall.has hi v (.inr hv)
  before _ _ hall := hall.before hi
  asked _ := makes_valueObjectCreate hi.sound
  json := Heap.isTree_ofJson i.heap
  objects _ := Heap.givesObjects
  symbols _ receiver _ hf hargs := Heap.exists_call_symbol hf receiver hargs
  constructors h₀ hlater := by
    have hfound {b : Builtin} (hb : b ∈ Realm.builtins) :=
      (Realm.isBuiltin_lookup_create h₀ hb).evolves hlater
    exact ⟨hfound Realm.object_mem_builtins, hfound Realm.buffer_mem_builtins,
      hfound Realm.symbol_mem_builtins⟩

/-- The guest asks for an object. -/
def ask : Operation := .call .standard (.valueObjectCreate 8)

/-- The guest releases the first slot that it was given. -/
def giveBack : Operation := .call .standard (.valueDeinit 7)

/-- The guest makes an object, releases it and makes another one, which takes the same slot. -/
theorem identities_slot_reused :
    keyed.Arises firstRealm.1 ∧ (keyed.run [ask]).table.isLive 7 = true ∧
      (keyed.run [ask, giveBack]).table.isLive 7 = false ∧
      (keyed.run [ask, giveBack, ask]).table.isLive 7 = true ∧
      ∃ v w, keyed.MakesAll [ask, giveBack, ask] [v, w] ∧ v.Differs w := by
  have hask : ask.Lawful keyed := Engine.lawful_standard
  have hgiveBack : giveBack.Lawful (keyed.next ask) := Engine.lawful_standard
  have hagain : (keyed.run [ask, giveBack]).Arises firstRealm.1 :=
    (arises_keyed.next hask).next hgiveBack
  -- There are slots left, so that the guest is given its objects.
  obtain ⟨v, hv⟩ : ∃ v, keyed.Makes ask v :=
    ((identities arises_keyed).asked 8 rfl (by decide)).resolve_right fun h =>
      Bool.false_ne_true (h.2 100)
  obtain ⟨w, hw⟩ : ∃ w, (keyed.run [ask, giveBack]).Makes ask w :=
    ((identities hagain).asked 8 rfl (by decide)).resolve_right fun h =>
      Bool.false_ne_true (h.2 100)
  have hall : keyed.MakesAll [ask, giveBack, ask] [v, w] :=
    .make hv (.pass hgiveBack (.make hw (.nil _)))
  have hpairwise := (identities arises_keyed).differ _ _ hall
  exact ⟨arises_keyed, rfl, rfl, rfl, v, w, hall, List.rel_of_pairwise_cons hpairwise (.head _)⟩

end Instance

end ValueBridge
