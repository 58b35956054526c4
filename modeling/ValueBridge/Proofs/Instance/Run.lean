import ValueBridge.Linking
import ValueBridge.Proofs.Import.Atomicity
import ValueBridge.Proofs.Table.Lifetime

/-!
# Runs of instances

An instance goes from one state to the next by *operations* (`Operation`): what the host or
the guest asks of the bridge, the binding of the memory, and what the guest does to its
memory, or the host to its heap, on their own.

* `Operation.Does`, `Operation.Touches`: the operations on the table, and the positions of
  the bytes in memory, to which an operation is confined (`Instance.confined_next`). It does
  one operation on the table at most;
* `Instance.Reachable`: the instances that come of a fresh bridge. Their tables are those
  that come of a fresh table (`Reachable.table`).
-/

namespace ValueBridge

/-- An operation on an instance. -/
inductive Operation where
  /-- A call of an import, by an engine. -/
  | call (e : Engine) (c : Call)
  /-- A call of an import by the guest. -/
  | invoke (e : Engine) (c : Call)
  | loadValue (id : UInt32)
  | storeValue (v : Value)
  | retainValue (id : UInt32)
  | deleteValue (id : UInt32)
  | readRef (addr : UInt32)
  | loadRef (addr : UInt32)
  | storeRef (addr : UInt32) (v : Value)
  /-- The memory bound, if it is exported by the right name. -/
  | bind (exported : String)
  | unbind
  /-- Whatever the guest does to its memory, which has these bytes afterwards. -/
  | guest (bytes : Array UInt8)
  /-- Whatever the host does to its heap. -/
  | host (heap : Heap)

namespace Operation

/-- The operation may come to the one on the table. -/
inductive Does : Operation → Table.Op → Prop
  | call {e : Engine} {c : Call} {out : UInt32} (v : Value) : c.out? = some out →
      Does (.call e c) (.store v)
  | invoke {e : Engine} {c : Call} {out : UInt32} (v : Value) : c.out? = some out →
      Does (.invoke e c) (.store v)
  | callDeinit (e : Engine) (id : UInt32) : Does (.call e (.valueDeinit id)) (.release id)
  | invokeDeinit (e : Engine) (id : UInt32) : Does (.invoke e (.valueDeinit id)) (.release id)
  | storeValue (v : Value) : Does (.storeValue v) (.store v)
  | retainValue (id : UInt32) : Does (.retainValue id) (.retain id)
  | deleteValue (id : UInt32) : Does (.deleteValue id) (.release id)
  | storeRef (addr : UInt32) (v : Value) : Does (.storeRef addr v) (.store v)

end Operation

namespace Instance

/-- What the bridge finds. -/
def state (i : Instance) : State :=
  ⟨i.heap, i.table, i.memory, i.log⟩

theorem perform_eq {α : Type} (i : Instance) (x : Action α) :
    i.perform x = ((x i.state).1, i.resume (x i.state).2) := rfl

/-- The instance after an operation. -/
def next (i : Instance) : Operation → Instance
  | .call e c => (i.perform (c.perform e)).2
  | .invoke e c => (i.invoke e c).2
  | .loadValue id => (i.perform (Bridge.loadValue id)).2
  | .storeValue v => (i.perform (Bridge.storeValue v)).2
  | .retainValue id => (i.perform (Bridge.retainValue id)).2
  | .deleteValue id => (i.perform (Bridge.deleteValue id)).2
  | .readRef addr => (i.perform (Bridge.readRef? addr)).2
  | .loadRef addr => (i.perform (Bridge.loadRef addr)).2
  | .storeRef addr v => (i.perform (Bridge.storeRef addr v)).2
  | .bind exported =>
    match i.bind exported with
    | .ok i => i
    | .error _ => i
  | .unbind => i.unbind
  | .guest bytes => { i with bytes }
  | .host heap => { i with heap }

/-- The instance after operations in order. -/
def run (i : Instance) (ops : List Operation) : Instance :=
  ops.foldl next i

/-- What holds of every operation of a run, on the instance that it finds. -/
def Throughout (P : Instance → Operation → Prop) (i : Instance) (ops : List Operation) : Prop :=
  ValueBridge.Throughout next P i ops

/-- The instance of a fresh bridge, with memory that is not bound yet. -/
def create (config : Config) (realm : Realm) (h : Heap) (bytes : Array UInt8) : Instance :=
  let (b, h) := Bridge.create config realm h
  ⟨h, b.initialTable, bytes, false, #[]⟩

/-- The instance comes of a fresh bridge by operations. -/
inductive Reachable : Instance → Prop
  | create (config : Config) (realm : Realm) (h : Heap) (bytes : Array UInt8) :
      Reachable (create config realm h bytes)
  | next {i : Instance} (op : Operation) : Reachable i → Reachable (i.next op)

end Instance

/-- The position is that of a byte to which the operation may write. -/
def Operation.Touches (i : Instance) : Operation → Nat → Prop
  | .call _ c, k | .invoke _ c, k => c.Touches i.state k
  | .storeRef addr _, k => addr.toNat ≤ k ∧ k < addr.toNat + Memory.refSize
  | .guest bytes, k => bytes[k]? ≠ i.bytes[k]?
  | _, _ => False

/-! ## What operations are confined to -/

namespace Instance

/-- Between the instances there is one operation on the table at most, of those in `D`, and
    the bytes differ at the positions in `W` at most. -/
structure Confined (D : Table.Op → Prop) (W : Nat → Prop) (i i' : Instance) : Prop where
  table : i'.table = i.table ∨ ∃ op, D op ∧ i'.table = i.table.apply op
  bytes : ∀ k, ¬W k → i'.bytes[k]? = i.bytes[k]?

variable {D : Table.Op → Prop} {W : Nat → Prop} {i i' : Instance}

theorem Confined.refl (D : Table.Op → Prop) (W : Nat → Prop) (i : Instance) : Confined D W i i :=
  ⟨.inl rfl, fun _ _ => rfl⟩

/-- What an action does to the memory that the bridge finds is all that happens to the bytes,
    and nothing happens to them while they are not bound. -/
theorem confined_resume {s : State}
    (htable : s.table = i.table ∨ ∃ op, D op ∧ s.table = i.table.apply op)
    (hmem : i.memory.AgreesBut W s.memory) : Confined D W i (i.resume s) where
  table := htable
  bytes k hk := by
    have hbyte := hmem.byte? k hk
    have hbound := hmem.isBound
    rw [resume]
    cases hs : s.memory with
    | unbound => rfl
    | bound bytes =>
      -- No action binds the memory, so these are the bytes of the instance.
      rw [memory, hs] at hbound hbyte
      cases hi : i.bound with
      | true =>
        rw [hi, if_pos rfl] at hbyte
        exact hbyte
      | false =>
        rw [hi] at hbound
        cases hbound

theorem confined_of_sameStore {s : State} (h : i.state.SameStore s) : Confined D W i (i.resume s) :=
  confined_resume (.inl h.table) (h.memory ▸ .refl W i.memory)

theorem confined_of_reads {α : Type} {x : Action α} (hx : x.Reads) :
    Confined D W i (i.perform x).2 :=
  confined_of_sameStore (State.frame_sameStore.of_sameButLog (hx i.state))

theorem confined_storeRef (addr : UInt32) (v : Value) (hD : D (.store v))
    (hW : ∀ k, addr.toNat ≤ k ∧ k < addr.toNat + Memory.refSize → W k) :
    Confined D W i (i.perform (Bridge.storeRef addr v)).2 := by
  have hd := Bridge.delivery_storeRef addr v i.state
  refine confined_resume ?_ (hd.agreesBut.mono hW)
  rcases hd.table with htable | htable
  · exact .inl htable
  · exact .inr ⟨_, hD, htable⟩

theorem confined_call (e : Engine) (c : Call)
    (hstore : ∀ out v, c.out? = some out → D (.store v))
    (hrelease : ∀ id, c = .valueDeinit id → D (.release id))
    (hW : ∀ k, c.Touches i.state k → W k) : Confined D W i (i.perform (c.perform e)).2 := by
  have heffect := Call.effect_perform e c i.state
  refine confined_resume ?_ (heffect.agreesBut.mono hW)
  rcases heffect.table with htable | ⟨out, v, hc, htable⟩ | ⟨id, hc, htable⟩
  · exact .inl htable
  · exact .inr ⟨_, hstore out v hc, htable⟩
  · exact .inr ⟨_, hrelease id hc, htable⟩

/-- A call by the guest is the same call by the host, after more was logged perhaps. -/
theorem exists_invoke_eq (e : Engine) (i : Instance) (c : Call) :
    ∃ log, i.invoke e c = match { i with log }.perform (c.perform e) with
      | (.ok answer, i') => (.ok (guestAnswer answer), i')
      | (.error fault, i') =>
        (.error fault, if needsMemory c then i'.report (.trapped fault) else i') := by
  obtain ⟨log, hlog⟩ : ∃ log,
      (if needsMemory c && !i.bound then i.report .calledUnbound else i) = { i with log } := by
    split
    · exact ⟨i.log.push .calledUnbound, rfl⟩
    · exact ⟨i.log, rfl⟩
  refine ⟨log, ?_⟩
  rw [← hlog]
  rfl

/-- A call by the guest differs from the same call by the host in what is logged. -/
theorem exists_invoke (e : Engine) (i : Instance) (c : Call) : ∃ log log',
    (i.invoke e c).2 = { ({ i with log }.perform (c.perform e)).2 with log := log' } := by
  obtain ⟨log, hinvoke⟩ := exists_invoke_eq e i c
  refine ⟨log, ?_⟩
  rw [hinvoke]
  obtain ⟨r, i', hperform⟩ : ∃ r i', { i with log }.perform (c.perform e) = (r, i') :=
    ⟨_, _, rfl⟩
  rw [hperform]
  cases r with
  | ok answer => exact ⟨i'.log, rfl⟩
  | error fault =>
    dsimp only
    split
    · exact ⟨i'.log.push (.trapped fault), rfl⟩
    · exact ⟨i'.log, rfl⟩

theorem confined_storeValue (v : Value) (hD : D (.store v)) :
    Confined D W i (i.perform (Bridge.storeValue v)).2 := by
  rw [perform_eq]
  cases hstore : i.table.store v with
  | error fault =>
    rw [Bridge.storeValue_of_error (s := i.state) hstore]
    exact confined_of_sameStore ⟨rfl, rfl⟩
  | ok stored =>
    obtain ⟨log, h⟩ := Bridge.storeValue_of_ok (s := i.state) hstore
    rw [h]
    exact confined_resume (.inr ⟨_, hD, (Table.apply_store hstore).symm⟩) (.refl W _)

theorem confined_retainValue (id : UInt32) (hD : D (.retain id)) :
    Confined D W i (i.perform (Bridge.retainValue id)).2 := by
  rw [perform_eq]
  cases hretain : i.table.retain id with
  | error fault =>
    rw [Bridge.retainValue_of_error (s := i.state) hretain]
    exact confined_of_sameStore ⟨rfl, rfl⟩
  | ok retained =>
    rw [Bridge.retainValue_of_ok (s := i.state) hretain]
    refine confined_resume (.inr ⟨_, hD, ?_⟩) (.refl W _)
    rw [Table.apply, Table.perform, hretain]

theorem confined_deleteValue (id : UInt32) (hD : D (.release id)) :
    Confined D W i (i.perform (Bridge.deleteValue id)).2 := by
  rw [perform_eq]
  cases hload : i.table.load id with
  | error fault =>
    rw [Bridge.deleteValue_of_error (s := i.state) hload]
    exact confined_of_sameStore ⟨rfl, rfl⟩
  | ok v =>
    obtain ⟨log, h⟩ := Bridge.deleteValue_of_ok (s := i.state) hload
    rw [h]
    exact confined_resume (.inr ⟨_, hD, rfl⟩) (.refl W _)

/-- An operation is confined to what it may do. -/
theorem confined_next (i : Instance) (op : Operation) :
    Confined op.Does (op.Touches i) i (i.next op) := by
  cases op with
  | call e c =>
    exact confined_call e c (fun _ v hc => .call v hc) (fun id hc => hc ▸ .callDeinit e id)
      fun _ hk => hk
  | invoke e c =>
    obtain ⟨log, log', h⟩ := exists_invoke e i c
    have hc : Confined (Operation.invoke e c).Does ((Operation.invoke e c).Touches i) { i with log }
        ({ i with log }.perform (c.perform e)).2 :=
      confined_call e c (fun _ v hc => .invoke v hc) (fun id hc => hc ▸ .invokeDeinit e id)
        fun _ hk => hk
    rw [next, h]
    exact ⟨hc.table, hc.bytes⟩
  | loadValue id => exact confined_of_reads (Bridge.reads_loadValue id)
  | storeValue v => exact confined_storeValue v (.storeValue v)
  | retainValue id => exact confined_retainValue id (.retainValue id)
  | deleteValue id => exact confined_deleteValue id (.deleteValue id)
  | readRef addr => exact confined_of_reads (Bridge.reads_readRef? addr)
  | loadRef addr => exact confined_of_reads (Bridge.reads_loadRef addr)
  | storeRef addr v => exact confined_storeRef addr v (.storeRef addr v) fun _ hk => hk
  | bind exported =>
    rw [next, bind]
    by_cases hname : exported = memoryExport
    · rw [if_pos hname]
      exact ⟨.inl rfl, fun _ _ => rfl⟩
    · rw [if_neg hname]
      exact .refl _ _ i
  | unbind => exact ⟨.inl rfl, fun _ _ => rfl⟩
  | guest bytes => exact ⟨.inl rfl, fun _ hk => not_not.1 hk⟩
  | host heap => exact ⟨.inl rfl, fun _ _ => rfl⟩

/-- The table of a reachable instance comes of a fresh table by operations. -/
theorem Reachable.table (h : i.Reachable) :
    ∃ global runtime ops, i.table = (Table.create global runtime).run ops := by
  induction h with
  | create config realm h bytes => exact ⟨_, _, [], rfl⟩
  | @next i op _ ih =>
    obtain ⟨global, runtime, ops, ih⟩ := ih
    -- One operation more on the instance is one more on the table, or none.
    rcases (i.confined_next op).table with htable | ⟨top, _, htable⟩
    · exact ⟨global, runtime, ops, htable.trans ih⟩
    · refine ⟨global, runtime, ops ++ [top], ?_⟩
      rw [htable, ih, Table.run_append]
      rfl

theorem Reachable.wellFormed (h : i.Reachable) : i.table.WellFormed := by
  obtain ⟨global, runtime, ops, htable⟩ := h.table
  rw [htable]
  exact .run_create global runtime ops

/-- The singletons of a reachable instance are in their slots. -/
theorem Reachable.singletons (h : i.Reachable) : ∃ global runtime,
    ∀ s : Singleton, i.table.load s.slot = .ok (s.value global runtime) := by
  obtain ⟨global, runtime, ops, htable⟩ := h.table
  refine ⟨global, runtime, fun s => ?_⟩
  rw [htable]
  exact Table.load_singleton_run (.create global runtime) s
    (Table.load_singleton_create global runtime s) ops

/-- Operations keep a table well-formed. -/
theorem wellFormed_next (h : i.table.WellFormed) (op : Operation) :
    (i.next op).table.WellFormed := by
  rcases (i.confined_next op).table with htable | ⟨top, _, htable⟩ <;> rw [htable]
  · exact h
  · exact h.apply top

end Instance

end ValueBridge
