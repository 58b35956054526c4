import ValueBridge.Proofs.Bridge.Claims
import ValueBridge.Proofs.Bridge.RoundTrip
import ValueBridge.Proofs.Engine.Lawful

/-!
# Actions that hold on to what was made

A state is *sound* if all that its table and its heap hold was made (`State.Sound`). From a
sound state a *safe* action comes to a sound state again, by changes of the heap with writes
to given properties alone (`Action.Safe`). An action that only reads is safe
(`Safe.of_reads`), and so is one safe action after the other (`Safe.bind`).
-/

namespace ValueBridge

/-- All that the table and the heap hold was made. -/
structure State.Sound (s : State) : Prop where
  closed : s.heap.Closed
  has : ∀ {id v}, s.table.load id = .ok v → s.heap.Has v

variable {α β : Type} {W : Value → String → Prop} {s : State}

theorem State.Sound.log (hs : s.Sound) (log : Array Event) : { s with log }.Sound :=
  ⟨hs.closed, hs.has⟩

/-- The heap evolves while the table stays. -/
theorem State.Sound.heap (hs : s.Sound) {heap : Heap} (he : s.heap.Evolves W heap) :
    { s with heap }.Sound :=
  ⟨he.closed hs.closed, fun hload => he.has (hs.has hload)⟩

/-- An operation on the table that stores nothing but what was made. -/
theorem State.Sound.table (hs : s.Sound) {op : Table.Op}
    (hop : ∀ v, op = .store v → s.heap.Has v) : { s with table := s.table.apply op }.Sound where
  closed := hs.closed
  has hload := by
    rcases (s.table.step op).load_or_stored hload with hload | hstore
    · exact hs.has hload
    · exact hop _ hstore

theorem State.Sound.table_store (hs : s.Sound) {v : Value} (hv : s.heap.Has v) :
    { s with table := s.table.apply (.store v) }.Sound := by
  refine hs.table ?_
  rintro _ ⟨⟩
  exact hv

namespace Action

/-- From the state, the action comes to a sound state, by changes of the heap with writes in
    `W` alone, and its result is one of `P`. -/
structure Safe (W : Value → String → Prop) (P : α → Heap → Prop) (x : Action α) (s : State) :
    Prop where
  evolves : s.heap.Evolves W (x s).2.heap
  sound : (x s).2.Sound
  result : ∀ a, (x s).1 = .ok a → P a (x s).2.heap

namespace Safe

variable {P : α → Heap → Prop} {Q : β → Heap → Prop} {x : Action α} {f : α → Action β}

theorem of_reads (hx : x.Reads) (hs : s.Sound) (hP : ∀ a, (x s).1 = .ok a → P a s.heap) :
    x.Safe W P s := by
  obtain ⟨log, hlog⟩ := hx s
  refine ⟨?_, ?_, ?_⟩ <;> rw [hlog]
  · exact .refl W s.heap
  · exact hs.log log
  · exact hP

/-- An action without a part in the heap. -/
theorem of_heap_eq (hheap : (x s).2.heap = s.heap) (hsound : (x s).2.Sound) :
    x.Safe W (fun _ _ => True) s :=
  ⟨hheap ▸ .refl W _, hsound, fun _ _ => trivial⟩

/-- The second action is safe from every sound state that the first one can leave. -/
theorem bind (hx : x.Safe W P s)
    (hf : ∀ a t, x s = (.ok a, t) → t.Sound → P a t.heap → (f a).Safe W Q t) :
    (x >>= f).Safe W Q s := by
  obtain ⟨hevolves, hsound, hresult⟩ := hx
  rcases hxs : x s with ⟨fault | a, t⟩ <;> rw [hxs] at hevolves hsound hresult
  · refine ⟨?_, ?_, ?_⟩ <;> rw [bind_of_error hxs]
    · exact hevolves
    · exact hsound
    · exact nofun
  · have hf := hf a t hxs hsound (hresult a rfl)
    refine ⟨?_, ?_, ?_⟩ <;> rw [bind_of_ok hxs]
    · exact hevolves.trans hf.evolves
    · exact hf.sound
    · exact hf.result

/-- An action that reads comes to the state itself, but for the log. -/
theorem bind_reads (hx : x.Reads) (hs : s.Sound)
    (hf : ∀ a log, (x s).1 = .ok a → (f a).Safe W Q { s with log }) :
    (x >>= f).Safe W Q s := by
  refine bind (P := fun _ _ => True) (.of_reads hx hs fun _ _ => trivial) fun a t ht _ _ => ?_
  obtain ⟨log, hlog⟩ := hx s
  rw [ht] at hlog
  obtain rfl : t = { s with log } := hlog
  exact hf a log (congrArg Prod.fst ht)

theorem congr {y : Action α} (h : x s = y s) (hy : y.Safe W P s) : x.Safe W P s := by
  refine ⟨?_, ?_, ?_⟩ <;> rw [h]
  · exact hy.evolves
  · exact hy.sound
  · exact hy.result

theorem bind_get {f : State → Action β} (hf : (f s).Safe W Q s) :
    ((get : Action State) >>= f).Safe W Q s :=
  congr (get_bind f s) hf

theorem bind_lift {result : Except BridgeFault α} (hs : s.Sound)
    (hf : ∀ a, result = .ok a → (f a).Safe W Q s) : (lift result >>= f).Safe W Q s := by
  cases result with
  | error fault => exact bind_reads (.lift _) hs nofun
  | ok a => exact congr (lift_bind_of_ok rfl s) (hf a rfl)

/-- What is made of the result does not matter to the state. -/
theorem bind_pure (hx : x.Safe W P s) (g : α → β) :
    (x >>= fun a => pure (g a)).Safe W (fun _ _ => True) s :=
  hx.bind fun _ _ _ ht _ => .of_reads (.pure _) ht fun _ _ => trivial

end Safe

theorem of_mapError_ok {result : Except Fault α} {a : α}
    (h : result.mapError BridgeFault.host = .ok a) : result = .ok a := by
  cases result with
  | error fault => cases h
  | ok b =>
    cases h
    rfl

/-- What the host does is safe if the heap comes to it by changes. -/
theorem safe_host {op : Heap → Outcome Value} (hs : s.Sound) (hop : s.heap.ComesTo (op s.heap)) :
    (host op).Safe Heap.Anywhere (fun v h => h.Has v) s where
  evolves := hop.evolves
  sound := hs.heap hop.evolves
  result v hv := hop.has v (of_mapError_ok hv)

end Action

namespace Bridge

open ValueBridge.Action

/-! ## Loading -/

theorem has_standsFor (hs : s.Sound) {ref : Ref} {v : Value}
    (h : s.table.standsFor ref = .ok v) : s.heap.Has v := by
  rw [Table.standsFor] at h
  split at h
  · cases h
    trivial
  · exact hs.has h
  · cases h
    trivial

/-- What is loaded was made. -/
theorem has_loadRef (hs : s.Sound) {addr : UInt32} {v : Value}
    (h : (loadRef addr s).1 = .ok v) : s.heap.Has v := by
  rw [loadRef_fst] at h
  rcases hread : s.memory.readRef? addr with fault | _ | ref <;> rw [hread] at h
  · cases h
  · cases h
    trivial
  · exact has_standsFor hs h

/-! ## Storing -/

/-- A value that was made is stored, or nothing happens. -/
theorem safe_storeRef (hs : s.Sound) {v : Value} (hv : s.heap.Has v) (addr : UInt32) :
    (storeRef addr v).Safe W (fun _ _ => True) s := by
  have hstored := hs.table_store hv
  rcases storeRef_cases addr v s with ⟨_, h⟩ | ⟨_, h⟩ | ⟨_, ref, table, log, _, _, hstore, h⟩ <;>
    refine .of_heap_eq (by rw [h]) ?_ <;> rw [h]
  · exact hs
  · exact hs
  · rw [Table.apply_store hstore] at hstored
    exact ⟨hstored.closed, hstored.has⟩

theorem safe_storeValue (hs : s.Sound) {v : Value} (hv : s.heap.Has v) :
    (storeValue v).Safe W (fun _ _ => True) s := by
  cases hstore : s.table.store v with
  | error fault =>
    have h := storeValue_of_error hstore
    exact .of_heap_eq (by rw [h]) (by rwa [h])
  | ok stored =>
    obtain ⟨log, h⟩ := storeValue_of_ok hstore
    have hstored := (hs.table_store hv).log log
    rw [Table.apply_store hstore] at hstored
    exact .of_heap_eq (by rw [h]) (by rwa [h])

/-! ## Claims -/

theorem safe_retainValue (hs : s.Sound) (id : UInt32) :
    (retainValue id).Safe W (fun _ _ => True) s := by
  cases hretain : s.table.retain id with
  | error fault =>
    have h := retainValue_of_error hretain
    exact .of_heap_eq (by rw [h]) (by rwa [h])
  | ok retained =>
    have h := retainValue_of_ok hretain
    have hretained : { s with table := s.table.apply (.retain id) }.Sound := hs.table nofun
    rw [Table.apply, Table.perform, hretain] at hretained
    exact .of_heap_eq (by rw [h]) (by rwa [h])

theorem safe_releaseValue (hs : s.Sound) (id : UInt32) :
    (releaseValue id).Safe W (fun _ _ => True) s := by
  obtain ⟨log, h⟩ := releaseValue_apply id s
  have hreleased : { s with table := s.table.apply (.release id) }.Sound := hs.table nofun
  exact .of_heap_eq (by rw [h]) (by rw [h]; exact hreleased.log log)

theorem safe_deleteValue (hs : s.Sound) (id : UInt32) :
    (deleteValue id).Safe W (fun _ _ => True) s :=
  .bind_reads (reads_loadValue id) hs fun _ _ _ => (safe_releaseValue (hs.log _) id).bind_pure _

end Bridge

end ValueBridge
