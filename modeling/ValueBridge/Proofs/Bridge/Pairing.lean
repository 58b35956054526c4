import ValueBridge.Proofs.Bridge.Frame
import ValueBridge.Proofs.Table.Pairing

/-!
# Bridges in step

Two states are *in step* by a pairing if their heaps are paired, their tables match, and they
have the same memory and the same log (`Pairing.PairsState`). An action taken in both comes to
the same, and to states in step again (`Pairing.InStep`), if each of its parts does
(`InStep.bind`).
-/

namespace ValueBridge

namespace Pairing

open ValueBridge.Action

/-- The states are the same but for the identities. -/
structure PairsState (p : Pairing) (s s' : State) : Prop where
  heap : p.Pairs s.heap s'.heap
  table : p.MatchesTable s.table s'.table
  memory : s'.memory = s.memory
  log : s'.log = s.log

variable {α β α' β' : Type} {p : Pairing} {s s' : State}

theorem PairsState.withTable (hs : p.PairsState s s') {table table' : Table}
    (ht : p.MatchesTable table table') :
    p.PairsState { s with table } { s' with table := table' } :=
  ⟨hs.heap, ht, hs.memory, hs.log⟩

theorem PairsState.withMemory (hs : p.PairsState s s') (memory : Memory) :
    p.PairsState { s with memory } { s' with memory } :=
  ⟨hs.heap, hs.table, rfl, hs.log⟩

/-- The actions come to related results, or to the same fault, and to states in step. -/
def InStep (p : Pairing) (Q : Pairing → α → β → Prop) (x : Action α) (y : Action β)
    (s s' : State) : Prop :=
  ∃ p', p.Advances p' s.heap s'.heap (x s).2.heap (y s').2.heap ∧
    p'.PairsState (x s).2 (y s').2 ∧ Alike (Q p') (x s).1 (y s').1

namespace InStep

variable {Q : Pairing → α → β → Prop} {Q' : Pairing → α' → β' → Prop} {x : Action α}
  {y : Action β} {f : α → Action α'} {g : β → Action β'}

theorem pure (hs : p.PairsState s s') {a : α} {b : β} (hab : Q p a b) :
    p.InStep Q (Pure.pure a) (Pure.pure b) s s' :=
  ⟨p, .refl p s.heap s'.heap, hs, .ok hab⟩

theorem lift (hs : p.PairsState s s') {u : Except BridgeFault α} {w : Except BridgeFault β}
    (huw : Alike (Q p) u w) : p.InStep Q (Action.lift u) (Action.lift w) s s' :=
  ⟨p, .refl p s.heap s'.heap, hs, huw⟩

theorem lift_self (hs : p.PairsState s s') (u : Except BridgeFault α) :
    p.InStep (fun _ => Eq) (Action.lift u) (Action.lift u) s s' :=
  .lift hs (.refl (fun _ => rfl) u)

theorem of_modify {f f' : State → State}
    (ha : p.Advances p s.heap s'.heap (f s).heap (f' s').heap)
    (ht : p.PairsState (f s) (f' s')) :
    p.InStep (fun _ => Eq) (modify f) (modify f') s s' :=
  ⟨p, ha, ht, .ok rfl⟩

theorem bind (hxy : p.InStep Q x y s s')
    (hfg : ∀ p' a b t t', p.Advances p' s.heap s'.heap t.heap t'.heap → p'.PairsState t t' →
      Q p' a b → p'.InStep Q' (f a) (g b) t t') :
    p.InStep Q' (x >>= f) (y >>= g) s s' := by
  obtain ⟨p', ha, ht, hresult⟩ := hxy
  rw [InStep, bind_apply, bind_apply]
  generalize x s = o, y s' = o' at ha ht hresult
  obtain ⟨r, t⟩ := o
  obtain ⟨r', t'⟩ := o'
  cases hresult with
  | error fault => exact ⟨p', ha, ht, .error fault⟩
  | ok hab =>
    obtain ⟨p'', ha', ht', hresult⟩ := hfg p' _ _ t t' ha ht hab
    exact ⟨p'', ha.trans ha', ht', hresult⟩

theorem bind_get {f : State → Action α'} {g : State → Action β'}
    (hfg : p.InStep Q' (f s) (g s') s s') :
    p.InStep Q' ((get : Action State) >>= f) ((get : Action State) >>= g) s s' := by
  rw [InStep, get_bind, get_bind]
  exact hfg

theorem bind_lift (hs : p.PairsState s s') {u : Except BridgeFault α} {w : Except BridgeFault β}
    {R : α → β → Prop} (huw : Alike R u w)
    (hfg : ∀ a b, R a b → p.InStep Q' (f a) (g b) s s') :
    p.InStep Q' (Action.lift u >>= f) (Action.lift w >>= g) s s' := by
  cases huw with
  | error fault => exact ⟨p, .refl p s.heap s'.heap, hs, .error fault⟩
  | ok hab => exact hfg _ _ hab

/-- What is made of results that are the same is the same. -/
theorem bind_pure {x y : Action α} (h : p.InStep (fun _ => Eq) x y s s') (f : α → α') :
    p.InStep (fun _ => Eq) (x >>= fun a => Pure.pure (f a)) (y >>= fun a => Pure.pure (f a))
      s s' := by
  refine h.bind ?_
  rintro p' a _ t t' _ ht rfl
  exact .pure ht rfl

theorem report (hs : p.PairsState s s') (e : Event) :
    p.InStep (fun _ => Eq) (Action.report e) (Action.report e) s s' := by
  refine ⟨p, .refl p s.heap s'.heap, ⟨hs.heap, hs.table, hs.memory, ?_⟩, .ok rfl⟩
  exact congrArg (Array.push · e) hs.log

theorem reportIfAny (hs : p.PairsState s s') (e? : Option Event) :
    p.InStep (fun _ => Eq) (Action.reportIfAny e?) (Action.reportIfAny e?) s s' := by
  cases e? with
  | none => exact .pure hs rfl
  | some e => exact .report hs e

/-- The host does the same in both heaps. -/
theorem host (hs : p.PairsState s s') {op : Heap → Outcome α} {op' : Heap → Outcome β}
    (hop : p.Together Q s.heap s'.heap (op s.heap) (op' s'.heap)) :
    p.InStep Q (Action.host op) (Action.host op') s s' := by
  obtain ⟨p', ha, hp', hresult⟩ := hop
  exact ⟨p', ha, ⟨hp', ha.matchesTable hs.table, hs.memory, hs.log⟩, hresult.mapError _⟩

end InStep

end Pairing

namespace Bridge

open Pairing

variable {p : Pairing} {s s' : State} {v v' : Value}

/-! ## Loading -/

theorem inStep_loadValue (hs : p.PairsState s s') (id : UInt32) :
    p.InStep (fun p => p.Matches) (loadValue id) (loadValue id) s s' :=
  .bind_get (.lift hs (hs.table.alike_load id))

theorem inStep_readText (hs : p.PairsState s s') (addr length : UInt32) :
    p.InStep (fun _ => Eq) (readText addr length) (readText addr length) s s' := by
  refine .bind_get ?_
  rw [hs.memory]
  dsimp only
  split
  · exact (InStep.report hs _).bind fun _ _ _ _ _ _ ht _ => .lift_self ht _
  · exact .lift_self hs _

theorem inStep_settleRef (hs : p.PairsState s s') (addr : UInt32) (r : Ref) :
    p.InStep (fun _ => Eq) (settleRef addr r) (settleRef addr r) s s' := by
  unfold settleRef
  split
  · exact (InStep.report hs _).bind fun _ _ _ _ _ _ ht _ => .pure ht rfl
  · exact .pure hs rfl

theorem inStep_readRef? (hs : p.PairsState s s') (addr : UInt32) :
    p.InStep (fun _ => Eq) (readRef? addr) (readRef? addr) s s' := by
  refine .bind_get ?_
  rw [hs.memory]
  refine .bind_lift hs (.refl (R := Eq) (fun _ => rfl) _) ?_
  rintro r? _ rfl
  split
  · exact .pure hs rfl
  · exact (inStep_settleRef hs addr _).bind_pure _

theorem inStep_resolve (hs : p.PairsState s s') (r : Ref) :
    p.InStep (fun p => p.Matches) (resolve r) (resolve r) s s' := by
  unfold resolve
  split
  · exact .pure hs (.number _)
  · exact inStep_loadValue hs _
  · exact .pure hs (.number _)

theorem inStep_loadRef (hs : p.PairsState s s') (addr : UInt32) :
    p.InStep (fun p => p.Matches) (loadRef addr) (loadRef addr) s s' := by
  refine (inStep_readRef? hs addr).bind ?_
  rintro p' r? _ t t' _ ht rfl
  split
  · exact .pure ht .undefined
  · exact inStep_resolve ht _

/-! ## Storing -/

theorem inStep_storeValue (hs : p.PairsState s s') (hv : p.Matches v v') :
    p.InStep (fun _ => Eq) (storeValue v) (storeValue v') s s' := by
  refine .bind_get (.bind_lift hs (hs.table.alike_store hv) ?_)
  rintro ⟨ref, table⟩ ⟨_, table'⟩ ⟨rfl, htable⟩
  refine (InStep.of_modify (.refl ..) (hs.withTable htable)).bind fun p' _ _ t t' _ ht _ => ?_
  exact (InStep.reportIfAny ht _).bind fun _ _ _ _ _ _ ht _ => .pure ht rfl

theorem inStep_writeBytes (hs : p.PairsState s s') (addr : UInt32) (data : List UInt8) :
    p.InStep (fun _ => Eq) (writeBytes addr data) (writeBytes addr data) s s' := by
  refine .bind_get ?_
  rw [hs.memory]
  refine .bind_lift hs (.refl (R := Eq) (fun _ => rfl) _) ?_
  rintro memory _ rfl
  refine (InStep.of_modify (.refl ..) (hs.withMemory memory)).bind fun p' _ _ t t' _ ht _ => ?_
  split
  · exact .report ht _
  · exact .pure ht rfl

theorem inStep_storeRef (hs : p.PairsState s s') (hv : p.Matches v v') (addr : UInt32) :
    p.InStep (fun _ => Eq) (storeRef addr v) (storeRef addr v') s s' := by
  refine .bind_get ?_
  rw [hs.memory]
  dsimp only
  split
  · refine .bind_lift hs (.refl (R := Eq) (fun _ => rfl) _) fun _ _ _ => ?_
    refine (inStep_storeValue hs hv).bind ?_
    rintro p' ref _ t t' _ ht rfl
    exact inStep_writeBytes ht addr _
  · exact .pure hs rfl

theorem inStep_releaseValue (hs : p.PairsState s s') (id : UInt32) :
    p.InStep (fun _ => Eq) (releaseValue id) (releaseValue id) s s' := by
  obtain ⟨hrelease, htable⟩ := hs.table.alike_release id
  refine .bind_get ?_
  dsimp only
  generalize s.table.release id = o, s'.table.release id = o' at hrelease htable
  obtain ⟨release, table⟩ := o
  obtain ⟨_, table'⟩ := o'
  obtain rfl := hrelease
  have hevent : Event.ofRelease? s'.table id release = Event.ofRelease? s.table id release := by
    cases release <;> simp only [Event.ofRelease?, hs.table.size]
  rw [hevent]
  refine (InStep.of_modify (.refl ..) (hs.withTable htable)).bind fun p' _ _ t t' _ ht _ => ?_
  exact (InStep.reportIfAny ht _).bind fun _ _ _ _ _ _ ht _ => .pure ht rfl

end Bridge

end ValueBridge
