import ValueBridge.Proofs.Bridge.Frame

/-!
# Logs do not matter

What an action does, and what it gives, does not depend on what has been logged before
(`Action.IgnoresLog`): nothing reads the log. So an action that runs after more was logged does
the same, but for the log.
-/

namespace ValueBridge

namespace Action

variable {α β : Type} {x : Action α} {f : α → Action β}

/-- Whatever has been logged before, the action gives the same and comes to the same state but for
    the log. -/
def IgnoresLog (x : Action α) : Prop :=
  ∀ s log, ∃ log', x { s with log } = ((x s).1, { (x s).2 with log := log' })

namespace IgnoresLog

theorem pure (a : α) : (Pure.pure a : Action α).IgnoresLog :=
  fun _ log => ⟨log, rfl⟩

theorem throw (fault : BridgeFault) : (MonadExcept.throw fault : Action α).IgnoresLog :=
  fun _ log => ⟨log, rfl⟩

theorem lift (result : Except BridgeFault α) : (Action.lift result).IgnoresLog :=
  fun _ log => ⟨log, rfl⟩

theorem report (e : Event) : (Action.report e).IgnoresLog :=
  fun _ log => ⟨log.push e, rfl⟩

theorem reportIfAny (e? : Option Event) : (Action.reportIfAny e?).IgnoresLog := by
  cases e? with
  | none => exact .pure ()
  | some e => exact .report e

theorem host (op : Heap → Outcome α) : (Action.host op).IgnoresLog :=
  fun _ log => ⟨log, rfl⟩

/-- A change of the state that leaves the log alone. -/
theorem modify {g : State → State} (hg : ∀ s log, g { s with log } = { g s with log }) :
    (modify g : Action Unit).IgnoresLog := by
  intro s log
  refine ⟨log, ?_⟩
  change (Except.ok (), g { s with log }) = (Except.ok (), { g s with log })
  rw [hg]

theorem bind (hx : x.IgnoresLog) (hf : ∀ a, (f a).IgnoresLog) : (x >>= f).IgnoresLog := by
  intro s log
  obtain ⟨log', hx⟩ := hx s log
  rw [bind_apply, bind_apply, hx]
  rcases x s with ⟨fault | a, s'⟩
  · exact ⟨log', rfl⟩
  · exact hf a s' log'

/-- The state may be looked at, but for its log. -/
theorem get_bind {f : State → Action β} (hlog : ∀ s log, f { s with log } = f s)
    (hf : ∀ s, (f s).IgnoresLog) : (MonadState.get >>= f).IgnoresLog := by
  intro s log
  rw [Action.get_bind, Action.get_bind, hlog]
  exact hf s s log

end IgnoresLog

end Action

namespace Bridge

open ValueBridge.Action

/-! ## Slots -/

theorem ignoresLog_loadValue (id : UInt32) : (loadValue id).IgnoresLog :=
  .get_bind (fun _ _ => rfl) fun _ => .lift _

theorem ignoresLog_storeValue (v : Value) : (storeValue v).IgnoresLog := by
  refine .get_bind (fun _ _ => rfl) fun _ => .bind (.lift _) fun (ref, table) => ?_
  exact .bind (.modify fun _ _ => rfl) fun _ => .bind (.reportIfAny _) fun _ => .pure ref

theorem ignoresLog_releaseValue (id : UInt32) : (releaseValue id).IgnoresLog := by
  refine .get_bind (fun _ _ => rfl) fun s => ?_
  exact .bind (.modify fun _ _ => rfl) fun _ => .bind (.reportIfAny _) fun _ => .pure _

/-! ## Memory -/

theorem ignoresLog_readText (addr length : UInt32) : (readText addr length).IgnoresLog := by
  refine .get_bind (fun _ _ => rfl) fun s => ?_
  dsimp only
  split
  · exact .bind (.report _) fun _ => .lift _
  · exact .lift _

theorem ignoresLog_writeBytes (addr : UInt32) (data : List UInt8) :
    (writeBytes addr data).IgnoresLog := by
  refine .get_bind (fun _ _ => rfl) fun s => .bind (.lift _) fun memory => ?_
  refine .bind (.modify fun _ _ => rfl) fun _ => ?_
  split
  · exact .report _
  · exact .pure _

/-! ## References in memory -/

theorem ignoresLog_settleRef (addr : UInt32) (r : Ref) : (settleRef addr r).IgnoresLog := by
  unfold settleRef
  split
  · exact .bind (.report _) fun _ => .pure _
  · exact .pure _

theorem ignoresLog_readRef? (addr : UInt32) : (readRef? addr).IgnoresLog := by
  refine .get_bind (fun _ _ => rfl) fun s => .bind (.lift _) fun r? => ?_
  split
  · exact .pure _
  · exact .bind (ignoresLog_settleRef addr _) fun _ => .pure _

theorem ignoresLog_resolve (r : Ref) : (resolve r).IgnoresLog := by
  unfold resolve
  split
  · exact .pure _
  · exact ignoresLog_loadValue _
  · exact .pure _

theorem ignoresLog_loadRef (addr : UInt32) : (loadRef addr).IgnoresLog := by
  refine .bind (ignoresLog_readRef? addr) fun r? => ?_
  split
  · exact .pure _
  · exact ignoresLog_resolve _

theorem ignoresLog_storeRef (addr : UInt32) (v : Value) : (storeRef addr v).IgnoresLog := by
  refine .get_bind (fun _ _ => rfl) fun s => ?_
  dsimp only
  split
  · refine .bind (.lift _) fun _ => .bind (ignoresLog_storeValue v) fun ref => ?_
    exact ignoresLog_writeBytes addr (Memory.refBytes ref)
  · exact .pure _

end Bridge

end ValueBridge
