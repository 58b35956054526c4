import ValueBridge.Bridge

/-!
# What actions leave as it is

A *frame* is a relation of states that says what stays the same, whatever is logged and
however many steps are taken. An action that takes each state to a related one is *within*
the frame (`Action.Within`), and so is a sequence of such actions (`Within.bind`).

An action *reads* if it changes nothing but the log (`Action.Reads`). It is then within
every frame (`Within.of_reads`). Most actions read first, and *lead* on to the one thing that
they do (`Action.Leads`).
-/

namespace ValueBridge

/-- The states differ in their logs at most. -/
def State.SameButLog (s s' : State) : Prop :=
  ∃ log, s' = { s with log }

namespace Action

variable {α β : Type} {x : Action α} {f : α → Action β} {R : State → State → Prop}

/-- The second action finds the state that the first one leaves, unless that is a fault. -/
theorem bind_apply (x : Action α) (f : α → Action β) (s : State) :
    (x >>= f) s = match x s with
      | (.ok a, s') => f a s'
      | (.error fault, s') => (.error fault, s') := by
  change ExceptT.bind x f s = _
  simp only [ExceptT.bind, ExceptT.mk, bind, StateT.bind]
  rcases x s with ⟨_ | _, _⟩ <;> rfl

theorem bind_of_ok {s s' : State} {a : α} (h : x s = (.ok a, s')) : (x >>= f) s = f a s' := by
  rw [bind_apply, h]

theorem bind_of_error {s s' : State} {fault : BridgeFault} (h : x s = (.error fault, s')) :
    (x >>= f) s = (.error fault, s') := by
  rw [bind_apply, h]

/-- The host works on the heap alone. -/
theorem host_of_eq {op : Heap → Outcome α} {s : State} {result : Except Fault α} {heap : Heap}
    (h : op s.heap = (result, heap)) :
    host op s = (result.mapError .host, { s with heap }) := by
  rw [host, h]

theorem get_bind (f : State → Action β) (s : State) : (get >>= f) s = f s s :=
  bind_of_ok rfl

theorem lift_bind_of_ok {result : Except BridgeFault α} {a : α} (h : result = .ok a) (s : State) :
    (lift result >>= f) s = f a s :=
  bind_of_ok (h ▸ rfl)

theorem lift_bind_of_error {result : Except BridgeFault α} {fault : BridgeFault}
    (h : result = .error fault) (s : State) : (lift result >>= f) s = (.error fault, s) :=
  bind_of_error (h ▸ rfl)

theorem reportIfAny_apply (e? : Option Event) (s : State) :
    ∃ log, reportIfAny e? s = (.ok (), { s with log }) := by
  cases e? with
  | none => exact ⟨s.log, rfl⟩
  | some e => exact ⟨s.log.push e, rfl⟩

/-! ## Frames -/

/-- A relation of states to which logs and the number of steps do not matter. -/
structure Frame (R : State → State → Prop) : Prop where
  log : ∀ s log, R s { s with log }
  trans : ∀ {s t u}, R s t → R t u → R s u

theorem Frame.refl (hR : Frame R) (s : State) : R s s :=
  hR.log s s.log

theorem Frame.of_sameButLog (hR : Frame R) {s s' : State} (h : s.SameButLog s') : R s s' := by
  obtain ⟨log, rfl⟩ := h
  exact hR.log s log

/-- The action takes every state to a related one. -/
def Within (R : State → State → Prop) (x : Action α) : Prop :=
  ∀ s, R s (x s).2

namespace Within

theorem pure (hR : Frame R) (a : α) : (Pure.pure a : Action α).Within R :=
  hR.refl

theorem throw (hR : Frame R) (fault : BridgeFault) :
    (MonadExcept.throw fault : Action α).Within R :=
  hR.refl

theorem get (hR : Frame R) : (MonadState.get : Action State).Within R :=
  hR.refl

theorem lift (hR : Frame R) (result : Except BridgeFault α) : (Action.lift result).Within R :=
  hR.refl

theorem report (hR : Frame R) (e : Event) : (Action.report e).Within R :=
  fun s => hR.log s _

theorem bind (hR : Frame R) (hx : x.Within R) (hf : ∀ a, (f a).Within R) :
    (x >>= f).Within R := by
  intro s
  have hs := hx s
  rw [bind_apply]
  rcases hxs : x s with ⟨fault | a, s'⟩ <;> rw [hxs] at hs
  · exact hs
  · exact hR.trans hs (hf a s')

end Within

/-! ## Failing -/

/-- If the action fails, the state that it leaves is related. -/
def FailsWithin (R : State → State → Prop) (x : Action α) : Prop :=
  ∀ s fault s', x s = (.error fault, s') → R s s'

namespace FailsWithin

theorem of_within (hx : x.Within R) : x.FailsWithin R := by
  intro s fault s' h
  have hs := hx s
  rwa [h] at hs

/-- What is made of the result does not fail. -/
theorem bind_pure (hx : x.FailsWithin R) (g : α → β) :
    (x >>= fun a => Pure.pure (g a)).FailsWithin R := by
  intro s fault s' h
  rw [bind_apply] at h
  rcases hxs : x s with ⟨fault' | a, t⟩ <;> rw [hxs] at h
  · cases h
    exact hx s _ _ hxs
  · cases h

end FailsWithin

/-! ## Leading on -/

/-- The action goes within the frame, until it fails or goes on as one of `Y`. -/
def Leads (R : State → State → Prop) (Y : Action α → Prop) (x : Action α) : Prop :=
  ∀ s, ∃ t, R s t ∧ ((∃ fault, x s = (.error fault, t)) ∨ ∃ y, Y y ∧ x s = y t)

namespace Leads

variable {Y : Action α → Prop}

theorem of_mem (hR : Frame R) (hx : Y x) : x.Leads R Y :=
  fun s => ⟨s, hR.refl s, .inr ⟨x, hx, rfl⟩⟩

theorem bind {x : Action β} {f : β → Action α} (hR : Frame R) (hx : x.Within R)
    (hf : ∀ b, (f b).Leads R Y) : (x >>= f).Leads R Y := by
  intro s
  have hs := hx s
  rw [bind_apply]
  rcases hxs : x s with ⟨fault | b, t⟩ <;> rw [hxs] at hs
  · exact ⟨t, hs, .inl ⟨fault, rfl⟩⟩
  · obtain ⟨u, htu, h⟩ := hf b t
    exact ⟨u, hR.trans hs htu, h⟩

theorem failsWithin (hR : Frame R) (hx : x.Leads R Y) (hY : ∀ y, Y y → y.FailsWithin R) :
    x.FailsWithin R := by
  intro s fault s' h
  obtain ⟨t, hst, ⟨fault', hxs⟩ | ⟨y, hy, hxs⟩⟩ := hx s <;> rw [hxs] at h
  · cases h
    exact hst
  · exact hR.trans hst (hY y hy t fault s' h)

end Leads

/-! ## Reading -/

/-- The action changes nothing but the log. -/
def Reads (x : Action α) : Prop :=
  x.Within State.SameButLog

theorem frame_sameButLog : Frame State.SameButLog where
  log _ log := ⟨log, rfl⟩
  trans := by
    rintro s _ _ ⟨_, rfl⟩ ⟨log, rfl⟩
    exact ⟨log, rfl⟩

/-- What reads is within every frame. -/
theorem Within.of_reads (hR : Frame R) (hx : x.Reads) : x.Within R :=
  fun s => hR.of_sameButLog (hx s)

namespace Reads

theorem pure (a : α) : (Pure.pure a : Action α).Reads :=
  Within.pure frame_sameButLog a

theorem get : (MonadState.get : Action State).Reads :=
  Within.get frame_sameButLog

theorem throw (fault : BridgeFault) : (MonadExcept.throw fault : Action α).Reads :=
  Within.throw frame_sameButLog fault

theorem lift (result : Except BridgeFault α) : (Action.lift result).Reads :=
  Within.lift frame_sameButLog result

theorem report (e : Event) : (Action.report e).Reads :=
  Within.report frame_sameButLog e

theorem bind (hx : x.Reads) (hf : ∀ a, (f a).Reads) : (x >>= f).Reads :=
  Within.bind frame_sameButLog hx hf

end Reads

end Action

namespace Bridge

open ValueBridge.Action

theorem reads_loadValue (id : UInt32) : (loadValue id).Reads :=
  .bind .get fun _ => .lift _

theorem reads_readText (addr length : UInt32) : (readText addr length).Reads := by
  refine .bind .get fun s => ?_
  dsimp only
  split
  · exact .bind (.report _) fun _ => .lift _
  · exact .lift _

theorem reads_settleRef (addr : UInt32) (r : Ref) : (settleRef addr r).Reads := by
  unfold settleRef
  split
  · exact .bind (.report _) fun _ => .pure _
  · exact .pure _

theorem reads_readRef? (addr : UInt32) : (readRef? addr).Reads := by
  refine .bind .get fun s => .bind (.lift _) fun r? => ?_
  split
  · exact .pure _
  · exact .bind (reads_settleRef addr _) fun _ => .pure _

theorem reads_resolve (r : Ref) : (resolve r).Reads := by
  unfold resolve
  split
  · exact .pure _
  · exact reads_loadValue _
  · exact .pure _

theorem reads_loadRef (addr : UInt32) : (loadRef addr).Reads := by
  refine .bind (reads_readRef? addr) fun r? => ?_
  split
  · exact .pure _
  · exact reads_resolve _

end Bridge

end ValueBridge
