import ValueBridge.Proofs.Bridge.Claims
import ValueBridge.Proofs.Bridge.Delivery
import ValueBridge.Proofs.Table.Record

/-!
# Traces of actions

An action is *silent* if it leaves the table as it is and traces nothing (`Action.Silent`), whatever
else it reports. An action *records* if it does one operation on the table at most, and traces just
what is to be told of it (`Action.Records`). What comes before and after may be silent
(`Records.of_silent_bind`, `Records.bind_silent`).

Stores, claims and releases record (`Bridge.records_storeValue`, `Bridge.records_retainValue`,
`Bridge.records_releaseValue`). Everything else that a bridge does is silent.
-/

namespace ValueBridge

/-- Between the tables there is one operation at most that takes or frees a slot, of those in `D`,
    and what is to be told of it, and no more, is added to the traces. -/
def Recorded (D : Table.Op → Prop) (t : Table) (before : List Event) (t' : Table)
    (after : List Event) : Prop :=
  ∃ told, after = before ++ told ∧ Table.Tells D t t' told

variable {D : Table.Op → Prop} {t t' : Table} {before after : List Event}

theorem Recorded.of_steady (ht : t.Steady t') (htraces : after = before) :
    Recorded D t before t' after :=
  ⟨[], htraces.trans (List.append_nil _).symm, .nothing ht⟩

theorem Recorded.refl (D : Table.Op → Prop) (t : Table) (before : List Event) :
    Recorded D t before t before :=
  .of_steady (.refl t) rfl

namespace Action

variable {α β : Type} {x : Action α} {f : α → Action β}

/-- The action leaves the table as it is, and traces nothing. -/
def Silent (x : Action α) : Prop :=
  ∀ s, (x s).2.table = s.table ∧ Event.traces (x s).2.log = Event.traces s.log

/-- The action does one operation on the table at most, and traces what is to be told of it. -/
def Records (D : Table.Op → Prop) (x : Action α) : Prop :=
  ∀ s, s.table.WellFormed →
    Recorded D s.table (Event.traces s.log) (x s).2.table (Event.traces (x s).2.log)

namespace Silent

theorem pure (a : α) : (Pure.pure a : Action α).Silent :=
  fun _ => ⟨rfl, rfl⟩

theorem throw (fault : BridgeFault) : (MonadExcept.throw fault : Action α).Silent :=
  fun _ => ⟨rfl, rfl⟩

theorem get : (MonadState.get : Action State).Silent :=
  fun _ => ⟨rfl, rfl⟩

theorem lift (result : Except BridgeFault α) : (Action.lift result).Silent :=
  fun _ => ⟨rfl, rfl⟩

theorem host (op : Heap → Outcome α) : (Action.host op).Silent :=
  fun _ => ⟨rfl, rfl⟩

/-- A report that is no trace. -/
theorem report {e : Event} (h : e.level ≠ .trace) : (Action.report e).Silent :=
  fun _ => ⟨rfl, Event.traces_push_of_ne h⟩

/-- A change of the state that leaves the table and the log alone. -/
theorem modify {g : State → State} (htable : ∀ s, (g s).table = s.table)
    (hlog : ∀ s, (g s).log = s.log) : (modify g : Action Unit).Silent :=
  fun s => ⟨htable s, congrArg Event.traces (hlog s)⟩

theorem bind (hx : x.Silent) (hf : ∀ a, (f a).Silent) : (x >>= f).Silent := by
  intro s
  obtain ⟨htable, hlog⟩ := hx s
  rw [bind_apply]
  rcases hxs : x s with ⟨fault | a, s'⟩ <;> rw [hxs] at htable hlog
  · exact ⟨htable, hlog⟩
  · exact ⟨(hf a s').1.trans htable, (hf a s').2.trans hlog⟩

theorem records (hx : x.Silent) : x.Records D := by
  intro s _
  rw [(hx s).1, (hx s).2]
  exact .refl D _ _

end Silent

namespace Records

/-- What is silent may come first. -/
theorem of_silent_bind (hx : x.Silent) (hf : ∀ a, (f a).Records D) : (x >>= f).Records D := by
  intro s h
  obtain ⟨htable, hlog⟩ := hx s
  rw [bind_apply]
  rcases hxs : x s with ⟨fault | a, s'⟩ <;> rw [hxs] at htable hlog
  · dsimp only at htable hlog ⊢
    rw [htable, hlog]
    exact .refl D _ _
  · have hrecorded := hf a s' (htable ▸ h)
    rwa [htable, hlog] at hrecorded

/-- What is silent may follow. -/
theorem bind_silent (hx : x.Records D) (hf : ∀ a, (f a).Silent) : (x >>= f).Records D := by
  intro s h
  have hrecorded := hx s h
  rw [bind_apply]
  rcases hxs : x s with ⟨fault | a, s'⟩ <;> rw [hxs] at hrecorded
  · exact hrecorded
  · obtain ⟨htable, hlog⟩ := hf a s'
    dsimp only
    rw [htable, hlog]
    exact hrecorded

end Records

end Action

theorem Action.exists_traces_reportIfAny (e? : Option Event) (s : State) :
    ∃ log, reportIfAny e? s = (.ok (), { s with log }) ∧
      Event.traces log = Event.traces s.log ++ Event.traces e?.toArray := by
  cases e? with
  | none => exact ⟨s.log, rfl, (List.append_nil _).symm⟩
  | some e => exact ⟨s.log.push e, rfl, Event.traces_push s.log e⟩

namespace Event

/-- What is traced of a store is the slot that it takes. -/
theorem traces_ofStore?_boxed {id : UInt32} (hid : Singleton.lastSlot < id) (tag : Tag) :
    traces (ofStore? (.boxed id tag)).toArray = [.slotAllocated id tag] := by
  rw [ofStore?, Ref.slot?_boxed, Ref.tag?_boxed]
  dsimp only
  rw [if_pos hid]
  rfl

/-- Nothing is traced of a value that takes no slot. -/
theorem traces_ofStore?_immediate {v : Value} {ref : Ref} (himm : Table.immediate? v = some ref) :
    traces (ofStore? ref).toArray = [] := by
  rw [ofStore?]
  split
  · next id tag hslot _ =>
    rw [if_neg (UInt32.not_lt.2 (Table.le_lastSlot_of_immediate? himm hslot))]
    rfl
  · rfl

/-- Nothing is traced of a release that frees no slot. One that is ignored is a warning. -/
theorem traces_ofRelease? {release : Release} (hne : release ≠ .freed) (t : Table) (id : UInt32) :
    traces (ofRelease? t id release).toArray = [] := by
  cases release with
  | freed => exact absurd rfl hne
  | notLive =>
    rw [ofRelease?]
    split <;> rfl
  | _ => rfl

end Event

namespace Bridge

open ValueBridge.Action

/-! ## What is silent -/

theorem silent_loadValue (id : UInt32) : (loadValue id).Silent :=
  .bind .get fun _ => .lift _

theorem silent_readText (addr length : UInt32) : (readText addr length).Silent := by
  refine .bind .get fun s => ?_
  dsimp only
  split
  · exact .bind (.report nofun) fun _ => .lift _
  · exact .lift _

theorem silent_writeBytes (addr : UInt32) (data : List UInt8) : (writeBytes addr data).Silent := by
  refine .bind .get fun s => .bind (.lift _) fun memory => ?_
  refine .bind (.modify (fun _ => rfl) fun _ => rfl) fun _ => ?_
  split
  · exact .report nofun
  · exact .pure _

theorem silent_settleRef (addr : UInt32) (r : Ref) : (settleRef addr r).Silent := by
  unfold settleRef
  split
  · exact .bind (.report nofun) fun _ => .pure _
  · exact .pure _

theorem silent_readRef? (addr : UInt32) : (readRef? addr).Silent := by
  refine .bind .get fun s => .bind (.lift _) fun r? => ?_
  split
  · exact .pure _
  · exact .bind (silent_settleRef addr _) fun _ => .pure _

theorem silent_resolve (r : Ref) : (resolve r).Silent := by
  unfold resolve
  split
  · exact .pure _
  · exact silent_loadValue _
  · exact .pure _

theorem silent_loadRef (addr : UInt32) : (loadRef addr).Silent := by
  refine .bind (silent_readRef? addr) fun r? => ?_
  split
  · exact .pure _
  · exact silent_resolve _

/-! ## What records -/

theorem records_storeValue (v : Value) (hD : D (.store v)) : (storeValue v).Records D := by
  intro s h
  cases hstore : s.table.store v with
  | error fault =>
    rw [storeValue_of_error hstore]
    exact .refl D _ _
  | ok stored =>
    obtain ⟨ref, table⟩ := stored
    obtain ⟨log, hreport, hlog⟩ :=
      exists_traces_reportIfAny (Event.ofStore? ref) { s with table }
    rw [storeValue_eq_report hstore, hreport]
    have hs := h.turnover (.store v)
    rw [Table.apply_store hstore, Table.result_store hstore] at hs
    cases hs with
    | taken _ ht =>
      rw [Event.traces_ofStore?_boxed ht.lastSlot_lt] at hlog
      exact ⟨_, hlog, .taken hD hstore ht⟩
    | immediate himm =>
      rw [Event.traces_ofStore?_immediate himm, List.append_nil] at hlog
      exact .of_steady (.refl _) hlog

theorem records_retainValue (id : UInt32) : (retainValue id).Records D := by
  intro s h
  cases hretain : s.table.retain id with
  | error fault =>
    rw [retainValue_of_error hretain]
    exact .refl D _ _
  | ok retained =>
    obtain ⟨claims, table⟩ := retained
    have hs := h.turnover (.retain id)
    rw [Table.apply, Table.result, Table.perform, hretain] at hs
    rw [retainValue_of_ok hretain]
    cases hs with
    | retained ht => exact .of_steady ht rfl

theorem records_releaseValue (id : UInt32) (hD : D (.release id)) :
    (releaseValue id).Records D := by
  intro s h
  obtain ⟨log, hreport, hlog⟩ := exists_traces_reportIfAny
    (Event.ofRelease? s.table id (s.table.release id).1) { s with table := (s.table.release id).2 }
  rw [releaseValue_eq_report, hreport]
  have hs := h.turnover (.release id)
  rw [Table.apply, Table.result, Table.perform] at hs
  generalize hrelease : s.table.release id = released at hs hlog
  obtain ⟨release, table⟩ := released
  cases hs with
  | freed ht => exact ⟨_, hlog, .freed hD hrelease ht⟩
  | released hne ht =>
    rw [Event.traces_ofRelease? hne, List.append_nil] at hlog
    exact .of_steady ht hlog

theorem records_deleteValue (id : UInt32) (hD : D (.release id)) :
    (deleteValue id).Records D :=
  .of_silent_bind (silent_loadValue id) fun _ =>
    (records_releaseValue id hD).bind_silent fun _ => .pure _

theorem records_storeRef (addr : UInt32) (v : Value) (hD : D (.store v)) :
    (storeRef addr v).Records D := by
  refine .of_silent_bind .get fun s => ?_
  dsimp only
  split
  · refine .of_silent_bind (.lift _) fun _ => ?_
    exact (records_storeValue v hD).bind_silent fun ref => silent_writeBytes addr _
  · exact (Silent.pure _).records

end Bridge

end ValueBridge
