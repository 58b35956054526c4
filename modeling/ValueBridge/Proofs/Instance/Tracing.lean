import ValueBridge.Proofs.Import.Tracing
import ValueBridge.Proofs.Instance.Run

/-!
# The traces of a run

Every operation on an instance takes one slot or frees one at most, and traces just what is to be
told of it (`Instance.recorded_next`). So the traces record the table throughout every run that
starts with a new one (`Instance.HasRecord.run`): whoever reads them knows which slots are live
(`Instance.IsTraced`).
-/

namespace ValueBridge.Instance

variable {D : Table.Op → Prop} {i : Instance}

/-- What a call by the guest reports by itself is no trace. -/
theorem recorded_invoke (h : i.table.WellFormed) (e : Engine) (c : Call)
    (hstore : ∀ out v, c.out? = some out → D (.store v))
    (hrelease : ∀ id, c = .valueDeinit id → D (.release id)) :
    Recorded D i.table (Event.traces i.log) (i.invoke e c).2.table
      (Event.traces (i.invoke e c).2.log) := by
  rw [invoke]
  obtain ⟨log, hlog, htraces⟩ : ∃ log,
      (if needsMemory c && !i.bound then i.report .calledUnbound else i) = { i with log } ∧
        Event.traces log = Event.traces i.log := by
    split
    · exact ⟨i.log.push .calledUnbound, rfl, Event.traces_push_of_ne nofun⟩
    · exact ⟨i.log, rfl, rfl⟩
  have hrecorded : Recorded D i.table (Event.traces log)
      ({ i with log }.perform (c.perform e)).2.table
      (Event.traces ({ i with log }.perform (c.perform e)).2.log) :=
    Call.records_perform e c hstore hrelease { i with log }.state h
  rw [htraces] at hrecorded
  rw [hlog]
  obtain ⟨r, i', hperform⟩ : ∃ r i', { i with log }.perform (c.perform e) = (r, i') :=
    ⟨_, _, rfl⟩
  rw [hperform] at hrecorded ⊢
  cases r with
  | ok answer => exact hrecorded
  | error fault =>
    dsimp only at hrecorded ⊢
    split
    · have htrapped : Event.traces (i'.log.push (.trapped fault)) = Event.traces i'.log :=
        Event.traces_push_of_ne nofun
      rw [report, htrapped]
      exact hrecorded
    · exact hrecorded

/-- An operation takes one slot or frees one at most, and traces what is to be told of it. -/
theorem recorded_next (h : i.table.WellFormed) (op : Operation) :
    Recorded op.Does i.table (Event.traces i.log) (i.next op).table
      (Event.traces (i.next op).log) := by
  cases op with
  | call e c =>
    exact Call.records_perform e c (fun _ v hc => .call v hc) (fun id hc => hc ▸ .callDeinit e id)
      i.state h
  | invoke e c =>
    exact recorded_invoke h e c (fun _ v hc => .invoke v hc) (fun id hc => hc ▸ .invokeDeinit e id)
  | loadValue id => exact (Bridge.silent_loadValue id).records i.state h
  | storeValue v => exact Bridge.records_storeValue v (.storeValue v) i.state h
  | retainValue id => exact Bridge.records_retainValue id i.state h
  | deleteValue id => exact Bridge.records_deleteValue id (.deleteValue id) i.state h
  | readRef addr => exact (Bridge.silent_readRef? addr).records i.state h
  | loadRef addr => exact (Bridge.silent_loadRef addr).records i.state h
  | storeRef addr v => exact Bridge.records_storeRef addr v (.storeRef addr v) i.state h
  | bind exported =>
    rw [next, bind]
    by_cases hname : exported = memoryExport
    · rw [if_pos hname]
      exact .refl _ _ _
    · rw [if_neg hname]
      exact .refl _ _ _
  | unbind | guest | host => exact .refl _ _ _

/-- The instance has a well-formed table, which its traces record. -/
structure HasRecord (i : Instance) : Prop where
  wellFormed : i.table.WellFormed
  recordedBy : i.table.RecordedBy (Event.traces i.log)

theorem HasRecord.next (h : i.HasRecord) (op : Operation) : (i.next op).HasRecord := by
  have hwellFormed := wellFormed_next h.wellFormed op
  obtain ⟨told, htraces, htold⟩ := recorded_next h.wellFormed op
  refine ⟨hwellFormed, ?_⟩
  rw [htraces]
  exact h.recordedBy.append htold h.wellFormed hwellFormed

theorem HasRecord.run (h : i.HasRecord) (ops : List Operation) : (i.run ops).HasRecord :=
  foldl_invariant (fun _ op h => h.next op) h ops

/-- The log of an instance tells of its table. An operation traces the slot that it takes or frees,
    if it takes or frees one, and nothing else. The live slots other than those of the singletons
    are the ones of which the latest trace tells that they were taken, with the tag of the value,
    and the pool has those of which it tells that they were freed. There are as many live slots as
    were taken more often than freed. The lines of the traces tell them apart. -/
structure IsTraced (i : Instance) : Prop where
  next : ∀ op, ∃ told, Event.traces (i.next op).log = Event.traces i.log ++ told ∧
    Table.Tells op.Does i.table (i.next op).table told
  live : ∀ id, id ∈ i.table.liveIds ↔
    ∃ tag, Event.latest? id (Event.traces i.log) = some (.slotAllocated id tag)
  tag : ∀ id tag v, Event.latest? id (Event.traces i.log) = some (.slotAllocated id tag) →
    i.table.load id = .ok v → tag = .ofValue v
  pool : ∀ id, id ∈ i.table.pool ↔
    Event.latest? id (Event.traces i.log) = some (.slotReleased id)
  balance : (Event.traces i.log).countP Event.isAllocation =
    (Event.traces i.log).countP Event.isRelease + i.table.stats.live
  text : ∀ e ∈ Event.traces i.log,
    (∃ id tag, e = .slotAllocated id tag ∧
      e.text = "slot " ++ toString id.toNat ++ " allocated (" ++ tag.title ++ ")") ∨
    ∃ id, e = .slotReleased id ∧ e.text = "slot " ++ toString id.toNat ++ " released"
  apart : ∀ e ∈ Event.traces i.log, ∀ e' ∈ Event.traces i.log, e.text = e'.text → e = e'

theorem HasRecord.isTraced (h : i.HasRecord) : i.IsTraced where
  next := recorded_next h.wellFormed
  live id := by
    simp only [h.wellFormed.mem_liveIds, h.recordedBy.live_iff]
    constructor
    · rintro ⟨hid, hlive⟩
      obtain ⟨v, hload⟩ := Table.load_of_isLive hlive
      exact ⟨_, hid, v, hload, rfl⟩
    · rintro ⟨_, hid, v, hload, -⟩
      exact ⟨hid, Table.isLive_of_load hload⟩
  tag id tag v hlatest hload := by
    obtain ⟨-, w, hload', rfl⟩ := h.recordedBy.live_iff.1 hlatest
    rw [hload] at hload'
    cases hload'
    rfl
  pool _ := h.wellFormed.mem_pool_iff.trans h.recordedBy.free_iff.symm
  balance := h.recordedBy.balance
  text e he := by
    rcases Event.trace_cases (Event.level_of_mem_traces he) with ⟨id, tag, rfl⟩ | ⟨id, rfl⟩
    · exact .inl ⟨id, tag, rfl, rfl⟩
    · exact .inr ⟨id, rfl, rfl⟩
  apart _ he _ he' :=
    Event.text_injective (Event.level_of_mem_traces he) (Event.level_of_mem_traces he')

/-- After any operations on an instance with a new table and an empty log, the log tells of the
    table. -/
theorem traces_run (heap : Heap) (global runtime : Value) (bytes : Array UInt8) (bound : Bool)
    (ops : List Operation) :
    ((⟨heap, .create global runtime, bytes, bound, #[]⟩ : Instance).run ops).IsTraced :=
  have hnew : (⟨heap, .create global runtime, bytes, bound, #[]⟩ : Instance).HasRecord :=
    ⟨.create global runtime, .create global runtime⟩
  (hnew.run ops).isTraced

end ValueBridge.Instance
