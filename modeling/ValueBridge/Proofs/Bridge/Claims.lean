import ValueBridge.Proofs.Bridge.Frame

/-!
# Claims through the bridge

A claim that the host or the guest makes or gives up through the bridge is one on the table,
and nothing else changes but the log.
-/

namespace ValueBridge.Bridge

open ValueBridge.Action

variable {s : State} {id : UInt32}

theorem loadValue_of_ok {v : Value} (h : s.table.load id = .ok v) : loadValue id s = (.ok v, s) :=
  h ▸ rfl

theorem loadValue_of_error {fault : BridgeFault} (h : s.table.load id = .error fault) :
    loadValue id s = (.error fault, s) :=
  h ▸ rfl

theorem retainValue_of_ok {claims : Nat} {table : Table}
    (h : s.table.retain id = .ok (claims, table)) :
    retainValue id s = (.ok claims, { s with table }) := by
  rw [retainValue, get_bind, lift_bind_of_ok h]
  rfl

theorem retainValue_of_error {fault : BridgeFault} (h : s.table.retain id = .error fault) :
    retainValue id s = (.error fault, s) := by
  rw [retainValue, get_bind, lift_bind_of_error h]

/-- What is done by a release, but for the report, is done to the table. -/
theorem releaseValue_eq_report (id : UInt32) (s : State) :
    releaseValue id s = (.ok (s.table.release id).1,
      (reportIfAny (Event.ofRelease? s.table id (s.table.release id).1)
        { s with table := (s.table.release id).2 }).2) := by
  obtain ⟨log, hlog⟩ := reportIfAny_apply (Event.ofRelease? s.table id (s.table.release id).1)
    { s with table := (s.table.release id).2 }
  rw [releaseValue, get_bind]
  change (reportIfAny (Event.ofRelease? s.table id (s.table.release id).1) >>=
    fun _ => pure (s.table.release id).1) { s with table := (s.table.release id).2 } = _
  rw [bind_of_ok hlog, hlog]
  rfl

theorem releaseValue_apply (id : UInt32) (s : State) :
    ∃ log, releaseValue id s =
      (.ok (s.table.release id).1, { s with table := (s.table.release id).2, log }) := by
  obtain ⟨log, hlog⟩ := reportIfAny_apply (Event.ofRelease? s.table id (s.table.release id).1)
    { s with table := (s.table.release id).2 }
  exact ⟨log, by rw [releaseValue_eq_report, hlog]⟩

theorem deleteValue_of_ok {v : Value} (h : s.table.load id = .ok v) :
    ∃ log, deleteValue id s = (.ok v, { s with table := (s.table.release id).2, log }) := by
  obtain ⟨log, hrelease⟩ := releaseValue_apply id s
  refine ⟨log, ?_⟩
  rw [deleteValue, bind_of_ok (loadValue_of_ok h), bind_of_ok hrelease]
  rfl

/-- Whoever takes what is not there gives up no claim. -/
theorem deleteValue_of_error {fault : BridgeFault} (h : s.table.load id = .error fault) :
    deleteValue id s = (.error fault, s) := by
  rw [deleteValue, bind_of_error (loadValue_of_error h)]

end ValueBridge.Bridge
