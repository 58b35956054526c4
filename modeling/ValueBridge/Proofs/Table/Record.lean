import ValueBridge.Proofs.Event
import ValueBridge.Proofs.Table.Turnover

/-!
# The record of the slots

What is to be told of an operation on a table: the slot that it takes, with the tag of the value,
or the slot that it frees, and nothing of any other operation (`Table.Tells`).

Events *record* a table if they tell the slots that are live from those that are free, each by the
last event that concerns it, and count the live ones (`Table.RecordedBy`). A new table is recorded
by no event (`RecordedBy.create`), and what is told of an operation keeps the record
(`RecordedBy.append`).
-/

namespace ValueBridge.Table

/-- Between the tables there is one operation at most that takes or frees a slot, of those in `D`,
    and this is what is to be told of it. -/
inductive Tells (D : Op → Prop) (t t' : Table) : List Event → Prop
  | nothing : t.Steady t' → Tells D t t' []
  | taken {v : Value} {id : UInt32} : D (.store v) →
      t.store v = .ok (.boxed id (.ofValue v), t') → t.Takes id v t' →
      Tells D t t' [.slotAllocated id (.ofValue v)]
  | freed {id : UInt32} : D (.release id) → t.release id = (.freed, t') → t.Vacates id t' →
      Tells D t t' [.slotReleased id]

/-- The latest of the events about a slot is that it was taken, for a value of the tag, if the slot
    is live and no singleton's, and that it was freed if it is free. The slots that were taken and
    not freed are as many as are live. -/
structure RecordedBy (t : Table) (events : List Event) : Prop where
  live_iff : ∀ {id tag}, Event.latest? id events = some (.slotAllocated id tag) ↔
    Singleton.lastSlot < id ∧ ∃ v, t.load id = .ok v ∧ Tag.ofValue v = tag
  free_iff : ∀ {id}, Event.latest? id events = some (.slotReleased id) ↔ t.slot? id = some .free
  balance : events.countP Event.isAllocation = events.countP Event.isRelease + t.stats.live

variable {D : Op → Prop} {t t' : Table} {id : UInt32} {v : Value} {events told : List Event}

theorem load_congr (h : t'.slot? id = t.slot? id) : t'.load id = t.load id := by
  rw [load, load, h]

namespace RecordedBy

theorem create (global runtime : Value) : (create global runtime).RecordedBy [] where
  live_iff := by
    intro id tag
    refine iff_of_false nofun ?_
    rintro ⟨hid, v, hload, -⟩
    -- All slots of a new table are those of singletons.
    have hmem := (WellFormed.create global runtime).mem_liveIds.2 ⟨hid, isLive_of_load hload⟩
    cases hmem
  free_iff := by
    intro id
    refine iff_of_false nofun fun hfree => ?_
    have hmem := (WellFormed.create global runtime).mem_pool_iff.2 hfree
    cases hmem
  balance := rfl

/-- A table that keeps its slots is recorded still. -/
theorem steady (hr : t.RecordedBy events) (ht : t.Steady t') (h : t.WellFormed)
    (h' : t'.WellFormed) : t'.RecordedBy events where
  live_iff := by
    intro id tag
    simp only [ht.load_iff]
    exact hr.live_iff
  free_iff := hr.free_iff.trans ht.free_iff.symm
  balance := by rw [ht.stats_live h h', hr.balance]

/-- An event more about a slot records a table that differs there alone, if it tells what has
    become of the slot and keeps the balance. -/
theorem concat {e : Event} (hr : t.RecordedBy events)
    (hconcerns : ∀ id', e.concerns id' = (id == id'))
    (hothers : ∀ id', id' ≠ id → t'.slot? id' = t.slot? id')
    (hlive : ∀ tag, e = .slotAllocated id tag ↔
      Singleton.lastSlot < id ∧ ∃ v, t'.load id = .ok v ∧ Tag.ofValue v = tag)
    (hfree : e = .slotReleased id ↔ t'.slot? id = some .free)
    (hbalance : [e].countP Event.isAllocation + t.stats.live =
      [e].countP Event.isRelease + t'.stats.live) : t'.RecordedBy (events ++ [e]) where
  live_iff := by
    intro id' tag
    by_cases hid : id' = id
    · subst hid
      rw [Event.latest?_concat_of_concerns ((hconcerns id').trans (beq_self_eq_true id')),
        Option.some_inj, hlive]
    · have hother := (hconcerns id').trans (beq_false_of_ne (Ne.symm hid))
      rw [Event.latest?_concat_of_not hother, hr.live_iff, load_congr (hothers id' hid)]
  free_iff := by
    intro id'
    by_cases hid : id' = id
    · subst hid
      rw [Event.latest?_concat_of_concerns ((hconcerns id').trans (beq_self_eq_true id')),
        Option.some_inj, hfree]
    · have hother := (hconcerns id').trans (beq_false_of_ne (Ne.symm hid))
      rw [Event.latest?_concat_of_not hother, hr.free_iff, hothers id' hid]
  balance := by
    rw [List.countP_append, List.countP_append, hr.balance]
    omega

theorem takes (hr : t.RecordedBy events) (ht : t.Takes id v t') (h : t.WellFormed)
    (h' : t'.WellFormed) : t'.RecordedBy (events ++ [.slotAllocated id (.ofValue v)]) := by
  have hload : t'.load id = .ok v := load_eq_ok_iff.2 ⟨1, ht.slot?_eq⟩
  refine hr.concat (fun _ => rfl) ht.others (fun tag => ?_) ?_ ?_
  · rw [hload]
    simp [ht.lastSlot_lt]
  · rw [ht.slot?_eq]
    exact iff_of_false nofun nofun
  · rw [ht.stats_live h h']
    exact Nat.add_right_comm 0 1 _

theorem vacates (hr : t.RecordedBy events) (ht : t.Vacates id t') (h : t.WellFormed)
    (h' : t'.WellFormed) : t'.RecordedBy (events ++ [.slotReleased id]) := by
  have hload : t'.load id = .error (.releasedSlot id) := load_eq_released_iff.2 ⟨rfl, ht.slot?_eq⟩
  refine hr.concat (fun _ => rfl) ht.others (fun tag => ?_) ?_ ?_
  · rw [hload]
    exact iff_of_false nofun nofun
  · exact iff_of_true rfl ht.slot?_eq
  · rw [ht.stats_live h h']
    exact Nat.add_right_comm 0 _ 1

/-- What is told of an operation keeps the record. -/
theorem append (hr : t.RecordedBy events) (htold : Tells D t t' told) (h : t.WellFormed)
    (h' : t'.WellFormed) : t'.RecordedBy (events ++ told) := by
  cases htold with
  | nothing ht =>
    rw [List.append_nil]
    exact hr.steady ht h h'
  | taken _ _ ht => exact hr.takes ht h h'
  | freed _ _ ht => exact hr.vacates ht h h'

end RecordedBy

end ValueBridge.Table
