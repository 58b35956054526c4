import Mathlib.Data.List.Induction
import Mathlib.Order.Bounds.Defs
import ValueBridge.Proofs.Table.Lifetime
import ValueBridge.Proofs.Table.Occupancy

/-!
# Recycling

A slot that was freed *waits* until it is handed out again (`Table.WaitsSince`). The pool has the
waiting slots, the one freed last at the front: this is what a run keeps (`exists_waiting`), so
that a store takes the slot freed last of those that wait.

As the table grows only if no slot waits, it has as many dynamic slots as were ever live at the
same time: the most at the end of a part of the run (`isGreatest_live`).

* `recycling_run_create`: both, for a table after any operations.
-/

namespace ValueBridge.Table

variable {t t' : Table} {op : Op} {ops : List Op} {r : Result} {id : UInt32} {k : Nat}

/-! ## Waiting slots -/

/-- The operation at the place frees the slot, and no later one hands it out. -/
def WaitsSince (t : Table) (ops : List Op) (k : Nat) (id : UInt32) : Prop :=
  ∃ before op after, ops = before ++ [op] ++ after ∧ before.length = k ∧
    (t.run before).Frees op id ∧
    (t.run (before ++ [op])).Throughout (fun t op => ¬t.HandsOut op id) after

theorem not_waitsSince_nil (t : Table) (k : Nat) (id : UInt32) : ¬t.WaitsSince [] k id := by
  rintro ⟨before, op, after, hops, _⟩
  rw [List.append_assoc, eq_comm, List.append_eq_nil_iff] at hops
  exact absurd hops.2 (List.cons_ne_nil op after)

theorem WaitsSince.lt_length (h : t.WaitsSince ops k id) : k < ops.length := by
  obtain ⟨before, op, after, rfl, rfl, _⟩ := h
  rw [List.length_append, List.length_append, List.length_singleton]
  omega

/-- After one operation more, those slots wait that it frees, and those of before that it does
    not hand out. -/
theorem waitsSince_concat : t.WaitsSince (ops ++ [op]) k id ↔
    (k = ops.length ∧ (t.run ops).Frees op id) ∨
      (t.WaitsSince ops k id ∧ ¬(t.run ops).HandsOut op id) := by
  constructor
  · rintro ⟨before, freeing, after, hops, rfl, hfrees, hafter⟩
    -- The slot was freed by the last operation, or by one before it.
    rcases after.eq_nil_or_concat with rfl | ⟨after, last, rfl⟩
    · rw [List.append_nil] at hops
      obtain ⟨rfl, ⟨⟩⟩ := List.append_inj' hops rfl
      exact .inl ⟨rfl, hfrees⟩
    · rw [List.concat_eq_append, ← List.append_assoc] at hops
      obtain ⟨rfl, ⟨⟩⟩ := List.append_inj' hops rfl
      rw [List.concat_eq_append] at hafter
      obtain ⟨hafter, hlast⟩ := Throughout.concat_iff.1 hafter
      rw [run_append t (before ++ [freeing])]
      exact .inr ⟨⟨before, freeing, after, rfl, rfl, hfrees, hafter⟩, hlast⟩
  · rintro (⟨rfl, hfrees⟩ | ⟨⟨before, freeing, after, rfl, rfl, hfrees, hafter⟩, hlast⟩)
    · exact ⟨ops, op, [], (List.append_nil _).symm, rfl, hfrees, trivial⟩
    · rw [run_append t (before ++ [freeing])] at hlast
      exact ⟨before, freeing, after ++ [op], List.append_assoc _ _ _, rfl, hfrees,
        Throughout.concat_iff.2 ⟨hafter, hlast⟩⟩

/-! ## The pool -/

/-- What an operation can do to the pool. -/
inductive PoolStep (t : Table) (op : Op) : List UInt32 → Prop
  /-- No slot of the pool is handed out, and none is freed. -/
  | keep : (∀ id ∈ t.pool, ¬t.HandsOut op id) → (∀ id, ¬t.Frees op id) → PoolStep t op t.pool
  /-- The first slot is handed out. -/
  | take {id : UInt32} {pool : List UInt32} : t.pool = id :: pool →
      (∀ id', t.HandsOut op id' ↔ id' = id) → (∀ id', ¬t.Frees op id') → PoolStep t op pool
  /-- A slot is freed. -/
  | put {id : UInt32} : (∀ id', ¬t.HandsOut op id') → (∀ id', t.Frees op id' ↔ id' = id) →
      PoolStep t op (id :: t.pool)

theorem poolStep_store (h : t.WellFormed) (v : Value) :
    t.PoolStep (.store v) (t.apply (.store v)).pool := by
  have hs := t.step (.store v)
  generalize hr : t.result (.store v) = r, t.apply (.store v) = t' at hs
  cases hs with
  | immediate himm =>
    refine .keep (fun id hmem => ?_) (t.not_frees_store v)
    rw [handsOut_store_iff hr]
    exact fun hslot => absurd (h.lastSlot_lt_of_free (h.mem_pool_iff.1 hmem))
      (UInt32.not_lt.2 (le_lastSlot_of_immediate? himm hslot))
  | reuse _ hpool =>
    refine .take hpool (fun id' => ?_) (t.not_frees_store v)
    rw [handsOut_store_iff hr, Ref.slot?_boxed, Option.some_inj, eq_comm]
  | grow _ hpool => exact .keep (hpool ▸ List.forall_mem_nil _) (t.not_frees_store v)
  | full _ hpool => exact .keep (hpool ▸ List.forall_mem_nil _) (t.not_frees_store v)

theorem poolStep_release (t : Table) (id : UInt32) :
    t.PoolStep (.release id) (t.apply (.release id)).pool := by
  have hs := t.step (.release id)
  generalize hr : t.result (.release id) = r, t.apply (.release id) = t' at hs
  have hnot (id' : UInt32) (hne : r ≠ .released .freed) : ¬t.Frees (.release id) id' :=
    fun hfrees => hne (hr ▸ (frees_release_iff.1 hfrees).2)
  cases hs with
  | releaseSingleton | releaseDead | unclaim =>
    exact .keep (fun _ _ => t.not_handsOut_release _ id) fun id' => hnot id' nofun
  | free =>
    refine .put (fun id' => t.not_handsOut_release id' id) fun id' => ?_
    rw [frees_release_iff, hr, and_iff_left rfl]

theorem poolStep_retain (t : Table) (id : UInt32) :
    t.PoolStep (.retain id) (t.apply (.retain id)).pool := by
  have hs := t.step (.retain id)
  generalize t.result (.retain id) = r, t.apply (.retain id) = t' at hs
  cases hs <;>
    exact .keep (fun id' _ => t.not_handsOut_retain id' id) fun id' => t.not_frees_retain id' id

theorem poolStep (h : t.WellFormed) (op : Op) : t.PoolStep op (t.apply op).pool := by
  cases op with
  | store v => exact poolStep_store h v
  | retain id => exact t.poolStep_retain id
  | release id => exact t.poolStep_release id

/-- The pool holds the waiting slots. With each of them stands since when it waits, and the one
    freed last is at the front. -/
structure Waiting (t : Table) (ops : List Op) (waits : List (Nat × UInt32)) : Prop where
  pool_eq : (t.run ops).pool = waits.map Prod.snd
  sorted : waits.Pairwise fun later earlier => earlier.1 < later.1
  mem_iff : ∀ {k : Nat} {id : UInt32}, (k, id) ∈ waits ↔ t.WaitsSince ops k id

namespace Waiting

variable {waits : List (Nat × UInt32)}

theorem mem_pool (hw : t.Waiting ops waits) (hmem : (k, id) ∈ waits) : id ∈ (t.run ops).pool :=
  hw.pool_eq ▸ List.mem_map_of_mem hmem

/-- An operation keeps account of the waiting slots. -/
theorem concat (hw : t.Waiting ops waits) (h : (t.run ops).WellFormed) (op : Op) :
    ∃ waits, t.Waiting (ops ++ [op]) waits := by
  have hstep := poolStep h op
  rw [← run_concat] at hstep
  generalize hpool : (t.run (ops ++ [op])).pool = pool at hstep
  cases hstep with
  | keep hhands hfrees =>
    refine ⟨waits, hpool.trans hw.pool_eq, hw.sorted, fun {k id} => ?_⟩
    rw [waitsSince_concat, ← hw.mem_iff]
    constructor
    · exact fun hmem => .inr ⟨hmem, hhands id (hw.mem_pool hmem)⟩
    · rintro (⟨_, hfreed⟩ | ⟨hmem, _⟩)
      · exact absurd hfreed (hfrees id)
      · exact hmem
  | @take first rest hfirst hhands hfrees =>
    rw [hw.pool_eq, List.map_eq_cons_iff] at hfirst
    obtain ⟨⟨k₀, _⟩, waits, rfl, rfl, hrest⟩ := hfirst
    have hnodup := h.pool_nodup
    rw [hw.pool_eq, List.map_cons, List.nodup_cons] at hnodup
    refine ⟨waits, hpool.trans hrest.symm, (List.pairwise_cons.1 hw.sorted).2, fun {k id} => ?_⟩
    rw [waitsSince_concat, ← hw.mem_iff, hhands, List.mem_cons, Prod.mk.injEq]
    constructor
    · -- No slot waits twice, so that the one that is handed out is gone.
      intro hmem
      refine .inr ⟨.inr hmem, fun hid => hnodup.1 ?_⟩
      exact hid ▸ List.mem_map_of_mem (f := Prod.snd) hmem
    · rintro (⟨_, hfreed⟩ | ⟨⟨_, hid⟩ | hmem, hne⟩)
      · exact absurd hfreed (hfrees id)
      · exact (hne hid).elim
      · exact hmem
  | @put freed hhands hfrees =>
    refine ⟨(ops.length, freed) :: waits, ?_, ?_, fun {k id} => ?_⟩
    · rw [hpool, hw.pool_eq, List.map_cons]
    · refine List.pairwise_cons.2 ⟨fun (k, id) hmem => ?_, hw.sorted⟩
      exact (hw.mem_iff.1 hmem).lt_length
    · rw [waitsSince_concat, ← hw.mem_iff, List.mem_cons, Prod.mk.injEq, hfrees]
      exact or_congr_right (and_iff_left (hhands id)).symm

end Waiting

/-- After any operations, the pool holds the waiting slots, the one freed last at the front. -/
theorem exists_waiting (global runtime : Value) (ops : List Op) :
    ∃ waits, (create global runtime).Waiting ops waits := by
  induction ops using List.reverseRecOn with
  | nil => exact ⟨[], rfl, .nil, iff_of_false List.not_mem_nil (not_waitsSince_nil _ _ _)⟩
  | append_singleton ops op ih =>
    obtain ⟨waits, hw⟩ := ih
    exact hw.concat (.run_create global runtime ops) op

/-! ## The size -/

/-- An operation adds a slot only if the pool is empty, and it is empty still. -/
theorem Step.size (hs : t.Step op r t') :
    t'.slots.size = t.slots.size ∨
      t'.slots.size = t.slots.size + 1 ∧ t'.pool = [] := by
  cases hs with
  | grow _ hpool => exact .inr ⟨Array.size_push _, hpool⟩
  | reuse | claim | unclaim | free => exact .inl (size_put t _ _)
  | _ => exact .inl rfl

/-- There are as many dynamic slots as there were live ones at the most. -/
theorem isGreatest_live (global runtime : Value) (ops : List Op) :
    IsGreatest {n | ∃ before, before <+: ops ∧
      ((create global runtime).run before).liveIds.length = n}
      (((create global runtime).run ops).slots.size - Singleton.count) := by
  induction ops using List.reverseRecOn with
  | nil =>
    refine ⟨⟨[], List.prefix_rfl, rfl⟩, ?_⟩
    rintro _ ⟨before, hbefore, rfl⟩
    rw [List.prefix_nil.1 hbefore]
    exact Nat.le_refl 0
  | append_singleton ops op ih =>
    have h : ((create global runtime).run (ops ++ [op])).WellFormed := .run_create _ _ _
    have hcount := h.live_add_pooled
    obtain ⟨⟨before, hbefore, hmost⟩, hbound⟩ := ih
    have hsize := (((create global runtime).run ops).step op).size
    rw [← run_concat] at hsize
    rcases hsize with hsize | ⟨hsize, hpool⟩
    · -- The table has its size still, and no more live slots than slots.
      rw [hsize] at hcount ⊢
      refine ⟨⟨before, List.prefix_concat_iff.2 (.inr hbefore), hmost⟩, ?_⟩
      rintro _ ⟨before, hbefore, rfl⟩
      rcases List.prefix_concat_iff.1 hbefore with rfl | hbefore
      · omega
      · exact hbound ⟨before, hbefore, rfl⟩
    · -- No slot waits, so that all are live.
      rw [hpool, List.length_nil] at hcount
      refine ⟨⟨ops ++ [op], List.prefix_rfl, by omega⟩, ?_⟩
      rintro _ ⟨before, hbefore, rfl⟩
      rcases List.prefix_concat_iff.1 hbefore with rfl | hbefore
      · omega
      · have := hbound ⟨before, hbefore, rfl⟩
        omega

/-! ## Recycling -/

/-- After any operations on a new table, a value that needs a slot takes the one freed last of
    those that wait, if any waits, and the table keeps its size; else it takes a new slot at the
    end, if one is left. The table has as many dynamic slots as were ever live at the same
    time. -/
theorem recycling_run_create (global runtime : Value) (ops : List Op) :
    let fresh := create global runtime
    let t := fresh.run ops
    (∀ v, immediate? v = none →
      (∃ k id t', fresh.WaitsSince ops k id ∧ (∀ k' id', fresh.WaitsSince ops k' id' → k' ≤ k) ∧
        t.store v = .ok (.boxed id (.ofValue v), t') ∧ t'.slots.size = t.slots.size) ∨
      (∀ k id, ¬fresh.WaitsSince ops k id) ∧
        ((∃ id t', t.store v = .ok (.boxed id (.ofValue v), t') ∧ id.toNat = t.slots.size ∧
          t'.slots.size = t.slots.size + 1) ∨
        (t.store v = .error .tableFull ∧ maxSlots ≤ t.slots.size))) ∧
    IsGreatest {n | ∃ before, before <+: ops ∧ (fresh.run before).liveIds.length = n}
      (t.stats.slots - Singleton.count) := by
  intro fresh t
  refine ⟨fun v hv => ?_, isGreatest_live global runtime ops⟩
  obtain ⟨waits, hwaits, hsorted, hmem⟩ := exists_waiting global runtime ops
  have hs := t.step (.store v)
  generalize hr : t.result (.store v) = r, ht : t.apply (.store v) = t' at hs
  cases hs with
  | immediate himm =>
    rw [hv] at himm
    cases himm
  | reuse _ hpool =>
    rw [hwaits, List.map_eq_cons_iff] at hpool
    obtain ⟨⟨k, id⟩, waits, rfl, rfl, _⟩ := hpool
    refine .inl ⟨k, id, _, hmem.1 List.mem_cons_self, fun k' id' hlater => ?_,
      ht ▸ store_of_result_stored hr, ?_⟩
    · rcases List.mem_cons.1 (hmem.2 hlater) with hfirst | hrest
      · exact Nat.le_of_eq (congrArg Prod.fst hfirst)
      · exact Nat.le_of_lt ((List.pairwise_cons.1 hsorted).1 _ hrest)
    · exact size_put t id _
  | grow _ hpool hsize =>
    rw [hwaits, List.map_eq_nil_iff] at hpool
    subst hpool
    exact .inr ⟨fun _ _ hlater => List.not_mem_nil (hmem.2 hlater),
      .inl ⟨_, _, ht ▸ store_of_result_stored hr, toNat_ofNat_size hsize, Array.size_push _⟩⟩
  | full _ hpool hsize =>
    rw [hwaits, List.map_eq_nil_iff] at hpool
    subst hpool
    exact .inr ⟨fun _ _ hlater => List.not_mem_nil (hmem.2 hlater),
      .inr ⟨store_of_result_failed hr, hsize⟩⟩

end ValueBridge.Table
