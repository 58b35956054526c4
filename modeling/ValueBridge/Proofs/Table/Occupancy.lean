import Mathlib.Data.List.Nodup
import ValueBridge.Proofs.Table.WellFormed

/-!
# The occupancy of a table

The slots that no singleton has are *dynamic*: each is live or waits in the pool, and
only once (`WellFormed.perm_pool`), so that the counts of an occupancy add up
(`WellFormed.live_add_pooled`).

* `Table.occupancy_run_create`: after any operations on a new table, the table accounts for its
  slots (`Table.AccountsForSlots`). The pool holds exactly the free ones, whoever asked for what,
  and the occupancy counts exactly the live ones.
-/

namespace ValueBridge.Table

variable {t : Table} {id : UInt32}

/-- The ids of the dynamic slots, in order. -/
def dynamicIds (t : Table) : List UInt32 :=
  (List.range' Singleton.count (t.slots.size - Singleton.count)).map UInt32.ofNat

/-- The ids of the dynamic slots that are live, in order. -/
def liveIds (t : Table) : List UInt32 :=
  t.dynamicIds.filter t.isLive

theorem length_dynamicIds (t : Table) :
    t.dynamicIds.length = t.slots.size - Singleton.count := by
  rw [dynamicIds, List.length_map, List.length_range']

namespace WellFormed

theorem map_toNat_dynamicIds (h : t.WellFormed) :
    t.dynamicIds.map UInt32.toNat =
      List.range' Singleton.count (t.slots.size - Singleton.count) := by
  rw [dynamicIds, List.map_map]
  refine (List.map_congr_left fun i hi => ?_).trans (List.map_id _)
  rw [List.mem_range'_1, Nat.add_sub_cancel' h.count_le_size] at hi
  exact UInt32.toNat_ofNat_of_lt' (Nat.lt_of_lt_of_le hi.2 h.size_le)

theorem nodup_dynamicIds (h : t.WellFormed) : t.dynamicIds.Nodup :=
  .of_map UInt32.toNat (h.map_toNat_dynamicIds ▸ List.nodup_range')

theorem mem_dynamicIds (h : t.WellFormed) :
    id ∈ t.dynamicIds ↔ Singleton.count ≤ id.toNat ∧ id.toNat < t.slots.size := by
  rw [← List.mem_map_of_injective fun _ _ => UInt32.toNat_inj.1, h.map_toNat_dynamicIds,
    List.mem_range'_1, Nat.add_sub_cancel' h.count_le_size]

theorem mem_liveIds (h : t.WellFormed) :
    id ∈ t.liveIds ↔ Singleton.lastSlot < id ∧ t.isLive id = true := by
  rw [liveIds, List.mem_filter, h.mem_dynamicIds, lastSlot_lt_iff]
  refine ⟨fun ⟨hid, hlive⟩ => ⟨hid.1, hlive⟩, fun ⟨hid, hlive⟩ => ⟨⟨hid, ?_⟩, hlive⟩⟩
  obtain ⟨v, claims, hslot⟩ := isLive_iff.1 hlive
  exact lt_size_of_slot? hslot

theorem nodup_liveIds (h : t.WellFormed) : t.liveIds.Nodup :=
  h.nodup_dynamicIds.filter _

/-- The pool holds the free slots. -/
theorem mem_pool_iff_free (h : t.WellFormed) :
    id ∈ t.pool ↔
      Singleton.count ≤ id.toNat ∧ id.toNat < t.slots.size ∧ t.slot? id = some .free := by
  refine h.mem_pool_iff.trans ⟨fun hfree => ?_, fun hfree => hfree.2.2⟩
  exact ⟨lastSlot_lt_iff.1 (h.lastSlot_lt_of_free hfree), lt_size_of_slot? hfree, hfree⟩

/-- The dynamic slots that are not live wait in the pool, each once. -/
theorem perm_pool (h : t.WellFormed) :
    (t.dynamicIds.filter fun id => !t.isLive id).Perm t.pool := by
  refine (List.perm_ext_iff_of_nodup (h.nodup_dynamicIds.filter _) h.pool_nodup).2 fun id => ?_
  rw [List.mem_filter, h.mem_dynamicIds, h.mem_pool_iff_free, Bool.not_eq_true', and_assoc]
  refine and_congr_right fun _ => and_congr_right fun hid => ?_
  refine ⟨fun hdead => (live_or_free hid).resolve_left ?_, isLive_eq_false_of_free⟩
  rw [hdead]
  exact Bool.false_ne_true

/-- Singletons, live slots and free ones are all there are. -/
theorem live_add_pooled (h : t.WellFormed) :
    Singleton.count + t.liveIds.length + t.pool.length = t.slots.size := by
  -- The dynamic slots are live or not, and those that are not are as many as the pool has.
  have hsplit := t.dynamicIds.length_eq_length_filter_add t.isLive
  rw [h.perm_pool.length_eq, length_dynamicIds] at hsplit
  have := h.count_le_size
  rw [liveIds]
  omega

theorem stats_live (h : t.WellFormed) : t.stats.live = t.liveIds.length := by
  have := h.live_add_pooled
  simp only [stats]
  omega

end WellFormed

/-- The pool and the slots of a table agree. The pool holds the free slots, each once, and these
    are dynamic; the singletons are live, and every live slot has a claim. So the slot that a store
    takes from the pool is within the table and free, the occupancy counts the live slots without
    falling below none, and a load is refused for the slots of the pool and for the ids past the
    end. -/
structure AccountsForSlots (t : Table) : Prop where
  pool_nodup : t.pool.Nodup
  mem_pool_iff : ∀ id, id ∈ t.pool ↔
    Singleton.count ≤ id.toNat ∧ id.toNat < t.slots.size ∧ t.slot? id = some .free
  singleton_live : ∀ id, id ≤ Singleton.lastSlot → t.isLive id = true
  claims_pos : ∀ id v claims, Singleton.lastSlot < id → t.slot? id = some (.live v claims) →
    1 ≤ claims
  pool_front : ∀ id pool, t.pool = id :: pool →
    id.toNat < t.slots.size ∧ t.isLive id = false ∧ Singleton.lastSlot < id
  count_le_size : Singleton.count ≤ t.slots.size
  length_pool_le : t.pool.length ≤ t.slots.size - Singleton.count
  mem_liveIds_iff : ∀ id, id ∈ t.liveIds ↔ Singleton.lastSlot < id ∧ t.isLive id = true
  liveIds_nodup : t.liveIds.Nodup
  stats_live : t.stats.live = t.liveIds.length
  released_iff : ∀ id id', t.load id = .error (.releasedSlot id') ↔ id' = id ∧ id ∈ t.pool
  unknown_iff : ∀ id id', t.load id = .error (.unknownSlot id') ↔
    id' = id ∧ t.slots.size ≤ id.toNat

theorem WellFormed.accountsForSlots (h : t.WellFormed) : t.AccountsForSlots where
  pool_nodup := h.pool_nodup
  mem_pool_iff _ := h.mem_pool_iff_free
  singleton_live _ := h.singleton_live
  claims_pos _ _ _ _ := h.claims_pos
  pool_front id pool hpool := by
    have hfree := h.free_of_pool_eq hpool
    exact ⟨lt_size_of_slot? hfree, isLive_eq_false_of_free hfree, h.lastSlot_lt_of_free hfree⟩
  count_le_size := h.count_le_size
  length_pool_le := by
    have := h.live_add_pooled
    omega
  mem_liveIds_iff _ := h.mem_liveIds
  liveIds_nodup := h.nodup_liveIds
  stats_live := h.stats_live
  released_iff id id' := by rw [load_eq_released_iff, h.mem_pool_iff]
  unknown_iff _ _ := load_eq_unknown_iff

/-- After any operations on a new table, the pool and the slots agree, and no slot is lost or
    counted twice. -/
theorem occupancy_run_create (global runtime : Value) (ops : List Op) :
    ((create global runtime).run ops).AccountsForSlots :=
  (WellFormed.run_create global runtime ops).accountsForSlots

end ValueBridge.Table
