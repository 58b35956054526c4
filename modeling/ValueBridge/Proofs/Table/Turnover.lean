import ValueBridge.Proofs.Table.Lifetime
import ValueBridge.Proofs.Table.Occupancy

/-!
# The turnover of slots

An operation takes one slot, frees one, or leaves every slot to what it was, but for the claims on
it (`Table.Turnover`, `Table.WellFormed.turnover`). The number of live slots goes by one up or down
with it, or stays (`Takes.stats_live`, `Vacates.stats_live`, `Steady.stats_live`).
-/

namespace ValueBridge.Table

/-- Between the tables, the value takes a slot of its own, and nothing else changes. -/
structure Takes (t : Table) (id : UInt32) (v : Value) (t' : Table) : Prop where
  lastSlot_lt : Singleton.lastSlot < id
  dead : t.isLive id = false
  slot?_eq : t'.slot? id = some (.live v 1)
  others : ∀ id', id' ≠ id → t'.slot? id' = t.slot? id'

/-- Between the tables, the last claim on the slot goes. It waits at the front of the pool, and
    nothing else changes. -/
structure Vacates (t : Table) (id : UInt32) (t' : Table) : Prop where
  lastSlot_lt : Singleton.lastSlot < id
  live : t.isLive id = true
  slot?_eq : t'.slot? id = some .free
  pool_eq : t'.pool = id :: t.pool
  others : ∀ id', id' ≠ id → t'.slot? id' = t.slot? id'

/-- Between the tables, no slot is taken and none is freed. -/
structure Steady (t t' : Table) : Prop where
  load_iff : ∀ {id v}, t'.load id = .ok v ↔ t.load id = .ok v
  free_iff : ∀ {id}, t'.slot? id = some .free ↔ t.slot? id = some .free

/-- What an operation comes to, with the slot that it takes or frees. -/
inductive Turnover (t : Table) : Op → Result → Table → Prop
  /-- A value that needs a slot takes one. -/
  | taken {v : Value} {id : UInt32} {t' : Table} : immediate? v = none → t.Takes id v t' →
      Turnover t (.store v) (.stored (.boxed id (.ofValue v))) t'
  /-- The release of the last claim frees a slot. -/
  | freed {id : UInt32} {t' : Table} : t.Vacates id t' →
      Turnover t (.release id) (.released .freed) t'
  /-- A value that needs none is stored. -/
  | immediate {v : Value} {ref : Ref} : immediate? v = some ref →
      Turnover t (.store v) (.stored ref) t
  /-- The operation fails. -/
  | failed {op : Op} {fault : BridgeFault} : Turnover t op (.failed fault) t
  /-- A claim more. -/
  | retained {id : UInt32} {claims : Nat} {t' : Table} : t.Steady t' →
      Turnover t (.retain id) (.retained claims) t'
  /-- A claim less, on a slot that stays live, or a release of what is never freed or is not
      live. -/
  | released {id : UInt32} {release : Release} {t' : Table} : release ≠ .freed → t.Steady t' →
      Turnover t (.release id) (.released release) t'

variable {t t' : Table} {op : Op} {r : Result} {id : UInt32} {v : Value}

theorem Steady.refl (t : Table) : t.Steady t :=
  ⟨Iff.rfl, Iff.rfl⟩

/-- Another number of claims leaves the slot to its value. -/
theorem steady_put_live {claims : Nat} (hslot : t.slot? id = some (.live v claims)) (n : Nat) :
    t.Steady (t.put id (.live v n)) where
  load_iff := by
    intro id' w
    rw [load_eq_ok_iff, load_eq_ok_iff, slot?_put hslot]
    by_cases hid : id' = id
    · subst hid
      simp [hslot]
    · rw [if_neg hid]
  free_iff := by
    intro id'
    rw [slot?_put hslot]
    by_cases hid : id' = id
    · subst hid
      simp [hslot]
    · rw [if_neg hid]

namespace WellFormed

/-- The slot at the front of the pool is taken. -/
theorem takes_reuse {pool : List UInt32} (h : t.WellFormed) (hpool : t.pool = id :: pool)
    (v : Value) : t.Takes id v { t.put id (.live v 1) with pool } where
  lastSlot_lt := h.lastSlot_lt_of_free (h.free_of_pool_eq hpool)
  dead := isLive_eq_false_of_free (h.free_of_pool_eq hpool)
  slot?_eq := by rw [slot?_withPool, slot?_put (h.free_of_pool_eq hpool), if_pos rfl]
  others := by
    intro id' hid
    rw [slot?_withPool, slot?_put_of_ne hid]

/-- The slot after the last one is taken. -/
theorem takes_grow (h : t.WellFormed) (hsize : t.slots.size < maxSlots) (v : Value) :
    t.Takes (UInt32.ofNat t.slots.size) v { t with slots := t.slots.push (.live v 1) } where
  lastSlot_lt := by
    rw [lastSlot_lt_iff, toNat_ofNat_size hsize]
    exact h.count_le_size
  dead := by
    rw [isLive, slot?_eq_none_iff.2 (Nat.le_of_eq (toNat_ofNat_size hsize).symm)]
  slot?_eq := by rw [slot?_push, if_pos (toNat_ofNat_size hsize)]
  others := by
    intro id' hid
    rw [slot?_push, if_neg]
    rintro hsize'
    exact hid (by rw [← hsize', UInt32.ofNat_toNat])

/-- An operation takes a slot, frees one, or leaves all to what they were. -/
theorem turnover (h : t.WellFormed) (op : Op) : t.Turnover op (t.result op) (t.apply op) := by
  have hs := t.step op
  generalize t.result op = r, t.apply op = t' at hs
  cases hs with
  | immediate himm => exact .immediate himm
  | reuse himm hpool => exact .taken himm (h.takes_reuse hpool _)
  | grow himm _ hsize => exact .taken himm (h.takes_grow hsize _)
  | full | retainFree | retainUnknown => exact .failed
  | retainSingleton => exact .retained (.refl t)
  | claim _ hslot => exact .retained (steady_put_live hslot _)
  | releaseSingleton | releaseDead => exact .released nofun (.refl t)
  | unclaim _ hslot => exact .released nofun (steady_put_live hslot _)
  | free hid hslot =>
    refine .freed ⟨hid, isLive_iff.2 ⟨_, _, hslot⟩, ?_, rfl, fun id' hne => ?_⟩
    · rw [slot?_withPool, slot?_put hslot, if_pos rfl]
    · rw [slot?_withPool, slot?_put_of_ne hne]

end WellFormed

/-! ## Storing and freeing -/

/-- A value that needs a slot takes one. -/
theorem takes_of_store {ref : Ref} (h : t.WellFormed) (hv : immediate? v = none)
    (hstore : t.store v = .ok (ref, t')) :
    ∃ id, ref = .boxed id (.ofValue v) ∧ t.Takes id v t' := by
  have hs := h.turnover (.store v)
  rw [result_store hstore, apply_store hstore] at hs
  cases hs with
  | taken _ ht => exact ⟨_, rfl, ht⟩
  | immediate himm =>
    rw [hv] at himm
    cases himm

/-- Whatever is stored, a live slot stays as it is. -/
theorem slot?_of_store {ref : Ref} {w : Value} {claims : Nat} (h : t.WellFormed)
    (hlive : t.slot? id = some (.live w claims)) (hstore : t.store v = .ok (ref, t')) :
    t'.slot? id = some (.live w claims) := by
  have hs := h.turnover (.store v)
  rw [result_store hstore, apply_store hstore] at hs
  cases hs with
  | @taken _ id' _ _ ht =>
    rw [ht.others id ?_, hlive]
    rintro rfl
    have hdead := ht.dead
    rw [isLive_iff.2 ⟨w, claims, hlive⟩] at hdead
    cases hdead
  | immediate => exact hlive

/-- A slot with one claim is freed by a release. -/
theorem vacates_of_release (h : t.WellFormed) (hid : Singleton.lastSlot < id)
    (hlive : t.slot? id = some (.live v 1)) : t.Vacates id (t.release id).2 := by
  have hfreed : (t.release id).1 = .freed := by
    rw [release, if_neg (UInt32.not_le.2 hid), hlive]
    rfl
  have hs := h.turnover (.release id)
  rw [result, apply, perform] at hs
  generalize t.release id = released at hs hfreed
  obtain ⟨release, table⟩ := released
  obtain rfl : release = .freed := hfreed
  cases hs with
  | freed ht => exact ht
  | released hne => exact absurd rfl hne

/-! ## How many slots are live -/

/-- The live slots are those of before and one that was not. -/
theorem perm_liveIds (h : t.WellFormed) (h' : t'.WellFormed) (hid : Singleton.lastSlot < id)
    (hdead : t.isLive id = false) (hlive : t'.isLive id = true)
    (hothers : ∀ id', id' ≠ id → t'.isLive id' = t.isLive id') :
    t'.liveIds.Perm (id :: t.liveIds) := by
  have hnew : id ∉ t.liveIds := fun hmem => by
    rw [(h.mem_liveIds.1 hmem).2] at hdead
    cases hdead
  refine (List.perm_ext_iff_of_nodup h'.nodup_liveIds (h.nodup_liveIds.cons hnew)).2 fun id' => ?_
  rw [List.mem_cons, h'.mem_liveIds, h.mem_liveIds]
  by_cases heq : id' = id
  · rw [heq]
    exact iff_of_true ⟨hid, hlive⟩ (.inl rfl)
  · rw [or_iff_right heq, hothers id' heq]

theorem isLive_congr (h : t'.slot? id = t.slot? id) : t'.isLive id = t.isLive id := by
  rw [isLive, isLive, h]

theorem Takes.stats_live (ht : t.Takes id v t') (h : t.WellFormed) (h' : t'.WellFormed) :
    t'.stats.live = t.stats.live + 1 := by
  have hperm := perm_liveIds h h' ht.lastSlot_lt ht.dead (isLive_iff.2 ⟨v, 1, ht.slot?_eq⟩)
    fun id' hid => isLive_congr (ht.others id' hid)
  rw [h.stats_live, h'.stats_live, hperm.length_eq, List.length_cons]

theorem Vacates.stats_live (ht : t.Vacates id t') (h : t.WellFormed) (h' : t'.WellFormed) :
    t.stats.live = t'.stats.live + 1 := by
  have hperm := perm_liveIds h' h ht.lastSlot_lt (isLive_eq_false_of_free ht.slot?_eq) ht.live
    fun id' hid => (isLive_congr (ht.others id' hid)).symm
  rw [h.stats_live, h'.stats_live, hperm.length_eq, List.length_cons]

theorem Steady.isLive_eq (ht : t.Steady t') (id : UInt32) : t'.isLive id = t.isLive id := by
  rw [Bool.eq_iff_iff]
  constructor
  · intro hlive
    obtain ⟨v, hload⟩ := load_of_isLive hlive
    exact isLive_of_load (ht.load_iff.1 hload)
  · intro hlive
    obtain ⟨v, hload⟩ := load_of_isLive hlive
    exact isLive_of_load (ht.load_iff.2 hload)

theorem Steady.stats_live (ht : t.Steady t') (h : t.WellFormed) (h' : t'.WellFormed) :
    t'.stats.live = t.stats.live := by
  have hperm : t'.liveIds.Perm t.liveIds := by
    refine (List.perm_ext_iff_of_nodup h'.nodup_liveIds h.nodup_liveIds).2 fun id => ?_
    rw [h'.mem_liveIds, h.mem_liveIds, ht.isLive_eq]
  rw [h.stats_live, h'.stats_live, hperm.length_eq]

/-! ## Values that take slots -/

/-- Whether a value takes a slot when it is stored. -/
def takesSlot : Value → Bool
  | .bool _ | .string _ | .symbol _ | .object _ | .function _ => true
  | .number _ | .null | .undefined => false

theorem immediate?_eq_none_iff : immediate? v = none ↔ takesSlot v = true := by
  cases v <;> simp [immediate?, takesSlot]

/-- One slot more is live if the value that is stored takes one. -/
theorem stats_live_of_store {ref : Ref} (h : t.WellFormed) (hstore : t.store v = .ok (ref, t')) :
    t'.stats.live = t.stats.live + if takesSlot v then 1 else 0 := by
  have h' := h.of_step (step_of_store hstore)
  have hs := h.turnover (.store v)
  rw [result_store hstore, apply_store hstore] at hs
  cases hs with
  | taken himm ht => rw [if_pos (immediate?_eq_none_iff.1 himm), ht.stats_live h h']
  | immediate himm =>
    have hv : ¬takesSlot v = true := by
      rw [← immediate?_eq_none_iff, himm]
      exact nofun
    rw [if_neg hv, Nat.add_zero]

end ValueBridge.Table
