import ValueBridge.Proofs.Table.Step

/-!
# Well-formed tables

A table keeps two accounts of its free slots, the slots themselves and the pool. They
agree in a *well-formed* table, in which moreover the singletons are in place, every
live slot has a claim, and the ids are words.

A new table is well-formed (`WellFormed.create`), and an operation keeps it so
(`WellFormed.apply`), whatever it is asked for; hence so is a table after any operations
(`WellFormed.run_create`).

In a well-formed table a slot has a life of its own: an operation keeps the value of a
live slot or frees it (`Step.of_live`), and keeps a free slot or hands it out
(`Step.of_free`).
-/

namespace ValueBridge.Table

/-- The slots and the pool of the table agree. -/
structure WellFormed (t : Table) : Prop where
  size_le : t.slots.size ≤ maxSlots
  singleton_live : ∀ {id : UInt32}, id ≤ Singleton.lastSlot → t.isLive id = true
  claims_pos : ∀ {id : UInt32} {v : Value} {claims : Nat},
    t.slot? id = some (.live v claims) → 1 ≤ claims
  pool_nodup : t.pool.Nodup
  mem_pool_iff : ∀ {id : UInt32}, id ∈ t.pool ↔ t.slot? id = some .free

variable {t t' : Table} {op : Op} {r : Result} {id : UInt32} {v : Value} {claims : Nat}

theorem lastSlot_lt_iff : Singleton.lastSlot < id ↔ Singleton.count ≤ id.toNat :=
  UInt32.lt_iff_toNat_lt

theorem isLive_eq_false_of_free (hfree : t.slot? id = some .free) : t.isLive id = false := by
  rw [isLive, hfree]

/-- A slot within the table is live or free. -/
theorem live_or_free (hid : id.toNat < t.slots.size) :
    t.isLive id = true ∨ t.slot? id = some .free := by
  have hslot : t.slot? id = some t.slots[id.toNat] := Array.getElem?_eq_getElem hid
  cases hs : t.slots[id.toNat] with
  | live v claims => exact .inl (isLive_iff.2 ⟨v, claims, hs ▸ hslot⟩)
  | free => exact .inr (hs ▸ hslot)

namespace WellFormed

/-- The singletons have their slots. -/
theorem count_le_size (h : t.WellFormed) : Singleton.count ≤ t.slots.size := by
  obtain ⟨v, claims, hlive⟩ := isLive_iff.1 (h.singleton_live (UInt32.le_refl Singleton.lastSlot))
  exact lt_size_of_slot? hlive

/-- A slot that is free is none of a singleton. -/
theorem lastSlot_lt_of_free (h : t.WellFormed) (hfree : t.slot? id = some .free) :
    Singleton.lastSlot < id := by
  refine UInt32.not_le.1 fun hid => ?_
  obtain ⟨v, claims, hlive⟩ := isLive_iff.1 (h.singleton_live hid)
  rw [hlive] at hfree
  cases hfree

/-- The slot that is taken from the pool is free. -/
theorem free_of_pool_eq {pool : List UInt32} (h : t.WellFormed) (hpool : t.pool = id :: pool) :
    t.slot? id = some .free :=
  h.mem_pool_iff.1 (hpool ▸ List.mem_cons_self)

end WellFormed

/-! ## The life of a slot -/

/-- Another number of claims keeps the value of every live slot. -/
theorem live_put_live {id' : UInt32} {v' : Value} {claims' : Nat}
    (hslot : t.slot? id' = some (.live v' claims')) (n : Nat)
    (hlive : t.slot? id = some (.live v claims)) :
    ∃ claims, (t.put id' (.live v' n)).slot? id = some (.live v claims) := by
  rw [slot?_put hslot]
  by_cases hid : id = id'
  · subst hid
    rw [hslot] at hlive
    cases hlive
    exact ⟨n, if_pos rfl⟩
  · exact ⟨claims, by rw [if_neg hid, hlive]⟩

/-- Another number of claims keeps every free slot. -/
theorem free_put_live {id' : UInt32} {v' : Value} {claims' : Nat}
    (hslot : t.slot? id' = some (.live v' claims')) (n : Nat) (hfree : t.slot? id = some .free) :
    (t.put id' (.live v' n)).slot? id = some .free := by
  have hne : id ≠ id' := by
    rintro rfl
    rw [hslot] at hfree
    cases hfree
  rw [slot?_put hslot, if_neg hne, hfree]

/-- An operation keeps the value of a live slot, unless it is the release that frees
    the slot. -/
theorem Step.of_live (hs : t.Step op r t') (h : t.WellFormed)
    (hlive : t.slot? id = some (.live v claims)) :
    (∃ claims, t'.slot? id = some (.live v claims)) ∨
      (op = .release id ∧ r = .released .freed ∧ Singleton.lastSlot < id) := by
  cases hs with
  | immediate | full | retainSingleton | retainFree | retainUnknown | releaseSingleton
  | releaseDead => exact .inl ⟨claims, hlive⟩
  | @reuse _ id' pool _ hpool =>
    -- The pool holds free slots alone, so that it is another slot that is taken.
    have hfree := h.free_of_pool_eq hpool
    have hne : id ≠ id' := by
      rintro rfl
      rw [hlive] at hfree
      cases hfree
    refine .inl ⟨claims, ?_⟩
    rw [slot?_withPool, slot?_put_of_ne hne, hlive]
  | grow =>
    refine .inl ⟨claims, ?_⟩
    rw [slot?_push, if_neg (Nat.ne_of_lt (lt_size_of_slot? hlive)), hlive]
  | claim _ hslot => exact .inl (live_put_live hslot _ hlive)
  | unclaim _ hslot => exact .inl (live_put_live hslot _ hlive)
  | @free id' v' claims' hlast hslot =>
    by_cases hid : id = id'
    · subst hid
      exact .inr ⟨rfl, rfl, hlast⟩
    · refine .inl ⟨claims, ?_⟩
      rw [slot?_withPool, slot?_put_of_ne hid, hlive]

/-- An operation keeps a free slot, unless it is the store that hands it out. -/
theorem Step.of_free (hs : t.Step op r t') (hfree : t.slot? id = some .free) :
    t'.slot? id = some .free ∨ ∃ v, op = .store v ∧ r = .stored (.boxed id (.ofValue v)) := by
  cases hs with
  | immediate | full | retainSingleton | retainFree | retainUnknown | releaseSingleton
  | releaseDead => exact .inl hfree
  | @reuse v' id' pool _ hpool =>
    by_cases hid : id = id'
    · subst hid
      exact .inr ⟨v', rfl, rfl⟩
    · refine .inl ?_
      rw [slot?_withPool, slot?_put_of_ne hid, hfree]
  | grow =>
    refine .inl ?_
    rw [slot?_push, if_neg (Nat.ne_of_lt (lt_size_of_slot? hfree)), hfree]
  | claim _ hslot => exact .inl (free_put_live hslot _ hfree)
  | unclaim _ hslot => exact .inl (free_put_live hslot _ hfree)
  | @free id' v' claims' _ hslot =>
    refine .inl ?_
    rw [slot?_withPool, slot?_put hslot]
    by_cases hid : id = id'
    · exact if_pos hid
    · rw [if_neg hid, hfree]

/-! ## Every operation keeps tables well-formed -/

namespace WellFormed

/-- All slots of a new table are live. -/
theorem live_of_mem_create {global runtime : Value} {slot : Slot}
    (h : slot ∈ (Table.create global runtime).slots) : ∃ v, slot = .live v maxClaims := by
  simp only [Table.create, List.mem_toArray, List.mem_cons, List.not_mem_nil, or_false] at h
  rcases h with rfl | rfl | rfl | rfl | rfl | rfl | rfl <;> exact ⟨_, rfl⟩

/-- A new table is well-formed. -/
theorem create (global runtime : Value) : (create global runtime).WellFormed where
  size_le := show 7 ≤ maxSlots by decide
  singleton_live := by
    intro id hid
    have hlt : id.toNat < (Table.create global runtime).slots.size :=
      Nat.lt_succ_of_le (UInt32.le_iff_toNat_le.1 hid)
    obtain ⟨v, hv⟩ := live_of_mem_create (Array.getElem_mem hlt)
    exact isLive_iff.2 ⟨v, maxClaims, Array.getElem?_eq_some_iff.2 ⟨hlt, hv⟩⟩
  claims_pos := by
    intro id v claims h
    obtain ⟨w, hw⟩ := live_of_mem_create (Array.mem_of_getElem? h)
    cases hw
    decide
  pool_nodup := .nil
  mem_pool_iff := by
    intro id
    refine iff_of_false List.not_mem_nil fun h => ?_
    obtain ⟨w, hw⟩ := live_of_mem_create (Array.mem_of_getElem? h)
    cases hw

/-- The slots of the singletons stay live. -/
theorem singleton_live_of_step (h : t.WellFormed) (hs : t.Step op r t')
    (hid : id ≤ Singleton.lastSlot) : t'.isLive id = true := by
  obtain ⟨v, claims, hlive⟩ := isLive_iff.1 (h.singleton_live hid)
  rcases hs.of_live h hlive with ⟨claims, hlive'⟩ | ⟨_, _, hlast⟩
  · exact isLive_iff.2 ⟨v, claims, hlive'⟩
  · exact absurd hid (UInt32.not_le.2 hlast)

/-- Another number of claims on a live slot. -/
theorem put_live {n : Nat} (h : t.WellFormed) (hslot : t.slot? id = some (.live v claims))
    (hn : 1 ≤ n)
    (hsingleton : ∀ {i : UInt32}, i ≤ Singleton.lastSlot → (t.put id (.live v n)).isLive i = true) :
    (t.put id (.live v n)).WellFormed where
  size_le := (size_put t id _).symm ▸ h.size_le
  singleton_live := hsingleton
  claims_pos := by
    intro i w m
    rw [slot?_put hslot]
    split
    · rintro ⟨⟩
      exact hn
    · exact h.claims_pos
  pool_nodup := h.pool_nodup
  mem_pool_iff := by
    intro i
    refine h.mem_pool_iff.trans ⟨free_put_live hslot n, ?_⟩
    rw [slot?_put hslot]
    split
    · rintro ⟨⟩
    · exact fun hfree => hfree

/-- The slot freed last taken again. -/
theorem reuse {pool : List UInt32} (h : t.WellFormed) (hpool : t.pool = id :: pool)
    (hsingleton : ∀ {i : UInt32}, i ≤ Singleton.lastSlot →
      ({ t.put id (.live v 1) with pool } : Table).isLive i = true) :
    ({ t.put id (.live v 1) with pool } : Table).WellFormed where
  size_le := (size_put t id _).symm ▸ h.size_le
  singleton_live := hsingleton
  claims_pos := by
    intro i w n
    rw [slot?_withPool, slot?_put (h.free_of_pool_eq hpool)]
    split
    · rintro ⟨⟩
      exact Nat.le_refl 1
    · exact h.claims_pos
  pool_nodup := (List.nodup_cons.1 (hpool ▸ h.pool_nodup)).2
  mem_pool_iff := by
    intro i
    -- As no id is in the pool twice, the one that is taken leaves it.
    have hnot : id ∉ pool := (List.nodup_cons.1 (hpool ▸ h.pool_nodup)).1
    rw [slot?_withPool, slot?_put (h.free_of_pool_eq hpool)]
    by_cases hi : i = id
    · subst hi
      simp [hnot]
    · rw [if_neg hi, ← h.mem_pool_iff, hpool, List.mem_cons]
      simp [hi]

/-- A new slot at the end, if none waits. -/
theorem grow (h : t.WellFormed) (hpool : t.pool = []) (hsize : t.slots.size < maxSlots)
    (hsingleton : ∀ {i : UInt32}, i ≤ Singleton.lastSlot →
      ({ t with slots := t.slots.push (.live v 1) } : Table).isLive i = true) :
    ({ t with slots := t.slots.push (.live v 1) } : Table).WellFormed where
  size_le := by
    rw [Array.size_push]
    exact hsize
  singleton_live := hsingleton
  claims_pos := by
    intro i w n
    rw [slot?_push]
    split
    · rintro ⟨⟩
      exact Nat.le_refl 1
    · exact h.claims_pos
  pool_nodup := h.pool_nodup
  mem_pool_iff := by
    intro i
    have hi : t.slot? i ≠ some .free := fun hfree => by
      have := h.mem_pool_iff.2 hfree
      rw [hpool] at this
      cases this
    rw [slot?_push]
    split <;> simp [hpool, hi]

/-- A live slot freed. -/
theorem free (h : t.WellFormed) (hslot : t.slot? id = some (.live v claims))
    (hsingleton : ∀ {i : UInt32}, i ≤ Singleton.lastSlot →
      ({ t.put id .free with pool := id :: t.pool } : Table).isLive i = true) :
    ({ t.put id .free with pool := id :: t.pool } : Table).WellFormed where
  size_le := (size_put t id _).symm ▸ h.size_le
  singleton_live := hsingleton
  claims_pos := by
    intro i w n
    rw [slot?_withPool, slot?_put hslot]
    split
    · rintro ⟨⟩
    · exact h.claims_pos
  pool_nodup := by
    -- The slot was live, hence not in the pool before.
    refine List.nodup_cons.2 ⟨fun hmem => ?_, h.pool_nodup⟩
    rw [h.mem_pool_iff, hslot] at hmem
    cases hmem
  mem_pool_iff := by
    intro i
    rw [slot?_withPool, slot?_put hslot, List.mem_cons, h.mem_pool_iff]
    by_cases hi : i = id <;> simp [hi]

/-- Every operation keeps a table well-formed. -/
theorem of_step (h : t.WellFormed) (hs : t.Step op r t') : t'.WellFormed := by
  -- What holds of the singletons follows from the lives of slots, in all cases alike.
  have hsingleton {id : UInt32} (hid : id ≤ Singleton.lastSlot) := h.singleton_live_of_step hs hid
  cases hs with
  | immediate | full | retainSingleton | retainFree | retainUnknown | releaseSingleton
  | releaseDead => exact h
  | reuse _ hpool => exact h.reuse hpool hsingleton
  | grow _ hpool hsize => exact h.grow hpool hsize hsingleton
  | claim _ hslot => exact h.put_live hslot (Nat.le_min.2 ⟨Nat.succ_pos _, by decide⟩) hsingleton
  | unclaim _ hslot hclaims => exact h.put_live hslot (by omega) hsingleton
  | free _ hslot => exact h.free hslot hsingleton

theorem apply (h : t.WellFormed) (op : Op) : (t.apply op).WellFormed :=
  h.of_step (t.step op)

theorem run (h : t.WellFormed) (ops : List Op) : (t.run ops).WellFormed :=
  foldl_invariant (fun _ op h => h.apply op) h ops

/-- A table is well-formed after any operations. -/
theorem run_create (global runtime : Value) (ops : List Op) :
    ((Table.create global runtime).run ops).WellFormed :=
  (create global runtime).run ops

end WellFormed

end ValueBridge.Table
