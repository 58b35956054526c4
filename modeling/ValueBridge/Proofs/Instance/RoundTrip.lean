import ValueBridge.Proofs.Bridge.RoundTrip
import ValueBridge.Proofs.Instance.Run

/-!
# Values that come back

A value that is stored at an address is loaded from it again, and not only at once: whatever
happens to the instance, the value stays there for as long as nobody changes the bytes of its
reference or frees the slot that these name (`Spares`).

The invariant is that a reference stands at the address, and stands for the value
(`Holds`).
-/

namespace ValueBridge.Instance

/-- The operation changes none of the eight bytes at an address, and does not free the slot
    of the reference in them. -/
structure Spares (addr : UInt32) (i : Instance) (op : Operation) : Prop where
  bytes : ∀ k, addr.toNat ≤ k → k < addr.toNat + Memory.refSize →
    (i.next op).bytes[k]? = i.bytes[k]?
  slot : ∀ ref id, (Memory.bound i.bytes).readRef? addr = .ok (some ref) → ref.slot? = some id →
    i.table.isLive id = true → (i.next op).table.isLive id = true

/-- A reference stands at an address, and stands for a value. -/
structure Holds (addr : UInt32) (ref : Ref) (v : Value) (i : Instance) : Prop where
  wellFormed : i.table.WellFormed
  settled : ref.isSettled = true
  bytes : (Memory.bound i.bytes).read? addr Memory.refSize = .ok (some (Memory.refBytes ref))
  standsFor : i.table.standsFor ref = .ok v

variable {i i' : Instance} {op : Operation} {ops : List Operation} {addr : UInt32} {ref : Ref}
  {v : Value}

/-- An operation that writes to none of the bytes, and is not the release that frees the slot,
    spares the address. -/
theorem spares_of_untouched (h : i.table.WellFormed)
    (hbytes : ∀ k, addr.toNat ≤ k → k < addr.toNat + Memory.refSize → ¬op.Touches i k)
    (hslot : ∀ ref id, (Memory.bound i.bytes).readRef? addr = .ok (some ref) →
      ref.slot? = some id → op.Does (.release id) → ¬i.table.Frees (.release id) id) :
    Spares addr i op where
  bytes k hle hlt := (i.confined_next op).bytes k (hbytes k hle hlt)
  slot ref id hread hid hlive := by
    rcases (i.confined_next op).table with htable | ⟨top, hdoes, htable⟩ <;> rw [htable]
    · exact hlive
    · obtain ⟨w, hload⟩ := Table.load_of_isLive hlive
      refine Table.isLive_of_load (Table.load_apply h hload fun hfrees => ?_)
      obtain rfl : top = .release id := hfrees.1
      exact hslot ref id hread hid hdoes hfrees

theorem Holds.next (h : i.Holds addr ref v) (hop : Spares addr i op) :
    (i.next op).Holds addr ref v where
  wellFormed := wellFormed_next h.wellFormed op
  settled := h.settled
  bytes := Memory.read?_congr (by decide) h.bytes hop.bytes
  standsFor := by
    have hslot := hop.slot ref
    rcases (i.confined_next op).table with htable | ⟨top, _, htable⟩ <;> rw [htable] at hslot ⊢
    · exact h.standsFor
    · -- One operation on the table, after which the slot is still live, did not free it.
      exact Table.standsFor_apply h.wellFormed h.standsFor fun id =>
        hslot id (Memory.readRef?_of_read? h.bytes)

theorem Holds.run (h : i.Holds addr ref v) (hops : i.Throughout (Spares addr) ops) :
    (i.run ops).Holds addr ref v :=
  ValueBridge.Throughout.foldl (I := Holds addr ref v) hops (fun _ _ h hop => h.next hop) h

/-- What an address holds is loaded from it. -/
theorem Holds.loadRef (h : i.Holds addr ref v) (hbound : i.bound = true) :
    (i.perform (Bridge.loadRef addr)).1 = .ok v := by
  have hread : i.state.memory.readRef? addr = .ok (some ref) := by
    rw [state, memory, hbound, if_pos rfl]
    exact Memory.readRef?_of_read? h.bytes
  rw [perform_eq, Bridge.loadRef_apply hread h.settled]
  exact h.standsFor

/-- Where a value was stored, it is held. -/
theorem holds_storeRef (hi : i.Reachable) (hbound : i.bound = true)
    (hstore : i.perform (Bridge.storeRef addr v) = (.ok (), i')) :
    ∃ ref, i.table.store v = .ok (ref, i'.table) ∧ i'.Holds addr ref v.received := by
  -- A NaN, null and undefined are stored as references to the singletons, which stay in place.
  obtain ⟨_, _, hsingletons⟩ := hi.singletons
  have hd := Bridge.delivery_storeRef addr v i.state
  rw [perform_eq] at hstore
  rcases hs : Bridge.storeRef addr v i.state with ⟨r, s'⟩
  rw [hs] at hd hstore
  cases hstore
  dsimp only at hd
  cases hd with
  | lost hmem =>
    rw [state, memory, hbound, if_pos rfl] at hmem
    cases hmem
  | @written bytes ref hmem hin hstored hmem' =>
    have hbytes : (i.resume s').bytes =
        Memory.overwrite bytes addr.toNat (Memory.refBytes ref) := by
      simp only [resume, hmem']
    refine ⟨ref, hstored, hi.wellFormed.of_step (Table.step_of_store hstored),
      Table.isSettled_store hstored, ?_, Table.standsFor_store hi.wellFormed hsingletons hstored⟩
    have hlength := Memory.length_refBytes ref
    rw [hbytes, ← hlength]
    exact Memory.read?_overwrite (by rwa [hlength])

/-- In a reachable instance with bound memory, a value that is stored at an address is loaded
    from it again after every run that spares the address: a number with the same bits unless
    it is a NaN, a NaN for a NaN, and any other value as it was. The store does nothing to the
    table if the value needs no slot. -/
theorem loadRef_run_storeRef (hi : i.Reachable) (hbound : i.bound = true)
    (hstore : i.perform (Bridge.storeRef addr v) = (.ok (), i')) :
    (Table.immediate? v ≠ none → i'.table = i.table) ∧
      ∀ ops, i'.Throughout (Spares addr) ops → (i'.run ops).bound = true →
        ((i'.run ops).perform (Bridge.loadRef addr)).1 = .ok v.received := by
  obtain ⟨ref, hstored, hholds⟩ := holds_storeRef hi hbound hstore
  refine ⟨fun hv => Table.eq_of_store_immediate hv hstored, fun ops hops hbound' => ?_⟩
  exact (hholds.run hops).loadRef hbound'

/-- An instance with eight bytes of memory, which are bound. -/
def eightBytes : Instance :=
  (create .default ⟨⟨0⟩⟩ .empty (Array.replicate 8 0)).next (.bind memoryExport)

/-- A value that was retained is still there when it was released once. -/
theorem loadRef_run_storeRef_retained :
    let i := eightBytes.next (.storeRef 0 (.bool true))
    let ops := [.retainValue 7, .deleteValue 7]
    eightBytes.Reachable ∧ eightBytes.bound = true ∧
      eightBytes.perform (Bridge.storeRef 0 (.bool true)) = (.ok (), i) ∧
      i.Throughout (Spares 0) ops ∧ (i.run ops).bound = true ∧
      ((i.run ops).perform (Bridge.loadRef 0)).1 = .ok (.bool true) := by
  have hi : eightBytes.Reachable := .next _ (.create _ _ _ _)
  have hstored := hi.next (.storeRef 0 (.bool true))
  have hstore : eightBytes.perform (Bridge.storeRef 0 (.bool true)) =
      (.ok (), eightBytes.next (.storeRef 0 (.bool true))) := Prod.ext rfl rfl
  have hretain : Spares 0 (eightBytes.next (.storeRef 0 (.bool true))) (.retainValue 7) :=
    spares_of_untouched hstored.wellFormed (fun _ _ _ h => h) nofun
  have hdelete : Spares 0 ((eightBytes.next (.storeRef 0 (.bool true))).next (.retainValue 7))
      (.deleteValue 7) := by
    refine spares_of_untouched (hstored.next _).wellFormed (fun _ _ _ h => h) ?_
    rintro ref id _ _ ⟨⟩ ⟨_, hfreed⟩
    exact absurd hfreed (by decide)
  have hops := And.intro hretain (And.intro hdelete trivial)
  exact ⟨hi, rfl, hstore, hops, rfl, (loadRef_run_storeRef hi rfl hstore).2 _ hops rfl⟩

end ValueBridge.Instance
