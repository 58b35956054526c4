import ValueBridge.Proofs.Ref.Boxing
import ValueBridge.Proofs.Table.WellFormed

/-!
# The lifetime of a stored value

A value that takes a slot is found there until the slot is freed, whatever else happens to
the table meanwhile; and a slot that was freed is refused until it is handed out again,
when it holds the new value alone.

* `Throughout`: what holds of every operation of a run;
* `load_run`, `slot?_run_of_free`: a run keeps the value of a slot that it does not free,
  and keeps free a slot that it does not hand out;
* `lifetime_run_create`: all of it, for a table after any operations.
-/

namespace ValueBridge

/-- The value of a singleton. -/
def Singleton.value (global runtime : Value) : Singleton → Value
  | .nan => .number .nan
  | .null => .null
  | .true => .bool Bool.true
  | .false => .bool Bool.false
  | .undefined => .undefined
  | .global => global
  | .runtime => runtime

theorem Singleton.slot_le (s : Singleton) : s.slot ≤ lastSlot := by
  cases s <;> decide

namespace Table

/-- The operation is the release that frees the slot. -/
def Frees (t : Table) (op : Op) (id : UInt32) : Prop :=
  op = .release id ∧ t.result op = .released .freed

/-- The operation is a store whose reference names the slot. -/
def HandsOut (t : Table) (op : Op) (id : UInt32) : Prop :=
  ∃ v ref, op = .store v ∧ t.result op = .stored ref ∧ ref.slot? = some id

/-- What holds of every operation of a run, on the table that it finds. -/
def Throughout (P : Table → Op → Prop) (t : Table) (ops : List Op) : Prop :=
  ValueBridge.Throughout apply P t ops

variable {t t' : Table} {op : Op} {ops : List Op} {r : Result} {id id' : UInt32}
  {v : Value}

/-! ## Freed and handed out -/

theorem not_frees_store (t : Table) (v : Value) (id : UInt32) : ¬t.Frees (.store v) id := by
  rintro ⟨⟨⟩, _⟩

theorem frees_release_iff : t.Frees (.release id') id ↔
    id = id' ∧ t.result (.release id') = .released .freed := by
  rw [Frees, Op.release.injEq, eq_comm]

theorem not_frees_retain (t : Table) (id id' : UInt32) : ¬t.Frees (.retain id') id := by
  rintro ⟨⟨⟩, _⟩

theorem not_handsOut_retain (t : Table) (id id' : UInt32) : ¬t.HandsOut (.retain id') id := by
  rintro ⟨_, _, ⟨⟩, _⟩

theorem not_handsOut_release (t : Table) (id id' : UInt32) : ¬t.HandsOut (.release id') id := by
  rintro ⟨_, _, ⟨⟩, _⟩

/-- A store hands out the slot that its reference names. -/
theorem handsOut_store_iff {ref : Ref} (hr : t.result (.store v) = .stored ref) :
    t.HandsOut (.store v) id ↔ ref.slot? = some id := by
  constructor
  · rintro ⟨_, _, ⟨⟩, hr', hslot⟩
    rw [hr] at hr'
    cases hr'
    exact hslot
  · exact fun hslot => ⟨v, ref, rfl, hr, hslot⟩

/-- A value that takes no slot of its own has at most that of a singleton. -/
theorem le_lastSlot_of_immediate? {ref : Ref} (himm : immediate? v = some ref)
    (hslot : ref.slot? = some id) : id ≤ Singleton.lastSlot := by
  have hsingleton (s : Singleton) (hs : s.ref = ref) : id ≤ Singleton.lastSlot := by
    rw [← hs, Singleton.ref, Ref.slot?_boxed, Option.some_inj] at hslot
    exact hslot ▸ s.slot_le
  cases v with
  | number x =>
    cases hx : x.isNaN with
    | true =>
      rw [immediate?, hx, if_pos rfl] at himm
      exact hsingleton .nan (Option.some_inj.1 himm)
    | false =>
      rw [immediate?, hx, if_neg Bool.false_ne_true, Option.some_inj] at himm
      rw [← himm, Ref.isBoxed_eq_false_iff.1 (Ref.isBoxed_ofNumber hx)] at hslot
      cases hslot
  | null => exact hsingleton .null (Option.some_inj.1 himm)
  | undefined => exact hsingleton .undefined (Option.some_inj.1 himm)
  | _ => cases himm

/-! ## What operations keep -/

/-- An operation keeps the value of every slot that it does not free. -/
theorem load_apply (h : t.WellFormed) (hload : t.load id = .ok v) (hop : ¬t.Frees op id) :
    (t.apply op).load id = .ok v := by
  obtain ⟨claims, hlive⟩ := load_eq_ok_iff.1 hload
  rcases (t.step op).of_live h hlive with hlive' | ⟨hrelease, hfreed, _⟩
  · exact load_eq_ok_iff.2 hlive'
  · exact absurd ⟨hrelease, hfreed⟩ hop

theorem load_run (h : t.WellFormed) (hload : t.load id = .ok v)
    (hops : t.Throughout (fun t op => ¬t.Frees op id) ops) : (t.run ops).load id = .ok v := by
  -- A step keeps the value only in a well-formed table, which goes along.
  have hboth := ValueBridge.Throughout.foldl
    (I := fun t : Table => t.WellFormed ∧ t.load id = .ok v) hops
    (fun t op h hop => ⟨h.1.apply op, load_apply h.1 h.2 hop⟩) ⟨h, hload⟩
  exact hboth.2

/-- An operation keeps every free slot that it does not hand out. -/
theorem slot?_apply_of_free (hfree : t.slot? id = some .free) (hop : ¬t.HandsOut op id) :
    (t.apply op).slot? id = some .free := by
  rcases (t.step op).of_free hfree with hfree' | ⟨v, hstore, hresult⟩
  · exact hfree'
  · exact absurd ⟨v, _, hstore, hresult, Ref.slot?_boxed id _⟩ hop

theorem slot?_run_of_free (hfree : t.slot? id = some .free)
    (hops : t.Throughout (fun t op => ¬t.HandsOut op id) ops) :
    (t.run ops).slot? id = some .free :=
  ValueBridge.Throughout.foldl (I := fun t : Table => t.slot? id = some .free) hops
    (fun _ _ => slot?_apply_of_free) hfree

/-- No operation frees the slot of a singleton. -/
theorem not_frees_singleton (hid : id ≤ Singleton.lastSlot) (op : Op) : ¬t.Frees op id := by
  rintro ⟨rfl, hfreed⟩
  rw [result, perform, release, if_pos hid] at hfreed
  cases hfreed

/-- The singletons stay in place. -/
theorem load_singleton_run (h : t.WellFormed) (s : Singleton) (hload : t.load s.slot = .ok v)
    (ops : List Op) : (t.run ops).load s.slot = .ok v := by
  have hboth := foldl_invariant (I := fun t : Table => t.WellFormed ∧ t.load s.slot = .ok v)
    (fun t op h => ⟨h.1.apply op, load_apply h.1 h.2 (not_frees_singleton s.slot_le op)⟩)
    ⟨h, hload⟩ ops
  exact hboth.2

theorem load_singleton_create (global runtime : Value) (s : Singleton) :
    (create global runtime).load s.slot = .ok (s.value global runtime) := by
  cases s <;> rfl

/-- A new table holds nothing but the singletons. -/
theorem singleton_of_load_create {global runtime : Value}
    (h : (create global runtime).load id = .ok v) :
    ∃ s : Singleton, v = s.value global runtime := by
  obtain ⟨claims, hslot⟩ := load_eq_ok_iff.1 h
  have hmem := Array.mem_of_getElem? hslot
  simp only [create, List.mem_toArray, List.mem_cons, List.not_mem_nil, or_false, Slot.live.injEq]
    at hmem
  rcases hmem with h | h | h | h | h | h | h
  · exact ⟨.nan, h.1⟩
  · exact ⟨.null, h.1⟩
  · exact ⟨.true, h.1⟩
  · exact ⟨.false, h.1⟩
  · exact ⟨.undefined, h.1⟩
  · exact ⟨.global, h.1⟩
  · exact ⟨.runtime, h.1⟩

/-! ## What a store and a release do -/

/-- A store takes a slot that was not live, and is refused only if there is none. -/
theorem Step.of_store (hs : t.Step (.store v) r t') (h : t.WellFormed)
    (hv : immediate? v = none) :
    (r = .failed .tableFull ∧ t' = t ∧ ∀ id, t.isLive id = true) ∨
      ∃ id, r = .stored (.boxed id (.ofValue v)) ∧ Singleton.lastSlot < id ∧
        t.isLive id = false ∧ t'.load id = .ok v := by
  cases hs with
  | immediate himm =>
    rw [hv] at himm
    cases himm
  | @reuse _ id pool _ hpool =>
    have hfree := h.free_of_pool_eq hpool
    refine .inr ⟨id, rfl, h.lastSlot_lt_of_free hfree, isLive_eq_false_of_free hfree,
      load_eq_ok_iff.2 ⟨1, ?_⟩⟩
    rw [slot?_withPool, slot?_put hfree, if_pos rfl]
  | grow _ _ hsize =>
    have hid := toNat_ofNat_size hsize
    have hnone : t.slot? (UInt32.ofNat t.slots.size) = none :=
      slot?_eq_none_iff.2 (Nat.le_of_eq hid.symm)
    refine .inr ⟨_, rfl, ?_, ?_, load_eq_ok_iff.2 ⟨1, ?_⟩⟩
    · rw [lastSlot_lt_iff, hid]
      exact h.count_le_size
    · rw [isLive, hnone]
    · rw [slot?_push, if_pos hid]
  | full _ hpool hsize =>
    refine .inl ⟨rfl, rfl, fun id => ?_⟩
    have hid : id.toNat < t.slots.size := Nat.lt_of_lt_of_le id.toNat_lt hsize
    -- Every id has a slot, and a free one would wait in the pool.
    refine (live_or_free hid).resolve_right fun hfree => ?_
    rw [← h.mem_pool_iff, hpool] at hfree
    cases hfree

theorem store_of_result_stored {ref : Ref} (hr : t.result (.store v) = .stored ref) :
    t.store v = .ok (ref, t.apply (.store v)) := by
  rw [result, perform] at hr
  rw [apply, perform]
  cases hstore : t.store v with
  | ok stored =>
    rw [hstore] at hr
    cases hr
    rfl
  | error fault =>
    rw [hstore] at hr
    cases hr

theorem store_of_result_failed {fault : BridgeFault} (hr : t.result (.store v) = .failed fault) :
    t.store v = .error fault := by
  rw [result, perform] at hr
  cases hstore : t.store v with
  | ok stored =>
    rw [hstore] at hr
    cases hr
  | error fault' =>
    rw [hstore] at hr
    cases hr
    rfl

/-- The slot that a release frees is free. -/
theorem Step.free_of_freed (hs : t.Step (.release id) (.released .freed) t') :
    t'.slot? id = some .free := by
  cases hs with
  | free _ hslot => rw [slot?_withPool, slot?_put hslot, if_pos rfl]

theorem isLive_apply_of_frees (h : t.Frees op id) : (t.apply op).isLive id = false := by
  obtain ⟨rfl, hfreed⟩ := h
  have hs := t.step (.release id)
  rw [hfreed] at hs
  exact isLive_eq_false_of_free hs.free_of_freed

/-- Whoever asks for a free slot is refused. -/
theorem refused_of_free (h : t.WellFormed) (hfree : t.slot? id = some .free) :
    t.load id = .error (.releasedSlot id) ∧ t.retain id = .error (.releasedSlot id) ∧
      t.release id = (.notLive, t) := by
  have hid := UInt32.not_le.2 (h.lastSlot_lt_of_free hfree)
  refine ⟨load_eq_released_iff.2 ⟨rfl, hfree⟩, ?_, ?_⟩
  · rw [retain, if_neg hid, hfree]
  · rw [release, if_neg hid, hfree]

/-! ## Lifetimes -/

/-- After any operations on a new table, a value that needs a slot is refused, with
    nothing changed, if every slot is live, and else takes a dynamic slot that was not
    live. There it is found throughout every run that does not free the slot. Once it is
    freed, it is refused throughout every run that does not hand it out again. Nor does an
    operation change the value of any other slot, and the singletons stay what they were. -/
theorem lifetime_run_create (global runtime : Value) (ops : List Op) :
    let t := (create global runtime).run ops
    (∀ v, immediate? v = none →
      (t.store v = .error .tableFull ∧ t.apply (.store v) = t ∧ ∀ id, t.isLive id = true) ∨
      ∃ id t', t.store v = .ok (.boxed id (.ofValue v), t') ∧ t.apply (.store v) = t' ∧
        Singleton.lastSlot < id ∧ t.isLive id = false ∧
        ∀ held, t'.Throughout (fun t op => ¬t.Frees op id) held →
          (t'.run held).load id = .ok v ∧
          ∀ t'', (t'.run held).release id = (.freed, t'') →
            ∀ later, t''.Throughout (fun t op => ¬t.HandsOut op id) later →
              (t''.run later).load id = .error (.releasedSlot id) ∧
              (t''.run later).retain id = .error (.releasedSlot id) ∧
              (t''.run later).release id = (.notLive, t''.run later)) ∧
    (∀ op id v, t.load id = .ok v → ¬t.Frees op id → (t.apply op).load id = .ok v) ∧
    ∀ s : Singleton, t.load s.slot = .ok (s.value global runtime) := by
  intro t
  have h : t.WellFormed := .run_create global runtime ops
  refine ⟨fun v hv => ?_, fun _ _ _ => load_apply h,
    fun s => load_singleton_run (.create global runtime) s (load_singleton_create _ _ s) ops⟩
  rcases (t.step (.store v)).of_store h hv with ⟨hr, ht, hlive⟩ | ⟨id, hr, hid, hdead, hload⟩
  · exact .inl ⟨store_of_result_failed hr, ht, hlive⟩
  have h' : (t.apply (.store v)).WellFormed := h.apply _
  refine .inr ⟨id, _, store_of_result_stored hr, rfl, hid, hdead, fun held hheld => ?_⟩
  refine ⟨load_run h' hload hheld, fun t'' hfreed later hlater => ?_⟩
  have hstep := step_of_release hfreed
  exact refused_of_free (((h'.run held).of_step hstep).run later)
    (slot?_run_of_free hstep.free_of_freed hlater)

end Table

end ValueBridge
