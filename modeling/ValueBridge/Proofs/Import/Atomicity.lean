import Mathlib.Data.Set.Subsingleton
import ValueBridge.Proofs.Import.Effect
import ValueBridge.Proofs.Ref.Boxing
import ValueBridge.Proofs.Table.Step

/-!
# Calls happen as a whole or not at all

A call of an import that fails leaves the table and the memory as they are. One that does
not fail writes to the bytes that it is given for its result alone (`Call.Touches`), and
makes one slot live at most (`Table.newlyLive`): the one whose reference it writes.

All of this follows from what the call does to the table and the memory (`Call.Effect`).
-/

namespace ValueBridge

/-- The slots that are live after, but were not before. -/
def Table.newlyLive (t t' : Table) : Set UInt32 :=
  {id | t.isLive id = false ∧ t'.isLive id = true}

namespace Call

/-- The address and the number of the bytes that a call writes, if it writes any: those of
    a reference, or those of a text that fits. -/
def range? (s : State) : Call → Option (UInt32 × Nat)
  | .valueStringCopy id addr capacity =>
    match s.slotText id with
    | .ok text =>
      let length := (Utf8.encode text).length
      if length ≤ capacity.toNat then some (addr, length) else none
    | .error _ => none
  | c => c.out?.map fun out => (out, Memory.refSize)

/-- The position is that of a byte that the call may write. -/
def Touches (s : State) (c : Call) (i : Nat) : Prop :=
  ∃ addr length, c.range? s = some (addr, length) ∧ addr.toNat ≤ i ∧ i < addr.toNat + length

variable {s s' : State} {c : Call} {r : Except BridgeFault Answer} {id : UInt32}

theorem range?_of_out? {out : UInt32} (hc : c.out? = some out) :
    c.range? s = some (out, Memory.refSize) := by
  cases c <;> cases hc <;> rfl

theorem range?_copy {addr capacity : UInt32} {text : String} (htext : s.slotText id = .ok text)
    (hfit : (Utf8.encode text).length ≤ capacity.toNat) :
    (valueStringCopy id addr capacity).range? s = some (addr, (Utf8.encode text).length) := by
  rw [range?, htext]
  exact if_pos hfit

namespace Effect

/-! ## Failures -/

theorem of_error {fault : BridgeFault} (h : Effect s s' c (.error fault)) : s.SameStore s' := by
  cases h with
  | quiet hsame => exact hsame

/-! ## The memory -/

/-- Only the bytes that the call is given for its result may change. -/
theorem agreesBut (h : Effect s s' c r) : s.memory.AgreesBut (c.Touches s) s'.memory := by
  cases h with
  | quiet hsame =>
    rw [hsame.memory]
    exact .refl _ _
  | delivered hc hd => exact hd.agreesBut.mono fun i hi => ⟨_, _, range?_of_out? hc, hi⟩
  | copied htext hmem hfit hin _ hmem' =>
    rw [hmem, hmem']
    exact Memory.agreesBut_overwrite hin fun i hle hlt => ⟨_, _, range?_copy htext hfit, hle, hlt⟩
  | released _ hmem' =>
    rw [hmem']
    exact .refl _ _

/-! ## The table -/

/-- A call comes to one operation on the table at most. -/
theorem table (h : Effect s s' c r) :
    s'.table = s.table ∨
      (∃ out v, c.out? = some out ∧ s'.table = s.table.apply (.store v)) ∨
      ∃ id, c = .valueDeinit id ∧ s'.table = s.table.apply (.release id) := by
  cases h with
  | quiet hsame => exact .inl hsame.table
  | @delivered _ out v hc hd =>
    rcases hd.table with htable | htable
    · exact .inl htable
    · exact .inr (.inl ⟨out, v, hc, htable⟩)
  | copied _ _ _ _ htable => exact .inl htable
  | @released id _ hrelease =>
    refine .inr (.inr ⟨id, rfl, ?_⟩)
    rw [Table.apply, Table.perform, hrelease]

/-- A slot becomes live only if the call writes its reference, and no value but that which
    the reference stands for is in it. -/
theorem of_newlyLive (h : Effect s s' c r) (hid : id ∈ s.table.newlyLive s'.table) :
    ∃ out v, c.out? = some out ∧ s.memory.isBound = true ∧ s'.table.load id = .ok v ∧
      s'.memory.read? out Memory.refSize =
        .ok (some (Memory.refBytes (.boxed id (.ofValue v)))) := by
  obtain ⟨hdead, hlive⟩ := hid
  -- Nothing becomes live in a table that stays the same.
  have hkept : s'.table ≠ s.table := fun htable => by
    rw [htable, hdead] at hlive
    cases hlive
  cases h with
  | quiet hsame => exact absurd hsame.table hkept
  | @delivered _ out v hc hd =>
    cases hd with
    | lost _ hsame => exact absurd hsame.table hkept
    | written hmem hin hstore hmem' =>
      obtain ⟨rfl, hload⟩ := (Table.step_of_store hstore).load_of_store hdead hlive
      refine ⟨out, v, hc, by rw [hmem]; rfl, hload, ?_⟩
      have hlength := Memory.length_refBytes (.boxed id (.ofValue v))
      rw [hmem', ← hlength]
      exact Memory.read?_overwrite (by rwa [hlength])
  | copied _ _ _ _ htable => exact absurd htable hkept
  | released hrelease =>
    -- A release makes no slot live.
    rw [(Table.step_of_release hrelease).isLive_of_release hlive] at hdead
    cases hdead

theorem subsingleton_newlyLive (h : Effect s s' c r) :
    (s.table.newlyLive s'.table).Subsingleton := by
  intro id hid id' hid'
  obtain ⟨out, v, hc, _, _, hread⟩ := h.of_newlyLive hid
  obtain ⟨out', v', hc', _, _, hread'⟩ := h.of_newlyLive hid'
  -- Both references are written to the same address.
  obtain rfl : out = out' := Option.some_inj.1 (hc.symm.trans hc')
  rw [hread, Except.ok.injEq, Option.some_inj, Memory.refBytes_inj, Ref.boxed_inj] at hread'
  exact hread'.1

end Effect

/-! ## Atomicity -/

/-- A call that fails leaves table and memory as they are and, unless it runs a function of
    the host, all that the heap had. A call that does not fail changes the memory at the
    bytes of its result alone, and makes one slot live at most, for a value whose boxed
    reference it writes to the address that it is given; none while no memory is bound. -/
theorem atomic_perform (e : Engine) (c : Call) (s : State) :
    match c.perform e s with
    | (.error _, s') =>
      s'.table = s.table ∧ s'.memory = s.memory ∧
        (c.runsNative = false → s.heap.Keeps s'.heap)
    | (.ok _, s') =>
      s.memory.AgreesBut (c.Touches s) s'.memory ∧
        (s.table.newlyLive s'.table).Subsingleton ∧
        (∀ id ∈ s.table.newlyLive s'.table, ∃ out v,
          c.out? = some out ∧ s'.table.load id = .ok v ∧
          s'.memory.read? out Memory.refSize =
            .ok (some (Memory.refBytes (.boxed id (.ofValue v))))) ∧
        (s.memory.isBound = false → s.table.newlyLive s'.table = ∅) := by
  have heffect := effect_perform e c s
  rcases hperform : c.perform e s with ⟨fault | answer, s'⟩ <;> rw [hperform] at heffect
  · exact ⟨heffect.of_error.table, heffect.of_error.memory,
      fun hc => (failsWithin_perform e c hc s fault s' hperform).heap⟩
  · refine ⟨heffect.agreesBut, heffect.subsingleton_newlyLive, fun id hid => ?_, fun hbound =>
      Set.eq_empty_iff_forall_notMem.2 fun id hid => ?_⟩
    · obtain ⟨out, v, hc, _, hload, hread⟩ := heffect.of_newlyLive hid
      exact ⟨out, v, hc, hload, hread⟩
    · obtain ⟨_, _, _, hbound', _⟩ := heffect.of_newlyLive hid
      rw [hbound] at hbound'
      cases hbound'

end Call

end ValueBridge
