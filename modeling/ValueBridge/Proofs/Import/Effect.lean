import ValueBridge.Import
import ValueBridge.Proofs.Bridge.Claims
import ValueBridge.Proofs.Bridge.Delivery
import ValueBridge.Proofs.Heap

/-!
# What a call does to the table and the memory

A call of an import finds its operands, lets the host work, and then does one thing at
most to the table and the memory (`Call.Effect`, `Call.effect_perform`): it delivers a
value, copies a text or releases a slot. Only a call that runs a function of the host can
do more to the heap before it fails (`Call.failsWithin_perform`).
-/

namespace ValueBridge

/-- The text of the value of a slot. -/
def State.slotText (s : State) (id : UInt32) : Except BridgeFault String :=
  s.table.load id >>= fun v => (s.heap.hostText v).mapError .host

/-- The states have the same table and the same memory, and the heap keeps what it had. -/
structure State.Kept (s s' : State) : Prop extends s.SameStore s' where
  heap : s.heap.Keeps s'.heap

theorem State.frame_kept : Action.Frame State.Kept where
  log s _ := ⟨⟨rfl, rfl⟩, .refl s.heap⟩
  trans h h' := ⟨State.frame_sameStore.trans h.toSameStore h'.toSameStore, h.heap.trans h'.heap⟩

namespace Import

open ValueBridge.Action Bridge

/-! ## Operands -/

theorem slotText_apply (id : UInt32) (s : State) : slotText id s = (s.slotText id, s) := by
  rw [slotText, State.slotText]
  cases hload : s.table.load id with
  | error fault =>
    rw [bind_of_error (loadValue_of_error hload)]
    rfl
  | ok v =>
    rw [bind_of_ok (loadValue_of_ok hload)]
    rfl

theorem reads_slotText (id : UInt32) : (slotText id).Reads :=
  .bind (reads_loadValue id) fun _ => .bind .get fun _ => .lift _

/-- The number of the arguments is a word, so that the index does not overflow. -/
theorem toNat_succ_add {index : UInt32} {left : Nat}
    (hindex : index.toNat + (left + 1) < Ref.wordSize) :
    (index + 1).toNat + left = index.toNat + (left + 1) := by
  rw [UInt32.toNat_add, UInt32.toNat_one, Nat.mod_eq_of_lt]
  · omega
  · rw [Ref.wordSize] at hindex
    omega

theorem reads_loadArgsFrom (argsAddr : UInt32) (taken : List Value) (index : UInt32) (left : Nat) :
    (loadArgsFrom argsAddr taken index left).Reads := by
  induction left generalizing taken index with
  | zero => exact .pure _
  | succ left ih => exact .bind (.lift _) fun addr => .bind (reads_loadRef addr) fun v => ih _ _

theorem reads_loadArgs (argsAddr argCount : UInt32) : (loadArgs argsAddr argCount).Reads :=
  reads_loadArgsFrom argsAddr [] 0 argCount.toNat

theorem reads_valueStringLen (id : UInt32) : (valueStringLen id).Reads := by
  refine .bind (reads_slotText id) fun text => ?_
  dsimp only
  split
  · exact .pure _
  · exact .throw _

/-! ## Deliveries -/

variable {α : Type} {x : Action α}

theorem kept_of_reads (h : x.Reads) : x.Within State.Kept :=
  .of_reads State.frame_kept h

theorem sameStore_of_reads (h : x.Reads) : x.Within State.SameStore :=
  .of_reads State.frame_sameStore h

/-- The host has no part in the table and the memory. -/
theorem sameStore_host (op : Heap → Outcome α) : (host op).Within State.SameStore :=
  fun _ => ⟨rfl, rfl⟩

theorem delivers_valueGet (out object keyAddr keyLength : UInt32) :
    (valueGet out object keyAddr keyLength).Delivers State.Kept out := by
  have hframe := State.frame_kept
  refine .bind hframe (kept_of_reads (reads_loadValue object)) fun target => ?_
  refine .bind hframe (kept_of_reads (reads_readText keyAddr keyLength)) fun key => ?_
  refine .bind hframe (kept_of_reads .get) fun s => ?_
  exact .bind hframe (kept_of_reads (.lift _)) fun v => delivers_storeRef hframe out v

theorem delivers_valueObjectCreate (out : UInt32) :
    (valueObjectCreate out).Delivers State.Kept out := by
  have hframe := State.frame_kept
  -- The fresh object stays in the heap even if its reference cannot be written.
  refine .bind hframe (fun s => ⟨⟨rfl, rfl⟩, .allocObject s.heap .plain⟩) fun id => ?_
  exact delivers_storeRef hframe out (.object id)

theorem delivers_valueStringCreate (out addr length : UInt32) :
    (valueStringCreate out addr length).Delivers State.Kept out := by
  have hframe := State.frame_kept
  refine .bind hframe (kept_of_reads (reads_readText addr length)) fun text => ?_
  exact delivers_storeRef hframe out (.string text)

theorem delivers_valueNew (e : Engine) (out constructor argsAddr argCount : UInt32) :
    (valueNew e out constructor argsAddr argCount).Delivers State.SameStore out := by
  have hframe := State.frame_sameStore
  refine .bind hframe (sameStore_of_reads (reads_loadValue constructor)) fun f => ?_
  refine .bind hframe (sameStore_of_reads (reads_loadArgs argsAddr argCount)) fun args => ?_
  exact .bind hframe (sameStore_host _) fun v => delivers_storeRef hframe out v

theorem delivers_funcApply (e : Engine) (out function receiverAddr argsAddr argCount : UInt32) :
    (funcApply e out function receiverAddr argsAddr argCount).Delivers State.SameStore out := by
  have hframe := State.frame_sameStore
  refine .bind hframe (sameStore_of_reads (reads_loadValue function)) fun f => ?_
  refine .bind hframe (sameStore_of_reads (reads_loadRef receiverAddr)) fun receiver => ?_
  refine .bind hframe (sameStore_of_reads (reads_loadArgs argsAddr argCount)) fun args => ?_
  exact .bind hframe (sameStore_host _) fun v => delivers_storeRef hframe out v

/-! ## Properties and texts -/

/-- The action does not fail, and leaves table and memory as they are. -/
def SetsHeap (x : Action Unit) : Prop :=
  ∀ s, ∃ s', x s = (.ok (), s') ∧ s.SameStore s'

/-- A property is set at last, so that a call that fails has set none. -/
theorem leads_valueSet (object keyAddr keyLength valueAddr : UInt32) :
    (valueSet object keyAddr keyLength valueAddr).Leads State.Kept SetsHeap := by
  have hframe := State.frame_kept
  refine .bind hframe (kept_of_reads (reads_loadValue object)) fun target => ?_
  refine .bind hframe (kept_of_reads (reads_readText keyAddr keyLength)) fun key => ?_
  refine .bind hframe (kept_of_reads (reads_loadRef valueAddr)) fun v => ?_
  refine .bind hframe (kept_of_reads .get) fun s => ?_
  refine .bind hframe (kept_of_reads (.lift _)) fun (written, heap) => ?_
  refine .of_mem hframe fun s => ?_
  cases written <;> exact ⟨_, rfl, rfl, rfl⟩

theorem sameStore_valueSet (object keyAddr keyLength valueAddr : UInt32) :
    (valueSet object keyAddr keyLength valueAddr).Within State.SameStore := by
  intro s
  obtain ⟨t, hst, ⟨fault, h⟩ | ⟨y, hy, h⟩⟩ := leads_valueSet object keyAddr keyLength valueAddr s
  · rw [h]
    exact hst.toSameStore
  · obtain ⟨s', hs', hsame⟩ := hy t
    rw [h, hs']
    exact State.frame_sameStore.trans hst.toSameStore hsame

theorem failsWithin_valueSet (object keyAddr keyLength valueAddr : UInt32) :
    (valueSet object keyAddr keyLength valueAddr).FailsWithin State.Kept := by
  refine (leads_valueSet object keyAddr keyLength valueAddr).failsWithin State.frame_kept ?_
  intro y hy s fault s' h
  obtain ⟨_, hs', _⟩ := hy s
  rw [hs'] at h
  cases h

/-- A copy writes a text that fits, or nothing. -/
theorem valueStringCopy_cases (id addr capacity : UInt32) (s : State) :
    s.SameButLog (valueStringCopy id addr capacity s).2 ∨
      ∃ text bytes, s.slotText id = .ok text ∧ s.memory = .bound bytes ∧
        (Utf8.encode text).length ≤ capacity.toNat ∧
        addr.toNat + (Utf8.encode text).length ≤ bytes.size ∧
        valueStringCopy id addr capacity s = (.ok (), { s with
          memory := .bound (Memory.overwrite bytes addr.toNat (Utf8.encode text)) }) := by
  rw [valueStringCopy, get_bind]
  cases hbound : s.memory.isBound with
  | false =>
    simp only [Bool.false_eq_true, if_false]
    exact .inl ⟨_, rfl⟩
  | true =>
    obtain ⟨bytes, hmem⟩ := Memory.eq_bound_of_isBound hbound
    simp only [if_true]
    cases htext : s.slotText id with
    | error fault =>
      rw [bind_of_error ((slotText_apply id s).trans (by rw [htext]))]
      exact .inl ⟨_, rfl⟩
    | ok text =>
      rw [bind_of_ok ((slotText_apply id s).trans (by rw [htext]))]
      by_cases hfit : capacity.toNat < (Utf8.encode text).length
      · rw [if_pos hfit]
        exact .inl ⟨_, rfl⟩
      · rw [if_neg hfit]
        by_cases hin : addr.toNat + (Utf8.encode text).length ≤ bytes.size
        · exact .inr ⟨text, bytes, rfl, hmem, Nat.not_lt.1 hfit, hin, writeBytes_bound hmem hin⟩
        · rw [writeBytes_out hmem hin]
          exact .inl ⟨_, rfl⟩

theorem failsWithin_valueStringCopy (id addr capacity : UInt32) :
    (valueStringCopy id addr capacity).FailsWithin State.Kept := by
  intro s fault s' h
  rcases valueStringCopy_cases id addr capacity s with hsame | ⟨_, _, _, _, _, _, h'⟩
  · rw [h] at hsame
    exact State.frame_kept.of_sameButLog hsame
  · rw [h'] at h
    cases h

end Import

/-! ## Calls -/

namespace Call

open ValueBridge.Action

/-- The address to which a call delivers a value. -/
def out? : Call → Option UInt32
  | .valueGet out _ _ _ | .valueObjectCreate out | .valueStringCreate out _ _
  | .valueNew out _ _ _ | .funcApply out _ _ _ _ => some out
  | .valueSet .. | .valueDeinit _ | .valueStringLen _ | .valueStringCopy .. => none

/-- Whether a call runs a function of the host. -/
def runsNative : Call → Bool
  | .valueNew .. | .funcApply .. => true
  | _ => false

/-- What a call does to the table and the memory. -/
inductive Effect (s s' : State) : Call → Except BridgeFault Answer → Prop
  /-- Nothing, whether the call fails or not. -/
  | quiet {c : Call} {r : Except BridgeFault Answer} : s.SameStore s' → Effect s s' c r
  /-- A value is delivered. -/
  | delivered {c : Call} {out : UInt32} {v : Value} : c.out? = some out →
      Delivery out v s s' (.ok ()) → Effect s s' c (.ok .nothing)
  /-- A text is copied. -/
  | copied {id addr capacity : UInt32} {text : String} {bytes : Array UInt8} :
      s.slotText id = .ok text → s.memory = .bound bytes →
      (Utf8.encode text).length ≤ capacity.toNat →
      addr.toNat + (Utf8.encode text).length ≤ bytes.size → s'.table = s.table →
      s'.memory = .bound (Memory.overwrite bytes addr.toNat (Utf8.encode text)) →
      Effect s s' (.valueStringCopy id addr capacity) (.ok .nothing)
  /-- A claim on a slot is released. -/
  | released {id : UInt32} {release : Release} : s.table.release id = (release, s'.table) →
      s'.memory = s.memory → Effect s s' (.valueDeinit id) (.ok (.released release))

theorem Effect.of_delivers {R : State → State → Prop} {c : Call} {out : UInt32}
    {x : Action Unit} (hc : c.out? = some out) (hx : x.Delivers R out)
    (hR : ∀ s t, R s t → s.SameStore t) (s : State) :
    let y := x >>= fun _ => pure Answer.nothing
    Effect s (y s).2 c (y s).1 := by
  obtain ⟨v, hv⟩ := hx.delivery hR s
  dsimp only
  rw [bind_apply]
  rcases hxs : x s with ⟨fault | _, s'⟩ <;> rw [hxs] at hv
  · cases hv with
    | refused hsame => exact .quiet hsame
  · exact .delivered hc hv

theorem Effect.of_within {α : Type} {c : Call} {x : Action α} (hx : x.Within State.SameStore)
    (answer : α → Answer) (s : State) :
    let y := x >>= fun a => pure (answer a)
    Effect s (y s).2 c (y s).1 :=
  .quiet (Within.bind State.frame_sameStore hx (fun _ => .pure State.frame_sameStore _) s)

/-- A call does one of these. -/
theorem effect_perform (e : Engine) (c : Call) (s : State) :
    Effect s (c.perform e s).2 c (c.perform e s).1 := by
  have hkept (s t : State) (h : s.Kept t) : s.SameStore t := h.toSameStore
  cases c with
  | valueGet out object keyAddr keyLength =>
    exact .of_delivers rfl (Import.delivers_valueGet out object keyAddr keyLength) hkept s
  | valueSet object keyAddr keyLength valueAddr =>
    exact .of_within (Import.sameStore_valueSet object keyAddr keyLength valueAddr) _ s
  | valueDeinit id =>
    obtain ⟨log, h⟩ := Bridge.releaseValue_apply id s
    rw [perform, bind_of_ok h]
    exact .released rfl rfl
  | valueObjectCreate out =>
    exact .of_delivers rfl (Import.delivers_valueObjectCreate out) hkept s
  | valueStringCreate out addr length =>
    exact .of_delivers rfl (Import.delivers_valueStringCreate out addr length) hkept s
  | valueStringLen id =>
    exact .of_within (Import.sameStore_of_reads (Import.reads_valueStringLen id)) _ s
  | valueStringCopy id addr capacity =>
    rw [perform, bind_apply]
    rcases Import.valueStringCopy_cases id addr capacity s with
      hsame | ⟨text, bytes, htext, hmem, hfit, hin, h⟩
    · have hquiet := State.frame_sameStore.of_sameButLog hsame
      rcases hcopy : Import.valueStringCopy id addr capacity s with ⟨_ | _, s'⟩ <;>
        rw [hcopy] at hquiet <;> exact .quiet hquiet
    · rw [h]
      exact .copied htext hmem hfit hin rfl rfl
  | valueNew out constructor argsAddr argCount =>
    exact .of_delivers rfl (Import.delivers_valueNew e out constructor argsAddr argCount)
      (fun _ _ h => h) s
  | funcApply out function receiverAddr argsAddr argCount =>
    exact .of_delivers rfl
      (Import.delivers_funcApply e out function receiverAddr argsAddr argCount)
      (fun _ _ h => h) s

/-! ## Failed calls -/

/-- A call that fails, and runs no function of the host, leaves what the heap had. -/
theorem failsWithin_perform (e : Engine) (c : Call) (hc : c.runsNative = false) :
    (c.perform e).FailsWithin State.Kept := by
  have hframe := State.frame_kept
  cases c with
  | valueGet out object keyAddr keyLength =>
    exact .bind_pure ((Import.delivers_valueGet out object keyAddr keyLength).failsWithin hframe) _
  | valueSet object keyAddr keyLength valueAddr =>
    exact .bind_pure (Import.failsWithin_valueSet object keyAddr keyLength valueAddr) _
  | valueDeinit id =>
    intro s fault s' h
    obtain ⟨log, hrelease⟩ := Bridge.releaseValue_apply id s
    rw [perform, bind_of_ok hrelease] at h
    cases h
  | valueObjectCreate out =>
    exact .bind_pure ((Import.delivers_valueObjectCreate out).failsWithin hframe) _
  | valueStringCreate out addr length =>
    exact .bind_pure ((Import.delivers_valueStringCreate out addr length).failsWithin hframe) _
  | valueStringLen id =>
    exact .bind_pure (.of_within (Import.kept_of_reads (Import.reads_valueStringLen id))) _
  | valueStringCopy id addr capacity =>
    exact .bind_pure (Import.failsWithin_valueStringCopy id addr capacity) _
  | valueNew out constructor argsAddr argCount => cases hc
  | funcApply out function receiverAddr argsAddr argCount => cases hc

end Call

end ValueBridge
