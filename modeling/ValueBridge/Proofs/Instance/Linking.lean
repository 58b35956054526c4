import Mathlib.Data.List.Forall2
import ValueBridge.Engine.Standard
import ValueBridge.Proofs.Import.Logging
import ValueBridge.Proofs.Instance.Run

/-!
# Calls through a linker

A guest that is linked to the imports of a bridge calls the functions that were defined for them.
Each call does what the host gets by calling the bridge itself on the memory as it is bound at that
moment (`Instance.alike_trace`), however often the memory is bound, unbound and written to in
between: what has been logged differs, and the guest is not told what a release comes to.

* `Linker.call?_defineImports`: an import is called by its name with its arguments as words, and is
  what a call of the guest is taken to be (`Instance.invoke`);
* `Instance.invoke_alike`: such a call against the same one of the bridge itself.
-/

namespace ValueBridge

/-! ## What is found -/

namespace Linker

variable {l l' : Linker} {importModule name : String} {f g : HostFunction}

theorem find?_define (h : l.define importModule name f = .ok l') (name' : String) :
    l'.find? importModule name' = if name' = name then some f else l.find? importModule name' := by
  rw [define] at h
  split at h
  · cases h
  · cases h
    rw [find?, List.lookup_cons]
    by_cases hname : name' = name
    · rw [if_pos hname, hname, beq_self_eq_true]
    · rw [if_neg hname, beq_false_of_ne fun heq => hname (Prod.ext_iff.1 heq).2]
      rfl

/-- What is known stays as it is, as nothing is defined twice. -/
theorem find?_of_define (h : l.define importModule name f = .ok l') {name' : String}
    (hg : l.find? importModule name' = some g) : l'.find? importModule name' = some g := by
  rw [find?_define h]
  split
  · next hname =>
    rw [define, ← hname, hg] at h
    cases h
  · exact hg

/-- Once functions are defined one after the other, each of them is found. -/
theorem find?_of_foldlM {fs : List (String × HostFunction)}
    (h : fs.foldlM (fun l f => l.define importModule f.1 f.2) l = .ok l') :
    (∀ name g, l.find? importModule name = some g → l'.find? importModule name = some g) ∧
      ∀ f ∈ fs, l'.find? importModule f.1 = some f.2 := by
  induction fs generalizing l with
  | nil =>
    cases h
    exact ⟨fun _ _ hg => hg, nofun⟩
  | cons f fs ih =>
    rw [List.foldlM_cons] at h
    cases hdefine : l.define importModule f.1 f.2 with
    | error fault =>
      rw [hdefine] at h
      cases h
    | ok l₁ =>
      rw [hdefine] at h
      obtain ⟨hkept, hfound⟩ := ih h
      refine ⟨fun name g hg => hkept name g (find?_of_define hdefine hg), fun f' hf' => ?_⟩
      rcases List.mem_cons.1 hf' with rfl | hf'
      · exact hkept _ _ ((find?_define hdefine _).trans (if_pos rfl))
      · exact hfound f' hf'

end Linker

/-! ## Calls by name and words -/

namespace Call

/-- The name of the import that is called. -/
def name : Call → String
  | .valueGet .. => "valueGet"
  | .valueSet .. => "valueSet"
  | .valueDeinit .. => "valueDeinit"
  | .valueObjectCreate .. => "valueObjectCreate"
  | .valueStringCreate .. => "valueStringCreate"
  | .valueStringLen .. => "valueStringLen"
  | .valueStringCopy .. => "valueStringCopy"
  | .valueNew .. => "valueNew"
  | .funcApply .. => "funcApply"

/-- The arguments in the order of the parameters of the import. -/
def words : Call → List UInt32
  | .valueGet out object keyAddr keyLength => [out, object, keyAddr, keyLength]
  | .valueSet object keyAddr keyLength valueAddr => [object, keyAddr, keyLength, valueAddr]
  | .valueDeinit id => [id]
  | .valueObjectCreate out => [out]
  | .valueStringCreate out addr length => [out, addr, length]
  | .valueStringLen id => [id]
  | .valueStringCopy id addr capacity => [id, addr, capacity]
  | .valueNew out constructor argsAddr argCount => [out, constructor, argsAddr, argCount]
  | .funcApply out function receiverAddr argsAddr argCount =>
    [out, function, receiverAddr, argsAddr, argCount]

/-- The function that is defined for the import. -/
def function : Call → HostFunction
  | .valueGet .. => .valueGet
  | .valueSet .. => .valueSet
  | .valueDeinit .. => .valueDeinit
  | .valueObjectCreate .. => .valueObjectCreate
  | .valueStringCreate .. => .valueStringCreate
  | .valueStringLen .. => .valueStringLen
  | .valueStringCopy .. => .valueStringCopy
  | .valueNew .. => .valueNew
  | .funcApply .. => .funcApply

theorem mem_imports (c : Call) : (c.name, c.function) ∈ HostFunction.imports := by
  cases c <;> simp [HostFunction.imports, Import.names, name, function]

end Call

/-- The words that an answer is to a guest. -/
def Answer.words : Answer → List UInt32
  | .nothing | .released _ => []
  | .length n => [UInt32.ofNat n]

/-! ## Calls of the guest -/

namespace Instance

open ValueBridge.Action

variable {i i' : Instance} {e : Engine} {c : Call}

theorem perform_bind_pure {α β : Type} (i : Instance) (x : Action α) (g : α → β) :
    i.perform (x >>= fun a => pure (g a)) = ((i.perform x).1.map g, (i.perform x).2) := by
  simp only [perform, bind_apply]
  rcases x ⟨i.heap, i.table, i.memory, i.log⟩ with ⟨_ | _, _⟩ <;> rfl

theorem invoke_of_not_needsMemory (e : Engine) (hc : needsMemory c = false) (i : Instance) :
    i.invoke e c = ((i.perform (c.perform e)).1.map guestAnswer, (i.perform (c.perform e)).2) := by
  rw [invoke, hc, Bool.false_and, if_neg Bool.false_ne_true]
  rcases i.perform (c.perform e) with ⟨_ | _, _⟩ <;> rfl

/-- A function that works on the memory does what the guest's call does. -/
theorem withBridge_eq (e : Engine) {op : Action Unit} (hc : needsMemory c = true)
    (hop : c.perform e = op >>= fun _ => pure .nothing) (i : Instance) :
    HostFunction.withBridge op i = ((i.invoke e c).1.map Answer.words, (i.invoke e c).2) := by
  have hreport : (if i.bound = true then i else i.report .calledUnbound) =
      if (!i.bound) = true then i.report .calledUnbound else i := by
    cases i.bound <;> rfl
  rw [HostFunction.withBridge, invoke, hc, hop, Bool.true_and, hreport]
  generalize (if (!i.bound) = true then i.report .calledUnbound else i) = reported
  rw [perform_bind_pure]
  rcases reported.perform op with ⟨_ | _, _⟩ <;> rfl

/-- The function of an import takes the words of a call, and does what the guest's call does. -/
theorem exists_run (e : Engine) (c : Call) : ∃ run, c.function c.words = some run ∧
    ∀ i, run e i = ((i.invoke e c).1.map Answer.words, (i.invoke e c).2) := by
  cases c with
  | valueDeinit id =>
    refine ⟨_, rfl, fun i => ?_⟩
    rw [invoke_of_not_needsMemory e rfl, Call.perform, perform_bind_pure]
    -- A release is never refused.
    obtain ⟨log, hrelease⟩ := Bridge.releaseValue_apply id i.state
    rw [perform_eq, hrelease]
    rfl
  | valueStringLen id =>
    refine ⟨_, rfl, fun i => ?_⟩
    rw [invoke_of_not_needsMemory e rfl, Call.perform, perform_bind_pure]
    rcases i.perform (Import.valueStringLen id) with ⟨_ | _, _⟩ <;> rfl
  | _ => exact ⟨_, rfl, withBridge_eq e rfl rfl⟩

end Instance

/-- Under the module of its configuration, an import of a bridge is called by its name with its
    arguments as words, and this is the call of a guest. -/
theorem Linker.call?_defineImports {l l' : Linker} {config : Config}
    (h : l.defineImports config = .ok l') (e : Engine) (c : Call) : ∃ run,
      l'.call? config.importModule c.name c.words = some run ∧
        ∀ i, run e i = ((i.invoke e c).1.map Answer.words, (i.invoke e c).2) := by
  obtain ⟨run, hwords, hrun⟩ := Instance.exists_run e c
  refine ⟨run, ?_, hrun⟩
  rw [call?, (find?_of_foldlM h).2 _ c.mem_imports, Option.bind_some]
  exact hwords

/-! ## Against calls of the bridge -/

/-- What a guest is told of a result of the bridge: a fault, a length as a word, or nothing. -/
inductive Told : Except BridgeFault (List UInt32) → Except BridgeFault Answer → Prop
  | fault (fault : BridgeFault) : Told (.error fault) (.error fault)
  | nothing : Told (.ok []) (.ok .nothing)
  | length (w : UInt32) : Told (.ok [w]) (.ok (.length w.toNat))
  /-- What a release comes to is not told. -/
  | released (release : Release) : Told (.ok []) (.ok (.released release))

/-- The instances differ in what has been logged at most. -/
structure Instance.SameButLog (i i' : Instance) : Prop where
  heap : i'.heap = i.heap
  table : i'.table = i.table
  bytes : i'.bytes = i.bytes
  bound : i'.bound = i.bound

namespace Import

open ValueBridge.Action

/-- The length of a text is a word, or the fault. -/
theorem length_lt {id : UInt32} {s s' : State} {n : Nat}
    (h : valueStringLen id s = (.ok n, s')) : n < Ref.wordSize := by
  rw [valueStringLen] at h
  cases htext : s.slotText id with
  | error fault =>
    rw [bind_of_error ((slotText_apply id s).trans (by rw [htext]))] at h
    cases h
  | ok text =>
    rw [bind_of_ok ((slotText_apply id s).trans (by rw [htext]))] at h
    split at h
    · next hlt =>
      cases h
      exact hlt
    · cases h

end Import

namespace Instance

open ValueBridge.Action

variable {i i' : Instance}

theorem told_perform (e : Engine) (c : Call) (i : Instance) :
    Told (((i.perform (c.perform e)).1.map guestAnswer).map Answer.words)
      (i.perform (c.perform e)).1 := by
  -- But for two of the calls, the answer is nothing.
  have hnothing (op : Action Unit) : Told
      (((i.perform (op >>= fun _ => pure Answer.nothing)).1.map guestAnswer).map Answer.words)
      (i.perform (op >>= fun _ => pure Answer.nothing)).1 := by
    rw [perform_bind_pure]
    rcases (i.perform op).1 with fault | _
    · exact .fault fault
    · exact .nothing
  cases c with
  | valueDeinit id =>
    rw [Call.perform, perform_bind_pure]
    rcases (i.perform (Bridge.releaseValue id)).1 with fault | release
    · exact .fault fault
    · exact .released release
  | valueStringLen id =>
    rw [Call.perform, perform_bind_pure]
    rw [perform_eq]
    rcases hlength : Import.valueStringLen id i.state with ⟨fault | n, s⟩
    · exact .fault fault
    · have htold := Told.length (UInt32.ofNat n)
      rw [UInt32.toNat_ofNat_of_lt' (Import.length_lt hlength)] at htold
      exact htold
  | _ => exact hnothing _

namespace SameButLog

theorem refl (i : Instance) : i.SameButLog i :=
  ⟨rfl, rfl, rfl, rfl⟩

theorem trans {i'' : Instance} (h : i.SameButLog i') (h' : i'.SameButLog i'') : i.SameButLog i'' :=
  ⟨h'.heap.trans h.heap, h'.table.trans h.table, h'.bytes.trans h.bytes, h'.bound.trans h.bound⟩

theorem symm (h : i.SameButLog i') : i'.SameButLog i :=
  ⟨h.heap.symm, h.table.symm, h.bytes.symm, h.bound.symm⟩

theorem report (i : Instance) (event : Event) : i.SameButLog (i.report event) :=
  ⟨rfl, rfl, rfl, rfl⟩

theorem eq (h : i.SameButLog i') : i' = { i with log := i'.log } := by
  obtain ⟨heap, table, bytes, bound, log⟩ := i'
  obtain ⟨rfl, rfl, rfl, rfl⟩ := h
  rfl

/-- An action that ignores the log does the same for instances that differ in it. -/
theorem perform {α : Type} {x : Action α} (h : i.SameButLog i') (hx : x.IgnoresLog) :
    (i'.perform x).1 = (i.perform x).1 ∧ (i.perform x).2.SameButLog (i'.perform x).2 := by
  obtain ⟨log, hlog⟩ := hx i.state i'.log
  have hstate : i'.state = { i.state with log := i'.log } := by
    rw [h.eq]
    rfl
  rw [perform_eq, perform_eq, hstate, hlog, h.eq]
  exact ⟨rfl, rfl, rfl, rfl, rfl⟩

end SameButLog

/-- A guest's call of an import does what the bridge does on the memory as it is bound. -/
theorem invoke_alike (h : i.SameButLog i') (e : Engine) (c : Call) :
    Told ((i.invoke e c).1.map Answer.words) (i'.perform (c.perform e)).1 ∧
      (i.invoke e c).2.SameButLog (i'.perform (c.perform e)).2 := by
  rw [invoke]
  obtain ⟨reported, hreported, hsame⟩ : ∃ reported, i.SameButLog reported ∧
      (if (needsMemory c && !i.bound) = true then i.report .calledUnbound else i) = reported := by
    refine ⟨_, ?_, rfl⟩
    split
    · exact .report i _
    · exact .refl i
  rw [hsame]
  have htold := told_perform e c reported
  obtain ⟨hresult, hperform⟩ := (hreported.symm.trans h).perform (Call.ignoresLog_perform e c)
  rw [hresult]
  generalize reported.perform (c.perform e) = outcome at htold hperform ⊢
  obtain ⟨fault | answer, i₁⟩ := outcome
  · refine ⟨htold, ?_⟩
    dsimp only
    split
    · exact (SameButLog.report i₁ _).symm.trans hperform
    · exact hperform
  · exact ⟨htold, hperform⟩

end Instance

/-! ## Runs -/

namespace Instance

/-- What happens to a guest and its bridge. -/
inductive Move where
  | call (c : Call)
  /-- The memory bound, if it is exported by the right name. -/
  | bind (exported : String)
  | unbind
  /-- Whatever the guest does to its memory, which has these bytes afterwards. -/
  | guest (bytes : Array UInt8)

/-- A move whose calls go through a linker: what the guest is told, if there is such a function,
    and the instance afterwards. -/
def linkedStep (l : Linker) (importModule : String) (e : Engine) (i : Instance) :
    Move → Option (Except BridgeFault (List UInt32)) × Instance
  | .call c =>
    match l.call? importModule c.name c.words with
    | some run => (some (run e i).1, (run e i).2)
    | none => (none, i)
  | .bind exported =>
    match i.bind exported with
    | .ok i => (some (.ok []), i)
    | .error fault => (some (.error fault), i)
  | .unbind => (some (.ok []), i.unbind)
  | .guest bytes => (some (.ok []), { i with bytes })

/-- A move whose calls are of the bridge itself, on the bytes of the memory if it is bound and on
    no memory otherwise: the result, and the instance afterwards. -/
def directStep (e : Engine) (i : Instance) : Move → Except BridgeFault Answer × Instance
  | .call c => i.perform (c.perform e)
  | .bind exported =>
    match i.bind exported with
    | .ok i => (.ok .nothing, i)
    | .error fault => (.error fault, i)
  | .unbind => (.ok .nothing, i.unbind)
  | .guest bytes => (.ok .nothing, { i with bytes })

/-- The results of moves in order, each with the instance after it. -/
def trace {R : Type} (step : Instance → Move → R × Instance) : Instance → List Move →
    List (R × Instance)
  | _, [] => []
  | i, move :: moves => step i move :: trace step (step i move).2 moves

/-- A function was found, the guest is told of the same result, and the instances differ in what
    has been logged at most. -/
structure Alike (x : Option (Except BridgeFault (List UInt32)) × Instance)
    (x' : Except BridgeFault Answer × Instance) : Prop where
  told : ∃ result, x.1 = some result ∧ Told result x'.1
  same : x.2.SameButLog x'.2

variable {l l' : Linker} {config : Config} {i i' : Instance}

/-- One move. -/
theorem alike_step (h : l.defineImports config = .ok l') (e : Engine) (hi : i.SameButLog i')
    (move : Move) :
    Alike (i.linkedStep l' config.importModule e move) (i'.directStep e move) := by
  cases move with
  | call c =>
    obtain ⟨run, hcall, hrun⟩ := Linker.call?_defineImports h e c
    obtain ⟨htold, hsame⟩ := invoke_alike hi e c
    rw [linkedStep, hcall]
    dsimp only
    rw [hrun]
    exact ⟨⟨_, rfl, htold⟩, hsame⟩
  | bind exported =>
    rw [linkedStep, directStep, bind, bind]
    by_cases hname : exported = memoryExport
    · rw [if_pos hname, if_pos hname]
      exact ⟨⟨_, rfl, .nothing⟩, ⟨hi.heap, hi.table, hi.bytes, rfl⟩⟩
    · rw [if_neg hname, if_neg hname]
      exact ⟨⟨_, rfl, .fault _⟩, hi⟩
  | unbind => exact ⟨⟨_, rfl, .nothing⟩, ⟨hi.heap, hi.table, hi.bytes, rfl⟩⟩
  | guest bytes => exact ⟨⟨_, rfl, .nothing⟩, ⟨hi.heap, hi.table, rfl, hi.bound⟩⟩

theorem forall₂_trace (h : l.defineImports config = .ok l') (e : Engine) (hi : i.SameButLog i')
    (moves : List Move) : List.Forall₂ Alike
      (trace (fun i => i.linkedStep l' config.importModule e) i moves)
      (trace (fun i => i.directStep e) i' moves) := by
  induction moves generalizing i i' with
  | nil => exact .nil
  | cons move moves ih =>
    have hstep := alike_step h e hi move
    exact .cons hstep (ih hstep.same)

/-- Whatever calls are made with whatever words, and however the memory is bound, unbound and
    written to in between: after every move of a run, what was called through a linker to which
    the imports were added has left the same heap, table and bytes as calls of the bridge itself
    would have on the memory bound at that moment, or on none, and has come to the same result,
    but that a release is not told. -/
theorem alike_trace (h : l.defineImports config = .ok l') (e : Engine) (i : Instance)
    (moves : List Move) : List.Forall₂ Alike
      (trace (fun i => i.linkedStep l' config.importModule e) i moves)
      (trace (fun i => i.directStep e) i moves) :=
  forall₂_trace h e (.refl i) moves

/-- A guest that is linked to nothing else makes an object before its memory is bound and once it
    is, releases it and asks for the length of a text. -/
theorem alike_trace_standard : ∃ l, Linker.empty.defineImports .default = .ok l ∧
    let i := create .default (Realm.create .empty).1 (Realm.create .empty).2 initialBytes
    let moves : List Move := [.call (.valueObjectCreate 0), .bind memoryExport,
      .call (.valueObjectCreate 0), .call (.valueDeinit 7), .unbind, .call (.valueStringLen 1)]
    List.Forall₂ Alike
      (trace (fun i => i.linkedStep l Config.default.importModule .standard) i moves)
      (trace (fun i => i.directStep .standard) i moves) := by
  obtain ⟨l, hl⟩ : ∃ l, Linker.empty.defineImports .default = .ok l := ⟨_, rfl⟩
  exact ⟨l, hl, alike_trace hl .standard _ _⟩

end Instance

end ValueBridge
