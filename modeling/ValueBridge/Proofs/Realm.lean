import ValueBridge.Engine
import ValueBridge.Proofs.Heap.Evolution

/-!
# The constructors of a realm

A value *is* a constructor if it is a function with the name and the behaviours of it
(`Heap.IsBuiltin`). It remains one however the heap evolves, as no change gives a function other
behaviours (`Heap.IsBuiltin.evolves`). A fresh realm has every constructor under its name
(`Realm.isBuiltin_lookup_create`): the functions that are made after it are defined under other
names.
-/

namespace ValueBridge

namespace Builtin

/-- The constructor of objects. -/
def object : Builtin := ⟨"Object", some .objectOf, some .objectOf⟩

/-- The constructor of buffers. -/
def buffer : Builtin := ⟨"Uint8Array", some (.requireNew "Uint8Array"), some .bufferOf⟩

/-- The function that makes symbols. -/
def symbol : Builtin := ⟨"Symbol", some .symbolOf, none⟩

end Builtin

namespace Heap

variable {W : Value → String → Prop} {h h' : Heap} {b : Builtin} {f : Value}

/-- The value is a function that was made, with the name and the behaviours of the constructor. -/
def IsBuiltin (h : Heap) (b : Builtin) (f : Value) : Prop :=
  ∃ id, f = .function id ∧ h.Has f ∧ (h.function id).name = b.name ∧
    (h.function id).call? = b.call? ∧ (h.function id).construct? = b.construct?

/-- A function with other properties, at most. -/
def SameBehaviour (cell cell' : FunctionCell) : Prop :=
  cell'.name = cell.name ∧ cell'.call? = cell.call? ∧ cell'.construct? = cell.construct?

theorem Change.sameBehaviour (hc : h.Change W h') {id : FunctionId} (hid : h.Has (.function id)) :
    SameBehaviour (h.function id) (h'.function id) := by
  cases hc with
  | function name call? construct? =>
    rw [function_newFunction, if_neg (Nat.ne_of_lt hid)]
    exact ⟨rfl, rfl, rfl⟩
  | @set target v key written _ _ _ hset =>
    cases sets_of_set hset with
    | @function id' cell _ hcell =>
      rw [function_putFunction]
      split
      · next heq =>
        obtain ⟨_, rfl⟩ := FunctionCell.eq_of_set? hcell
        rw [heq.1]
        exact ⟨rfl, rfl, rfl⟩
      · exact ⟨rfl, rfl, rfl⟩
    | _ => exact ⟨rfl, rfl, rfl⟩
  | _ => exact ⟨rfl, rfl, rfl⟩

namespace IsBuiltin

theorem evolves (hf : h.IsBuiltin b f) (he : h.Evolves W h') : h'.IsBuiltin b f := by
  induction he with
  | refl => exact hf
  | tail _ hc ih =>
    obtain ⟨id, rfl, hhas, hname, hcall, hconstruct⟩ := ih
    obtain ⟨hname', hcall', hconstruct'⟩ := hc.sameBehaviour hhas
    exact ⟨id, rfl, hc.has hhas, hname'.trans hname, hcall'.trans hcall,
      hconstruct'.trans hconstruct⟩

theorem callBehaviour_eq (hf : h.IsBuiltin b f) {native : Native} (hb : b.call? = some native) :
    h.callBehaviour f = .ok native := by
  obtain ⟨id, rfl, _, _, hcall, _⟩ := hf
  simp only [callBehaviour, hcall, hb]

theorem constructBehaviour_eq (hf : h.IsBuiltin b f) {native : Native}
    (hb : b.construct? = some native) : h.constructBehaviour f = .ok native := by
  obtain ⟨id, rfl, _, _, _, hconstruct⟩ := hf
  simp only [constructBehaviour, hconstruct, hb]

end IsBuiltin

theorem isBuiltin_newFunction (h : Heap) (b : Builtin) :
    (h.newFunction b.name b.call? b.construct?).2.IsBuiltin b
      (.function (h.newFunction b.name b.call? b.construct?).1) := by
  have hcell : (h.newFunction b.name b.call? b.construct?).2.function
      (h.newFunction b.name b.call? b.construct?).1 = ⟨b.name, b.call?, b.construct?, .empty⟩ :=
    (function_newFunction h b.name b.call? b.construct? _).trans (if_pos rfl)
  refine ⟨_, rfl, has_newFunction h b.name b.call? b.construct?, ?_⟩
  rw [hcell]
  exact ⟨rfl, rfl, rfl⟩

end Heap

namespace Realm

open Heap

variable {h : Heap} {r : Realm} {b : Builtin} {bs : List Builtin}

/-- What is defined is found by its name. -/
theorem lookup_define (hr : h.HasRealm r) (name : String) (v : Value) :
    r.lookup (r.define h name v) name = v := by
  have hset : h.set (.object r.global) name v =
      .ok ((h.setOf r.global name v).1, r.define h name v) := rfl
  exact Except.ok.inj (get_set_self hset hr.has hr.plain)

theorem hasRealm_install (hr : h.HasRealm r) (b : Builtin) : (r.install h b).HasRealm r :=
  hr.evolves (evolves_install (W := Anywhere) r b h trivial)

theorem isBuiltin_lookup_install (hr : h.HasRealm r) (b : Builtin) :
    (r.install h b).IsBuiltin b (r.lookup (r.install h b) b.name) := by
  have hmade : h.Evolves Anywhere (h.newFunction b.name b.call? b.construct?).2 :=
    .of_change (.function _ _ _)
  have hdefined := evolves_define (W := Anywhere) r b.name
    (has_newFunction h b.name b.call? b.construct?) trivial
  rw [install, lookup_define (hr.evolves hmade)]
  exact (isBuiltin_newFunction h b).evolves hdefined

/-- Constructors of different names are all found by their names. -/
theorem isBuiltin_lookup_foldl_install (hr : h.HasRealm r) (hnames : (bs.map (·.name)).Nodup)
    (hb : b ∈ bs) :
    (bs.foldl r.install h).IsBuiltin b (r.lookup (bs.foldl r.install h) b.name) := by
  induction bs generalizing h with
  | nil => cases hb
  | cons first bs ih =>
    rw [List.map_cons, List.nodup_cons] at hnames
    rw [List.foldl_cons]
    rcases List.mem_cons.1 hb with rfl | hb
    · -- The other constructors are defined under other names.
      have hothers : (r.install h b).Evolves (Elsewhere (.object r.global) b.name)
          (bs.foldl r.install (r.install h b)) :=
        evolves_foldl_install r bs _ fun b' hb' heq =>
          hnames.1 (heq.2 ▸ List.mem_map_of_mem hb')
      have hlookup : r.lookup (bs.foldl r.install (r.install h b)) b.name =
          r.lookup (r.install h b) b.name :=
        Except.ok.inj (hothers.get_eq (hasRealm_install hr b).has fun h => h ⟨rfl, rfl⟩)
      rw [hlookup]
      exact (isBuiltin_lookup_install hr b).evolves hothers
    · exact ih (hasRealm_install hr first) hnames.2 hb

theorem nodup_builtins : (builtins.map (·.name)).Nodup := by decide

theorem object_mem_builtins : Builtin.object ∈ builtins := .head _

theorem buffer_mem_builtins : Builtin.buffer ∈ builtins := .tail _ (.head _)

theorem symbol_mem_builtins : Builtin.symbol ∈ builtins := .tail _ (.tail _ (.head _))

/-- A fresh realm has every constructor under its name. -/
theorem isBuiltin_lookup_create (h : Heap) (hb : b ∈ builtins) :
    (create h).2.IsBuiltin b ((create h).1.lookup (create h).2 b.name) := by
  have hnames := nodup_builtins
  rw [create]
  generalize builtins = bs at hb hnames
  exact isBuiltin_lookup_foldl_install (hasRealm_newObject h) hnames hb

end Realm

end ValueBridge
