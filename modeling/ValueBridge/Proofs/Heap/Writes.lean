import ValueBridge.Proofs.Heap.Evolution
import ValueBridge.Proofs.Run
import ValueBridge.Proofs.Text.Order

/-!
# Runs of writes

A *run of writes* writes to one property after the other (`Heap.write`), whatever the targets, the
keys and the values. An object or a function changes by the writes to it alone
(`Heap.follows_object`, `Heap.follows_function`). What of it changes by the writes to one property
is after a run what the last of them left, if there was any (`Heap.Follows.eq_run`).

* `Heap.properties_run`: what plain objects and functions report after a run of writes.
-/

namespace ValueBridge

/-- A write to a property. -/
structure Write where
  target : Value
  key : String
  value : Value

/-- The value that a run of writes last wrote to a property, if it wrote to it at all. An
    `undefined` that was written is a value like any other. -/
def lastWritten? (ws : List Write) (target : Value) (key : String) : Option Value :=
  (ws.reverse.find? fun w => w.target = target ∧ w.key = key).map (·.value)

theorem lastWritten?_concat (ws : List Write) (w : Write) (target : Value) (key : String) :
    lastWritten? (ws ++ [w]) target key =
      if w.target = target ∧ w.key = key then some w.value else lastWritten? ws target key := by
  rw [lastWritten?, List.reverse_concat, List.find?_cons]
  by_cases hw : w.target = target ∧ w.key = key
  · rw [if_pos hw, decide_eq_true hw, Option.map_some]
  · rw [if_neg hw, decide_eq_false hw, lastWritten?]

/-- The binding of a key after a run of writes: that of the last write to it, or the one before
    the run. -/
def boundAfter (ws : List Write) (target : Value) (before : PropertyMap Value) (key : String) :
    Option Value :=
  (lastWritten? ws target key).or (before.get? key)

/-! ## Cells -/

namespace ObjectCell

variable {cell : ObjectCell}

/-- The object after a write, or as it is if the property is not writable. -/
def afterSet (cell : ObjectCell) (key : String) (v : Value) : ObjectCell :=
  (cell.set? key v).getD cell

/-- A plain object keeps every property that is written. -/
theorem set?_of_plain (hplain : cell.bytes? = none) (key : String) (v : Value) :
    cell.set? key v = some { cell with properties := cell.properties.insert key v } := by
  simp only [set?, hplain]

theorem afterSet_of_plain (hplain : cell.bytes? = none) (key : String) (v : Value) :
    cell.afterSet key v = { cell with properties := cell.properties.insert key v } := by
  rw [afterSet, set?_of_plain hplain, Option.getD_some]

theorem get?_afterSet_of_plain (hplain : cell.bytes? = none) (key k : String) (v : Value) :
    (cell.afterSet k v).properties.get? key =
      if k = key then some v else cell.properties.get? key := by
  rw [afterSet_of_plain hplain, PropertyMap.get?_insert]
  simp only [eq_comm]

end ObjectCell

namespace FunctionCell

variable {cell : FunctionCell} {key : String}

/-- The function after a write, or as it is if the property is not writable. -/
def afterSet (cell : FunctionCell) (key : String) (v : Value) : FunctionCell :=
  (cell.set? key v).getD cell

theorem name_afterSet (cell : FunctionCell) (key : String) (v : Value) :
    (cell.afterSet key v).name = cell.name := by
  rw [afterSet, set?]
  split <;> rfl

/-- A property other than the name is kept as it is written. -/
theorem get?_afterSet (hkey : key ≠ nameKey) (k : String) (v : Value) :
    (cell.afterSet k v).properties.get? key =
      if k = key then some v else cell.properties.get? key := by
  rw [afterSet, set?]
  split
  · next hname =>
    rw [Option.getD_none, if_neg]
    rintro rfl
    exact hkey hname
  · rw [Option.getD_some, PropertyMap.get?_insert]
    simp only [eq_comm]

end FunctionCell

namespace Heap

variable {h : Heap} {w : Write}

/-- The heap after a write, or as it is if the target has no properties. -/
def write (h : Heap) (w : Write) : Heap :=
  h.afterSet w.target w.key w.value

/-! ## One write -/

theorem write_cases (h : Heap) (w : Write) : h.Sets w.target w.key w.value (h.write w) := by
  rw [write, afterSet]
  split
  · next hset => exact sets_of_set hset
  · exact .refused

theorem has_write {v : Value} : (h.write w).Has v ↔ h.Has v :=
  (write_cases h w).has

/-- A write to something else leaves an object as it is. -/
theorem Sets.object_eq {target v : Value} {key : String} {h' : Heap} {id : ObjectId}
    (hs : h.Sets target key v h') (hne : target ≠ .object id) : h'.object id = h.object id := by
  cases hs with
  | refused => rfl
  | object htarget =>
    rw [object_putObject, if_neg]
    rintro ⟨rfl, -⟩
    exact hne htarget
  | function => rfl

/-- A write to something else leaves a function as it is. -/
theorem Sets.function_eq {target v : Value} {key : String} {h' : Heap} {id : FunctionId}
    (hs : h.Sets target key v h') (hne : target ≠ .function id) :
    h'.function id = h.function id := by
  cases hs with
  | refused => rfl
  | object => rfl
  | function htarget =>
    rw [function_putFunction, if_neg]
    rintro ⟨rfl, -⟩
    exact hne htarget

/-! ## Runs -/

/-- What is looked at of the target, its cell, changes by the writes to the target alone. -/
def Follows {C : Type} (target : Value) (cell : Heap → C) (next : C → String → Value → C) : Prop :=
  ∀ h w, h.Has target →
    cell (h.write w) = if w.target = target then next (cell h) w.key w.value else cell h

theorem follows_object (id : ObjectId) :
    Follows (.object id) (fun h => h.object id) ObjectCell.afterSet := by
  intro h w hid
  have hlt : id.index < h.objects.size := hid
  dsimp only
  split
  · next htarget =>
    rw [write, htarget, afterSet, set, setOf, ObjectCell.afterSet]
    cases (h.object id).set? w.key w.value with
    | none => rfl
    | some cell => rw [object_putObject, if_pos ⟨rfl, hlt⟩, Option.getD_some]
  · next htarget => exact (write_cases h w).object_eq htarget

theorem follows_function (id : FunctionId) :
    Follows (.function id) (fun h => h.function id) FunctionCell.afterSet := by
  intro h w hid
  have hlt : id.index < h.functions.size := hid
  dsimp only
  split
  · next htarget =>
    rw [write, htarget, afterSet, set, FunctionCell.afterSet]
    cases (h.function id).set? w.key w.value with
    | none => rfl
    | some cell => rw [function_putFunction, if_pos ⟨rfl, hlt⟩, Option.getD_some]
  · next htarget => exact (write_cases h w).function_eq htarget

namespace Follows

variable {C : Type} {target : Value} {cell : Heap → C} {next : C → String → Value → C}
  {I : C → Prop} (hfollows : Follows target cell next) (hI : ∀ c k v, I c → I (next c k v))

include hfollows hI

/-- What every write to a target keeps of it is kept by a run of writes. -/
theorem run (hhas : h.Has target) (hc : I (cell h)) (ws : List Write) :
    (ws.foldl write h).Has target ∧ I (cell (ws.foldl write h)) := by
  refine foldl_invariant (I := fun h => h.Has target ∧ I (cell h)) ?_ ⟨hhas, hc⟩ ws
  rintro h w ⟨hhas, hc⟩
  refine ⟨has_write.2 hhas, ?_⟩
  rw [hfollows h w hhas]
  split
  · exact hI _ _ _ hc
  · exact hc

/-- What a write to a property sets, and every other write to the target leaves as it is, is after
    a run as the last write to the property set it. -/
theorem eq_run {α : Type} {f : C → α} {g : Value → α} {key : String}
    (hstep : ∀ c k v, I c → f (next c k v) = if k = key then g v else f c)
    (hhas : h.Has target) (hc : I (cell h)) (ws : List Write) :
    f (cell (ws.foldl write h)) = ((lastWritten? ws target key).map g).getD (f (cell h)) := by
  induction ws using List.reverseRecOn with
  | nil => rfl
  | append_singleton ws w ih =>
    obtain ⟨hhas', hc'⟩ := hfollows.run hI hhas hc ws
    rw [List.foldl_append, List.foldl_cons, List.foldl_nil, hfollows _ w hhas',
      lastWritten?_concat]
    by_cases htarget : w.target = target
    · rw [if_pos htarget, hstep _ _ _ hc']
      by_cases hkey : w.key = key
      · rw [if_pos hkey, if_pos ⟨htarget, hkey⟩]
        rfl
      · rw [if_neg hkey, if_neg fun h => hkey h.2]
        exact ih
    · rw [if_neg htarget, if_neg fun h => htarget h.1]
      exact ih

/-- The bindings of a cell after a run of writes, if every write binds its value. -/
theorem get?_run {properties : C → PropertyMap Value} {key : String}
    (hstep : ∀ c k v, I c → (properties (next c k v)).get? key =
      if k = key then some v else (properties c).get? key)
    (hhas : h.Has target) (hc : I (cell h)) (ws : List Write) :
    (properties (cell (ws.foldl write h))).get? key =
      boundAfter ws target (properties (cell h)) key := by
  rw [hfollows.eq_run (f := fun c => (properties c).get? key) hI hstep hhas hc, boundAfter]
  cases lastWritten? ws target key <;> rfl

end Follows

/-- What is bound to the keys of an object is what it reports. -/
structure Reports (h : Heap) (id : ObjectId) (bound : String → Option Value) : Prop where
  get : ∀ key, h.get (.object id) key = .ok ((bound key).getD .undefined)
  has : ∀ key, (h.object id).properties.contains key = (bound key).isSome
  mem_keys : ∀ key, key ∈ (h.object id).properties.keys ↔ (bound key).isSome = true
  mem_entries : ∀ key v, (key, v) ∈ (h.object id).properties.entries ↔ bound key = some v
  keys_eq : (h.object id).properties.entries.map (·.1) = (h.object id).properties.keys
  nodup : (h.object id).properties.keys.Nodup
  ascending : (h.object id).properties.keys.Pairwise (Utf8.encode · < Utf8.encode ·)

/-- A plain object reports the bindings that it keeps. -/
theorem reports_of_plain {id : ObjectId} {bound : String → Option Value}
    (hplain : (h.object id).bytes? = none)
    (hbound : ∀ key, (h.object id).properties.get? key = bound key) : h.Reports id bound where
  get key := by rw [get, getOf, ObjectCell.get, hplain, ObjectCell.ownProperty, hbound]
  has key := by rw [PropertyMap.contains, hbound]
  mem_keys key := by rw [PropertyMap.mem_keys_iff, hbound, Option.isSome_iff_exists]
  mem_entries key v := by rw [PropertyMap.mem_entries_iff, hbound]
  keys_eq := rfl
  nodup := (PropertyMap.keys_sorted _).imp Std.ne_of_lt
  ascending := (PropertyMap.keys_sorted _).imp Utf8.encode_lt_encode_iff.2

/-- A plain object reports the bindings of the run of writes. -/
theorem reports_run {id : ObjectId} (hid : h.Has (.object id))
    (hplain : (h.object id).bytes? = none) (ws : List Write) :
    (ws.foldl write h).Reports id (boundAfter ws (.object id) (h.object id).properties) := by
  have hkeep (cell : ObjectCell) (k : String) (v : Value) (hplain : cell.bytes? = none) :
      (cell.afterSet k v).bytes? = none := by
    rw [ObjectCell.afterSet_of_plain hplain]
    exact hplain
  refine reports_of_plain ((follows_object id).run hkeep hid hplain ws).2 fun key => ?_
  exact (follows_object id).get?_run hkeep
    (fun _ k v hplain => ObjectCell.get?_afterSet_of_plain hplain key k v) hid hplain ws

/-- What a function with the given name reports, with the other properties bound as given. -/
structure ReportsFunction (h : Heap) (id : FunctionId) (name : String)
    (bound : String → Option Value) : Prop where
  get_name : h.get (.function id) nameKey = .ok (.string name)
  set_name : ∀ v, h.set (.function id) nameKey v = .ok (false, h)
  get : ∀ key, key ≠ nameKey → h.get (.function id) key = .ok ((bound key).getD .undefined)

theorem reportsFunction_run {id : FunctionId} (hid : h.Has (.function id)) (ws : List Write) :
    (ws.foldl write h).ReportsFunction id (h.function id).name
      (boundAfter ws (.function id) (h.function id).properties) where
  get_name := by
    have hname := (follows_function id).run (I := fun cell => cell.name = (h.function id).name)
      (fun cell k v hname => (cell.name_afterSet k v).trans hname) hid rfl ws
    rw [get, FunctionCell.get, if_pos rfl, hname.2]
  set_name v := by
    rw [Heap.set, FunctionCell.set?, if_pos rfl]
  get key hkey := by
    have hbound := (follows_function id).get?_run (I := fun _ => True) (fun _ _ _ _ => trivial)
      (fun cell k v _ => cell.get?_afterSet hkey k v) hid trivial ws
    rw [Heap.get, FunctionCell.get, if_neg hkey, hbound]

/-- After a run of writes, whatever is written to, a plain object and a function have the value of
    the last write to each key, or what was bound to it before the run; the name of a function is
    no such key. What is written to one thing changes no other. The keys of an object are those
    that are bound, each once, in the order of their UTF-8 bytes, and this is the order of the codes
    of their characters. -/
theorem properties_run (h : Heap) (ws : List Write) :
    (∀ id, h.Has (.object id) → (h.object id).bytes? = none →
      (ws.foldl write h).Reports id (boundAfter ws (.object id) (h.object id).properties)) ∧
    (∀ id, h.Has (.function id) →
      (ws.foldl write h).ReportsFunction id (h.function id).name
        (boundAfter ws (.function id) (h.function id).properties)) ∧
    (∀ w, (∀ id, w.target ≠ .object id → (h.write w).object id = h.object id) ∧
      ∀ id, w.target ≠ .function id → (h.write w).function id = h.function id) ∧
    ∀ s t, Utf8.encode s < Utf8.encode t ↔ Utf8.codes s < Utf8.codes t := by
  refine ⟨fun id hid hplain => reports_run hid hplain ws, fun id hid => reportsFunction_run hid ws,
    fun w => ⟨fun id => (write_cases h w).object_eq, fun id => (write_cases h w).function_eq⟩,
    fun s t => ?_⟩
  rw [Utf8.encode_lt_encode_iff, Utf8.codes_lt_codes_iff]

end Heap

end ValueBridge
