import ValueBridge.Heap.Property
import ValueBridge.Json

/-!
# JSON and the heap

* `Heap.ofJson`: JSON values as host values. Objects and arrays become fresh
  objects, an array one with its items by index and its length.
* `Heap.toJson`: host values as JSON values. Buffers become arrays of their bytes,
  other objects their properties, and what JSON has no form for null. An object
  within itself has no JSON value and is refused.

The properties of objects may lead from one object to any other. A walk keeps the
*path* of objects that it is within, and ends as no object is on it twice.
-/

namespace ValueBridge.Heap

/-! ## From JSON -/

mutual

/-- The host value of a JSON value, and the heap with its objects. -/
def ofJson : Json → Heap → Value × Heap
  | .null, h => (.null, h)
  | .bool b, h => (.bool b, h)
  | .number n, h => (.number n.nearest, h)
  | .string s, h => (.string s, h)
  | .array items, h =>
    let (id, h) := h.newObject
    let h := setItems id 0 items h
    (.object id, (h.setOf id lengthKey (.number (.ofNat items.length))).2)
  | .object members, h =>
    let (id, h) := h.newObject
    (.object id, setMembers id members h)

/-- The heap with items set on an object, from an index on. -/
def setItems (id : ObjectId) (index : Nat) : List Json → Heap → Heap
  | [], h => h
  | j :: js, h =>
    let (v, h) := ofJson j h
    setItems id (index + 1) js (h.setOf id (Text.indexKey index) v).2

/-- The heap with members set on an object. -/
def setMembers (id : ObjectId) : List (String × Json) → Heap → Heap
  | [], h => h
  | (name, j) :: members, h =>
    let (v, h) := ofJson j h
    setMembers id members (h.setOf id name v).2

end

/-! ## To JSON -/

/-- The number of objects that a path does not hold. -/
def offPath (h : Heap) (path : List ObjectId) : Nat :=
  (List.range h.objects.size).countP fun i => !path.contains ⟨i⟩

/-- Only what is in the heap has properties. -/
theorem index_lt_of_mem_entries {h : Heap} {id : ObjectId} {e : String × Value}
    (he : e ∈ (h.object id).properties.entries) : id.index < h.objects.size := by
  by_cases hlt : id.index < h.objects.size
  · exact hlt
  · simp [object, Array.getD, hlt, ObjectCell.plain, PropertyMap.empty] at he

theorem countP_lt_countP {p q : Nat → Bool} {l : List Nat} {a : Nat} (ha : a ∈ l)
    (hq : q a = false) (hp : p a = true) (hqp : ∀ i, q i = true → p i = true) :
    l.countP q < l.countP p := by
  induction l with
  | nil => simp at ha
  | cons b l ih =>
    have hle : l.countP q ≤ l.countP p := List.countP_mono_left fun i _ => hqp i
    simp only [List.countP_cons]
    rcases List.mem_cons.1 ha with rfl | ha
    · simp [hq, hp]; omega
    · have hlt := ih ha
      by_cases hb : q b = true
      · simp [hb, hqp b hb]; omega
      · simp [hb]; omega

/-- A longer path leaves fewer objects. -/
theorem offPath_cons_lt {h : Heap} {path : List ObjectId} {id : ObjectId}
    (hid : id.index < h.objects.size) (hpath : id ∉ path) :
    h.offPath (id :: path) < h.offPath path := by
  refine countP_lt_countP (a := id.index) (by simpa using hid) (by simp) (by simpa using hpath) ?_
  intro i hi
  simp only [List.contains_cons, Bool.not_or, Bool.and_eq_true] at hi
  exact hi.2

/-- The JSON value of a number; there is none for infinities and NaNs. -/
def numberToJson (x : Binary64) : Json :=
  if x.isFinite then .number (.double x) else .null

/-- The JSON value of a buffer. -/
def bytesToJson (bytes : Array UInt8) : Json :=
  .array (bytes.toList.map fun b => .ofInt b.toNat)

/-- The refusal of an object within itself. -/
def cyclic : Fault := .typeError "cyclic object value"

/-- The JSON value of a value within the objects of a path. -/
def toJsonFrom (h : Heap) (path : List ObjectId) : Value → Except Fault Json
  | .undefined => .ok .null
  | .null => .ok .null
  | .bool b => .ok (.bool b)
  | .number x => .ok (numberToJson x)
  | .string s => .ok (.string s)
  | .symbol _ => .ok .null
  | .function _ => .ok .null
  | .object id =>
    match (h.object id).bytes? with
    | some bytes => .ok (bytesToJson bytes)
    | none =>
      if _onPath : id ∈ path then .error cyclic
      else do
        let members ← (h.object id).properties.entries.attach.mapM fun ⟨(key, v), _⟩ => do
          let j ← toJsonFrom h (id :: path) v
          return (key, j)
        return .object members
termination_by h.offPath path
decreasing_by exact offPath_cons_lt (index_lt_of_mem_entries ‹_›) ‹_›

/-- The JSON value of a value. -/
def toJson (h : Heap) (v : Value) : Except Fault Json :=
  h.toJsonFrom [] v

end ValueBridge.Heap
