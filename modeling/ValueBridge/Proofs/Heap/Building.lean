import ValueBridge.Proofs.Heap
import ValueBridge.Proofs.Heap.Evolution
import ValueBridge.Proofs.Heap.Unfolding
import ValueBridge.Proofs.Json.Normal

/-!
# JSON values in the heap

The host value of a JSON value is a tree of fresh objects, whatever the heap held before, and its
unfolding is the normal form of the JSON value (`Heap.built_ofJson`). So it is never refused as
cyclic, and the way through the heap and back takes a JSON value to its normal form
(`Heap.toJson_ofJson`).

An array is built as the object that stands for it (`Heap.ofJson_array`), so that there is one
loop to look at, that over members. Each round of it makes new objects above all others, and
writes their root to the object that is being filled, which is below them. Hence the objects made
so far are a *forest* (`Heap.Forest`): properties lead upward, and no two lead to one object.
-/

namespace ValueBridge

/-- The keys after a binding are those of any other map with the same keys. -/
theorem PropertyMap.keys_insert_congr {α β : Type} {m : PropertyMap α} {m' : PropertyMap β}
    (hkeys : m.keys = m'.keys) (key : String) (v : α) (w : β) :
    (m.insert key v).keys = (m'.insert key w).keys := by
  change (insertEntry key v m.entries).map Prod.fst = (insertEntry key w m'.entries).map Prod.fst
  rw [keys, keys] at hkeys
  generalize m.entries = l at hkeys ⊢
  generalize m'.entries = l' at hkeys ⊢
  induction l generalizing l' with
  | nil =>
    rw [List.map_eq_nil_iff.1 hkeys.symm]
    rfl
  | cons e l ih =>
    cases l' with
    | nil => cases hkeys
    | cons e' l' =>
      obtain ⟨hhead, htail⟩ := List.cons.inj hkeys
      simp only [insertEntry, hhead]
      split
      · simp only [List.map_cons, htail]
      · split
        · simp only [List.map_cons, htail]
        · simp only [List.map_cons, ih l' htail]

namespace Heap

open Relation

variable {h h' h₀ : Heap} {lo : Nat} {v : Value} {j : Json} {a b c id : ObjectId} {key : String}
  {m : PropertyMap Json} {members : List (String × Json)}

/-! ## One loop -/

theorem setMembers_append (id : ObjectId) (members members' : List (String × Json)) (h : Heap) :
    setMembers id (members ++ members') h = setMembers id members' (setMembers id members h) := by
  induction members generalizing h with
  | nil => rw [List.nil_append, setMembers]
  | cons e members ih =>
    rw [List.cons_append, setMembers, setMembers]
    exact ih _

theorem setItems_eq_setMembers (id : ObjectId) (index : Nat) (items : List Json) (h : Heap) :
    setItems id index items h = setMembers id (Json.indexed items index) h := by
  induction items generalizing index h with
  | nil =>
    rw [setItems, Json.indexed, List.zipIdx_nil, List.map_nil, setMembers]
  | cons j items ih =>
    rw [setItems, Json.indexed, List.zipIdx_cons, List.map_cons, setMembers]
    exact ih _ _

/-- The host value of an array is that of the object that stands for it. -/
theorem ofJson_array (items : List Json) (h : Heap) :
    ofJson (.array items) h = ofJson (.object (Json.arrayMembers items)) h := by
  have hlength : Json.Number.nearest (.integer items.length) = .ofNat items.length := by
    rw [Json.Number.nearest, Int.natAbs_natCast, decide_eq_false (by omega)]
    rfl
  rw [ofJson, ofJson, Json.arrayMembers]
  simp only [setMembers_append, setItems_eq_setMembers, setMembers, Json.ofInt, ofJson, hlength]

/-! ## Forests -/

/-- A property of an object holds the other object. -/
def Holds (h : Heap) (a : ObjectId) (key : String) (c : ObjectId) : Prop :=
  (h.object a).properties.get? key = some (.object c)

theorem Leads.exists_holds (hleads : h.Leads a c) : ∃ key, h.Holds a key c :=
  hleads.2

/-- The objects from an index on are plain and form a forest, with what has a property below what
    the property holds. -/
structure Forest (h : Heap) (lo : Nat) : Prop where
  plain : ∀ a, lo ≤ a.index → (h.object a).bytes? = none
  upward : ∀ {a key c}, lo ≤ a.index → h.Holds a key c →
    a.index < c.index ∧ c.index < h.objects.size
  unshared : ∀ {a b c key key'}, lo ≤ a.index → lo ≤ b.index → h.Holds a key c →
    h.Holds b key' c → a = b ∧ key = key'

theorem object_of_le (hle : h.objects.size ≤ a.index) : h.object a = .plain := by
  rw [object, Array.getD_eq_getD_getElem?, Array.getElem?_eq_none hle, Option.getD_none]

theorem not_holds_plain (hplain : h.object a = .plain) : ¬h.Holds a key c := by
  rw [Holds, hplain]
  exact nofun

namespace Forest

/-- Objects without properties are a forest. -/
theorem of_plain (hplain : ∀ a, lo ≤ a.index → h.object a = .plain) : h.Forest lo where
  plain a ha := by rw [hplain a ha, ObjectCell.plain]
  upward ha hc := absurd hc (not_holds_plain (hplain _ ha))
  unshared ha _ hc _ := absurd hc (not_holds_plain (hplain _ ha))

theorem newObject (h : Heap) : (h.newObject).2.Forest h.objects.size := by
  refine of_plain fun a ha => ?_
  rw [Heap.newObject, object_allocObject]
  split
  · rfl
  · exact object_of_le ha

/-- What an object leads to is not below it. -/
theorem le_of_leadsTo (hf : h.Forest lo) (hc : lo ≤ c.index) (hlt : c.index < h.objects.size)
    (ha : h.LeadsTo (.object c) a) : c.index ≤ a.index ∧ a.index < h.objects.size := by
  obtain ⟨_, ⟨⟩, ha⟩ := ha
  induction ha with
  | refl => exact ⟨Nat.le_refl _, hlt⟩
  | tail _ hleads ih =>
    obtain ⟨key, hholds⟩ := hleads.exists_holds
    obtain ⟨hup, hlt⟩ := hf.upward (Nat.le_trans hc ih.1) hholds
    exact ⟨Nat.le_trans ih.1 (Nat.le_of_lt hup), hlt⟩

section Extension

variable (hf : h.Forest lo) (hk : h.Keeps h') (hf' : h'.Forest h.objects.size)

include hf hk hf'

/-- No property holds the first one of the new objects. -/
theorem not_holds_first (ha : lo ≤ a.index) (hc : c.index = h.objects.size) :
    ¬h'.Holds a key c := by
  intro hholds
  by_cases hlt : a.index < h.objects.size
  · rw [Holds, hk.object a hlt] at hholds
    have := (hf.upward ha hholds).2
    omega
  · have := (hf'.upward (Nat.le_of_not_lt hlt) hholds).1
    omega

/-- A forest beside another one is a forest with it. -/
theorem extend : h'.Forest lo := by
  have hbelow {a c : ObjectId} {key : String} (ha : lo ≤ a.index) (hlt : a.index < h.objects.size)
      (hc : h'.Holds a key c) : h.Holds a key c ∧ a.index < c.index ∧ c.index < h.objects.size := by
    rw [Holds, hk.object a hlt] at hc
    exact ⟨hc, hf.upward ha hc⟩
  have habove {a c : ObjectId} {key : String} (hlt : ¬a.index < h.objects.size)
      (hc : h'.Holds a key c) : h.objects.size < c.index :=
    Nat.lt_of_le_of_lt (Nat.le_of_not_lt hlt) (hf'.upward (Nat.le_of_not_lt hlt) hc).1
  refine ⟨fun a ha => ?_, fun {a key c} ha hc => ?_, fun {a b c key key'} ha hb hac hbc => ?_⟩
  · by_cases hlt : a.index < h.objects.size
    · rw [hk.object a hlt]
      exact hf.plain a ha
    · exact hf'.plain a (Nat.le_of_not_lt hlt)
  · by_cases hlt : a.index < h.objects.size
    · obtain ⟨-, hup, hsize⟩ := hbelow ha hlt hc
      exact ⟨hup, Nat.lt_of_lt_of_le hsize hk.objects_le⟩
    · exact hf'.upward (Nat.le_of_not_lt hlt) hc
  · -- What holds one object is on one side of the border.
    by_cases hlt : a.index < h.objects.size
    · obtain ⟨hac, -, hsize⟩ := hbelow ha hlt hac
      by_cases hlt' : b.index < h.objects.size
      · exact hf.unshared ha hb hac (hbelow hb hlt' hbc).1
      · exact absurd (habove hlt' hbc) (Nat.lt_asymm hsize)
    · by_cases hlt' : b.index < h.objects.size
      · exact absurd (habove hlt hac) (Nat.lt_asymm (hbelow hb hlt' hbc).2.2)
      · exact hf'.unshared (Nat.le_of_not_lt hlt) (Nat.le_of_not_lt hlt') hac hbc

end Extension

end Forest

/-! ## Writes to plain objects -/

section Write

variable (hbytes : (h.object id).bytes? = none) (hlt : id.index < h.objects.size)

include hbytes

theorem setOf_eq (key : String) (v : Value) : h.setOf id key v =
    (true, h.putObject id ⟨(h.object id).properties.insert key v, none⟩) := by
  simp only [setOf, ObjectCell.set?, hbytes]

theorem size_setOf (key : String) (v : Value) :
    (h.setOf id key v).2.objects.size = h.objects.size := by
  rw [setOf_eq hbytes, putObject, Array.size_setIfInBounds]

include hlt

theorem object_setOf (key : String) (v : Value) (a : ObjectId) : (h.setOf id key v).2.object a =
    if a = id then ⟨(h.object id).properties.insert key v, none⟩ else h.object a := by
  rw [setOf_eq hbytes, object_putObject]
  simp only [hlt, and_true]

theorem holds_setOf {k : String} : (h.setOf id key v).2.Holds a k c ↔
    if a = id ∧ k = key then v = .object c else h.Holds a k c := by
  rw [Holds, object_setOf hbytes hlt]
  by_cases ha : a = id
  · subst ha
    rw [if_pos rfl, PropertyMap.get?_insert]
    by_cases hk : k = key
    · simp [hk]
    · simp [hk, Holds]
  · simp [ha, Holds]

/-- A forest stays one as its lowest object gets to hold what is above it and not yet held. -/
theorem Forest.setOf (hf : h.Forest lo)
    (hv : ∀ c, v = .object c → id.index < c.index ∧ c.index < h.objects.size ∧
      ∀ a k, lo ≤ a.index → ¬h.Holds a k c) : (h.setOf id key v).2.Forest lo := by
  refine ⟨fun a ha => ?_, fun {a k c} ha hc => ?_, fun {a b c k k'} ha hb hac hbc => ?_⟩
  · rw [object_setOf hbytes hlt]
    split
    · rfl
    · exact hf.plain a ha
  · rw [size_setOf hbytes]
    rw [holds_setOf hbytes hlt] at hc
    split at hc
    · next hnew => exact hnew.1 ▸ ⟨(hv c hc).1, (hv c hc).2.1⟩
    · exact hf.upward ha hc
  · rw [holds_setOf hbytes hlt] at hac hbc
    split at hac
    · next hnew =>
      split at hbc
      · next hnew' => exact ⟨hnew.1.trans hnew'.1.symm, hnew.2.trans hnew'.2.symm⟩
      · exact absurd hbc ((hv c hac).2.2 b k' hb)
    · split at hbc
      · exact absurd hac ((hv c hbc).2.2 a k ha)
      · exact hf.unshared ha hb hac hbc

end Write

theorem Keeps.setOf (hk : h₀.Keeps h) (hbytes : (h.object id).bytes? = none)
    (hlt : id.index < h.objects.size) (hid : h₀.objects.size ≤ id.index) (key : String)
    (v : Value) : h₀.Keeps (h.setOf id key v).2 where
  objects_le := by
    rw [size_setOf hbytes]
    exact hk.objects_le
  functions_le := by
    rw [setOf_eq hbytes]
    exact hk.functions_le
  object a ha := by
    have hne : a ≠ id := fun heq => Nat.not_lt_of_le hid (heq ▸ ha)
    rw [object_setOf hbytes hlt, if_neg hne]
    exact hk.object a ha
  function f hf := by
    rw [setOf_eq hbytes]
    exact hk.function f hf

/-! ## Unfoldings of what is built -/

/-- An unfolding depends only on what the value leads to. -/
theorem Unfolds.congr (hj : h.Unfolds v j)
    (hsame : ∀ a, h.LeadsTo v a → h'.object a = h.object a) : h'.Unfolds v j := by
  induction hj with
  | undefined => exact .undefined
  | null => exact .null
  | bool b => exact .bool b
  | finite hx => exact .finite hx
  | notFinite hx => exact .notFinite hx
  | string s => exact .string s
  | symbol id => exact .symbol id
  | function id => exact .function id
  | @buffer id bytes hbytes =>
    refine .buffer ?_
    rw [hsame id ⟨id, rfl, .refl⟩, hbytes]
  | @object id members hbytes hkeys _ ih =>
    have hroot := hsame id ⟨id, rfl, .refl⟩
    refine .object (hroot ▸ hbytes) (hroot ▸ hkeys) fun key v j hget hmem => ?_
    rw [hroot] at hget
    refine ih key v j hget hmem fun a ha => hsame a ⟨id, rfl, ?_⟩
    exact (ha.of_property hbytes hget).to_reflTransGen

/-- The value was made of the JSON value, with all its objects new. -/
structure Built (h : Heap) (j : Json) (v : Value) (h' : Heap) : Prop where
  keeps : h.Keeps h'
  forest : h'.Forest h.objects.size
  root : ∀ c, v = .object c → c.index = h.objects.size ∧ c.index < h'.objects.size
  unfolds : h'.Unfolds v j.normal

/-- The first one of the new objects has been filled with members that unfold to the map. -/
structure Filled (h₀ : Heap) (id : ObjectId) (m : PropertyMap Json) (h : Heap) : Prop where
  keeps : h₀.Keeps h
  index : id.index = h₀.objects.size
  lt : id.index < h.objects.size
  forest : h.Forest id.index
  keys : (h.object id).properties.keys = m.keys
  unfolds : ∀ {key v j}, (h.object id).properties.get? key = some v → m.get? key = some j →
    h.Unfolds v j

namespace Filled

theorem newObject (h : Heap) : Filled h h.newObject.1 .empty h.newObject.2 where
  keeps := .allocObject h .plain
  index := rfl
  lt := has_allocObject h .plain
  forest := .newObject h
  keys := by
    have hfirst : h.newObject.2.object h.newObject.1 = .plain :=
      (object_allocObject h .plain _).trans (if_pos rfl)
    rw [hfirst]
    rfl
  unfolds := nofun

section Member

variable (hfilled : Filled h₀ id m h) (hbuilt : Built h j v h')

include hfilled hbuilt

theorem lt_built : id.index < h'.objects.size :=
  Nat.lt_of_lt_of_le hfilled.lt hbuilt.keeps.objects_le

theorem object_built : h'.object id = h.object id :=
  hbuilt.keeps.object id hfilled.lt

theorem bytes?_built : (h'.object id).bytes? = none := by
  rw [hfilled.object_built hbuilt]
  exact hfilled.forest.plain id (Nat.le_refl _)

theorem forest_built : h'.Forest id.index :=
  hfilled.forest.extend hbuilt.keeps hbuilt.forest

theorem index_lt_root {c : ObjectId} (hc : v = .object c) : id.index < c.index := by
  rw [(hbuilt.root c hc).1]
  exact hfilled.lt

/-- The object that is being filled is below what it holds. -/
theorem object_member_of_lt (name : String) {a : ObjectId} (ha : id.index < a.index) :
    (h'.setOf id name v).2.object a = h'.object a := by
  rw [object_setOf (hfilled.bytes?_built hbuilt) (hfilled.lt_built hbuilt), if_neg]
  rintro rfl
  exact Nat.lt_irrefl _ ha

/-- What the new member holds unfolds as it was built. -/
theorem unfolds_new (name : String) : (h'.setOf id name v).2.Unfolds v j.normal := by
  refine hbuilt.unfolds.congr fun a ha => hfilled.object_member_of_lt hbuilt name ?_
  have hobject := ha
  obtain ⟨c, rfl, -⟩ := hobject
  have hc := hfilled.index_lt_root hbuilt rfl
  exact Nat.lt_of_lt_of_le hc ((hfilled.forest_built hbuilt).le_of_leadsTo (Nat.le_of_lt hc)
    (hbuilt.root c rfl).2 ha).1

/-- What the other members hold unfolds as before. -/
theorem unfolds_old (name : String) {key : String} {w : Value} {k : Json}
    (hw : (h.object id).properties.get? key = some w) (hk : m.get? key = some k) :
    (h'.setOf id name v).2.Unfolds w k := by
  refine (hfilled.unfolds hw hk).congr fun a ha => ?_
  have hobject := ha
  obtain ⟨c, rfl, -⟩ := hobject
  obtain ⟨hc, hsize⟩ := hfilled.forest.upward (Nat.le_refl _) hw
  obtain ⟨hca, ha⟩ := hfilled.forest.le_of_leadsTo (Nat.le_of_lt hc) hsize ha
  rw [hfilled.object_member_of_lt hbuilt name (Nat.lt_of_lt_of_le hc hca),
    hbuilt.keeps.object a ha]

/-- One member more. -/
theorem member (name : String) :
    Filled h₀ id (m.insert name j.normal) (h'.setOf id name v).2 := by
  have hlt := hfilled.lt_built hbuilt
  have hbytes := hfilled.bytes?_built hbuilt
  have hcell : ((h'.setOf id name v).2.object id).properties =
      (h.object id).properties.insert name v := by
    rw [object_setOf hbytes hlt, if_pos rfl, hfilled.object_built hbuilt]
  refine ⟨?_, hfilled.index, ?_, ?_, ?_, fun {key w k} hw hk => ?_⟩
  · exact (hfilled.keeps.trans hbuilt.keeps).setOf hbytes hlt (Nat.le_of_eq hfilled.index.symm) _ _
  · rw [size_setOf hbytes]
    exact hlt
  · refine (hfilled.forest_built hbuilt).setOf hbytes hlt fun c hc => ?_
    refine ⟨hfilled.index_lt_root hbuilt hc, (hbuilt.root c hc).2, fun a k ha => ?_⟩
    exact hfilled.forest.not_holds_first hbuilt.keeps hbuilt.forest ha (hbuilt.root c hc).1
  · rw [hcell]
    exact PropertyMap.keys_insert_congr hfilled.keys name v j.normal
  · rw [hcell, PropertyMap.get?_insert] at hw
    rw [PropertyMap.get?_insert] at hk
    split at hw
    · next hname =>
      rw [if_pos hname] at hk
      cases hw
      cases hk
      exact hfilled.unfolds_new hbuilt name
    · next hname =>
      rw [if_neg hname] at hk
      exact hfilled.unfolds_old hbuilt name hw hk

end Member

/-- All members. -/
theorem setMembers (hmembers : ∀ e ∈ members, ∀ h, Built h e.2 (ofJson e.2 h).1 (ofJson e.2 h).2)
    (hfilled : Filled h₀ id m h) : Filled h₀ id
      (members.foldl (fun m e => m.insert e.1 e.2.normal) m) (setMembers id members h) := by
  induction members generalizing h m with
  | nil =>
    rw [Heap.setMembers]
    exact hfilled
  | cons e members ih =>
    rw [Heap.setMembers]
    exact ih (fun e' he' => hmembers e' (List.mem_cons_of_mem _ he'))
      (hfilled.member (hmembers e List.mem_cons_self h) e.1)

end Filled

theorem built_ofJson_object
    (hmembers : ∀ e ∈ members, ∀ h, Built h e.2 (ofJson e.2 h).1 (ofJson e.2 h).2) (h : Heap) :
    Built h (.object members) (ofJson (.object members) h).1 (ofJson (.object members) h).2 := by
  have hfilled := (Filled.newObject h).setMembers hmembers
  rw [ofJson]
  dsimp only
  refine ⟨hfilled.keeps, hfilled.forest, ?_, ?_⟩
  · rintro _ ⟨⟩
    exact ⟨rfl, hfilled.lt⟩
  · have hnormal : Json.normal (.object members) = .object
        (members.foldl (fun m e => m.insert e.1 e.2.normal) PropertyMap.empty).entries := by
      rw [Json.normal, Json.normalMembers_eq_map, PropertyMap.ofList, List.foldl_map]
    rw [hnormal]
    refine .object (hfilled.forest.plain _ (Nat.le_refl _)) hfilled.keys.symm ?_
    exact fun key v j hget hmem => hfilled.unfolds hget (PropertyMap.mem_entries_iff.1 hmem)

/-- What has no objects is built in the heap as it is. -/
theorem built_of_not_object (hv : ∀ c, v ≠ .object c) (hj : h.Unfolds v j.normal) :
    Built h j v h :=
  ⟨.refl h, .of_plain fun _ ha => object_of_le ha, fun c hc => absurd hc (hv c), hj⟩

theorem built_ofJson_number (n : Json.Number) (h : Heap) :
    Built h (.number n) (ofJson (.number n) h).1 (ofJson (.number n) h).2 := by
  rw [ofJson]
  refine built_of_not_object nofun ?_
  rw [Json.normal, Json.Number.normal]
  split
  · next hfinite => exact .finite hfinite
  · next hfinite => exact .notFinite (Bool.eq_false_iff.2 hfinite)

/-- A JSON value is built in any heap. -/
theorem built_ofJson (j : Json) (h : Heap) : Built h j (ofJson j h).1 (ofJson j h).2 := by
  induction j using Json.induct generalizing h with
  | null =>
    rw [ofJson]
    exact built_of_not_object nofun .null
  | bool b =>
    rw [ofJson]
    exact built_of_not_object nofun (.bool b)
  | number n => exact built_ofJson_number n h
  | string s =>
    rw [ofJson]
    exact built_of_not_object nofun (.string s)
  | array items ih =>
    have hmembers : ∀ e ∈ Json.arrayMembers items, ∀ h,
        Built h e.2 (ofJson e.2 h).1 (ofJson e.2 h).2 := by
      intro e he h
      rcases Json.mem_arrayMembers he with hitem | ⟨n, hn⟩
      · exact ih _ hitem h
      · rw [hn]
        exact built_ofJson_number n h
    have hbuilt := built_ofJson_object hmembers h
    rw [ofJson_array]
    exact ⟨hbuilt.keeps, hbuilt.forest, hbuilt.root, Json.normal_array items ▸ hbuilt.unfolds⟩
  | object members ih => exact built_ofJson_object ih h

/-! ## There and back -/

/-- The objects that a value leads to form a tree: none is within itself, and none is held by two
    properties. -/
structure IsTree (h : Heap) (v : Value) : Prop where
  acyclic : ¬h.MeetsCycle v
  unshared : ∀ {a b c key key'}, h.LeadsTo v a → h.LeadsTo v b → h.Holds a key c →
    h.Holds b key' c → a = b ∧ key = key'

/-- Every object of a forest leads to a tree. -/
theorem Forest.isTree (hf : h.Forest lo)
    (hroot : ∀ c, v = .object c → lo ≤ c.index ∧ c.index < h.objects.size)
    (hj : h.Unfolds v j) : h.IsTree v := by
  refine ⟨hj.not_meetsCycle, fun {a b c key key'} ha hb hac hbc => ?_⟩
  have hobject := ha
  obtain ⟨r, rfl, -⟩ := hobject
  obtain ⟨hr, hlt⟩ := hroot r rfl
  have hle {d : ObjectId} (hd : h.LeadsTo (.object r) d) : lo ≤ d.index :=
    Nat.le_trans hr (hf.le_of_leadsTo hr hlt hd).1
  exact hf.unshared (hle ha) (hle hb) hac hbc

/-- The JSON value of a value that has an unfolding. -/
theorem Unfolds.toJson_eq (hj : h.Unfolds v j) : h.toJson v = .ok j := by
  have hwalk := h.walk_spec [] v
  rw [toJson]
  cases hw : h.toJsonFrom [] v with
  | ok j' =>
    rw [hw] at hwalk
    rw [hwalk.unique hj]
  | error fault =>
    rw [hw] at hwalk
    obtain ⟨-, b, hb, hpath | hcycle⟩ := hwalk
    · cases hpath
    · exact absurd ⟨b, hb, hcycle⟩ hj.not_meetsCycle

/-- The way through any heap and back takes every JSON value to its normal form: it is never
    refused, and leads through a tree of new objects, beside which the heap stays as it was. The
    normal form of an array has each of its items by index and its length. A normal form is its
    own, and just the values that have no arrays, none but finite binary64 numbers and the members
    of their objects in order come back as they are. -/
theorem toJson_ofJson (h : Heap) (j : Json) :
    (ofJson j h).2.toJson (ofJson j h).1 = .ok j.normal ∧
      (h.Keeps (ofJson j h).2 ∧ (ofJson j h).2.IsTree (ofJson j h).1 ∧
        ∀ a, (ofJson j h).2.LeadsTo (ofJson j h).1 a → h.objects.size ≤ a.index) ∧
      (∀ items, ∃ members, (Json.array items).normal = .object members ∧
        ∀ e, e ∈ members ↔ e ∈ Json.indexed (items.map Json.normal) 0 ∨
          e = (lengthKey, (Json.ofInt items.length).normal)) ∧
      j.normal.normal = j.normal ∧
      ((ofJson j h).2.toJson (ofJson j h).1 = .ok j ↔ j.IsNormal) := by
  have hbuilt := built_ofJson j h
  have hroot (c : ObjectId) (hc : (ofJson j h).1 = .object c) :
      h.objects.size ≤ c.index ∧ c.index < (ofJson j h).2.objects.size :=
    ⟨Nat.le_of_eq (hbuilt.root c hc).1.symm, (hbuilt.root c hc).2⟩
  have hjson := hbuilt.unfolds.toJson_eq
  refine ⟨hjson, ⟨hbuilt.keeps, hbuilt.forest.isTree hroot hbuilt.unfolds, fun a ha => ?_⟩,
    Json.mem_normal_array, j.normal_normal, ?_⟩
  · obtain ⟨c, hc, hca⟩ := ha
    exact Nat.le_trans (hroot c hc).1
      (hbuilt.forest.le_of_leadsTo (hroot c hc).1 (hroot c hc).2 ⟨c, rfl, hca⟩).1
  · rw [hjson, Except.ok.injEq, Json.normal_eq_self_iff]

end Heap

end ValueBridge
