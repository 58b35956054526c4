import Mathlib.Data.List.Induction
import Mathlib.Data.List.Nodup
import ValueBridge.Json
import ValueBridge.Proofs.Text.Index

/-!
# Normal forms of JSON values

What is left of a JSON value once it has been through the heap is its *normal form*
(`Json.normal`): numbers are binary64 numbers, arrays are objects with their items by index and
their length, and an object has its members by ascending names, of members of one name the last.

The indices and the length are keys of their own, so that nothing of an array is lost
(`Json.normal_array`). A value is its own normal form if and only if it has no arrays, none but
finite binary64 numbers, and its members in order (`Json.normal_eq_self_iff`); so is every normal
form (`Json.normal_normal`).
-/

namespace ValueBridge

/-! ## Maps of lists -/

namespace PropertyMap

variable {α : Type} {l : List (String × α)} {key : String} {v : α}

/-- The bindings of a list, of those of one key the last. -/
def ofList (l : List (String × α)) : PropertyMap α :=
  l.foldl (fun m e => m.insert e.1 e.2) .empty

theorem ofList_concat (l : List (String × α)) (e : String × α) :
    ofList (l ++ [e]) = (ofList l).insert e.1 e.2 :=
  List.foldl_concat ..

theorem get?_ofList (l : List (String × α)) (key : String) :
    (ofList l).get? key = l.reverse.lookup key := by
  induction l using List.reverseRecOn with
  | nil => rfl
  | append_singleton l e ih =>
    rw [ofList_concat, get?_insert, ih, List.reverse_concat, lookup_cons_eq_ite]

theorem mem_of_mem_ofList {e : String × α} (he : e ∈ (ofList l).entries) : e ∈ l := by
  rw [mem_entries_iff, get?_ofList, List.lookup_eq_some_iff] at he
  obtain ⟨before, after, hl, -⟩ := he
  rw [← List.mem_reverse, hl]
  exact List.mem_append_right _ List.mem_cons_self

/-- Bindings of different keys are all kept. -/
theorem mem_ofList_iff (hl : (l.map Prod.fst).Nodup) {e : String × α} :
    e ∈ (ofList l).entries ↔ e ∈ l := by
  refine ⟨mem_of_mem_ofList, fun he => ?_⟩
  rw [mem_entries_iff, get?_ofList, List.lookup_eq_some_iff]
  obtain ⟨before, after, rfl⟩ := List.append_of_mem he
  refine ⟨after.reverse, before.reverse, by simp, fun e' he' => ?_⟩
  rw [List.map_append, List.map_cons, List.nodup_append, List.nodup_cons] at hl
  rw [bne_iff_ne]
  exact fun heq => hl.2.1.1 (heq ▸ List.mem_map_of_mem (List.mem_reverse.1 he'))

theorem insertEntry_of_lt (h : ∀ e ∈ l, e.1 < key) : insertEntry key v l = l ++ [(key, v)] := by
  induction l with
  | nil => rfl
  | cons e l ih =>
    have he : e.1 < key := h e List.mem_cons_self
    have hne : key ≠ e.1 := fun heq => String.lt_irrefl key (heq ▸ he)
    rw [insertEntry, if_neg (String.lt_asymm he), if_neg hne,
      ih fun e' he' => h e' (List.mem_cons_of_mem _ he'), List.cons_append]

/-- Bindings by ascending keys are a map as they stand. -/
theorem entries_ofList (hl : l.Pairwise (·.1 < ·.1)) : (ofList l).entries = l := by
  induction l using List.reverseRecOn with
  | nil => rfl
  | append_singleton l e ih =>
    obtain ⟨hl, -, hlast⟩ := List.pairwise_append.1 hl
    rw [ofList_concat]
    change insertEntry e.1 e.2 (ofList l).entries = _
    rw [ih hl]
    exact insertEntry_of_lt fun e' he' => hlast e' he' e List.mem_cons_self

end PropertyMap

namespace Json

variable {j : Json}

/-- A property holds of every JSON value if it passes from items and members to what has them. -/
@[elab_as_elim]
theorem induct {P : Json → Prop} (null : P .null) (bool : ∀ b, P (.bool b))
    (number : ∀ n, P (.number n)) (string : ∀ s, P (.string s))
    (array : ∀ items, (∀ j ∈ items, P j) → P (.array items))
    (object : ∀ members, (∀ e ∈ members, P e.2) → P (.object members)) (j : Json) : P j :=
  match j with
  | .null => null
  | .bool b => bool b
  | .number n => number n
  | .string s => string s
  | .array items => array items fun j _ => induct null bool number string array object j
  | .object members => object members fun e _ => induct null bool number string array object e.2
termination_by sizeOf j
decreasing_by
  · have hitem := List.sizeOf_lt_of_mem ‹j ∈ items›
    rw [Json.array.sizeOf_spec]
    omega
  · have hmember := List.sizeOf_lt_of_mem ‹e ∈ members›
    have hvalue : sizeOf e.2 < sizeOf e := by
      rw [Prod.mk.sizeOf_spec e.1 e.2]
      omega
    rw [Json.object.sizeOf_spec]
    omega

/-- Items by their index, from an index on. -/
def indexed {α : Type} (items : List α) (index : Nat) : List (String × α) :=
  (items.zipIdx index).map fun e => (Text.indexKey e.2, e.1)

/-! ## Normal forms -/

/-- The normal form of a number. There is no JSON number for what is not finite. -/
def Number.normal (n : Number) : Json :=
  if n.nearest.isFinite then .number (.double n.nearest) else .null

mutual

/-- The normal form of a JSON value. -/
def normal : Json → Json
  | .null => .null
  | .bool b => .bool b
  | .number n => n.normal
  | .string s => .string s
  | .array items =>
    .object (PropertyMap.ofList (indexed (normalItems items) 0 ++
      [(lengthKey, Number.normal (.integer items.length))])).entries
  | .object members => .object (PropertyMap.ofList (normalMembers members)).entries

/-- The normal forms of items. -/
def normalItems : List Json → List Json
  | [] => []
  | j :: js => normal j :: normalItems js

/-- Members with the normal forms of their values. -/
def normalMembers : List (String × Json) → List (String × Json)
  | [] => []
  | (name, j) :: members => (name, normal j) :: normalMembers members

end

theorem normalItems_eq_map (items : List Json) : normalItems items = items.map normal := by
  induction items with
  | nil => rfl
  | cons j items ih => rw [normalItems, ih, List.map_cons]

theorem normalMembers_eq_map (members : List (String × Json)) :
    normalMembers members = members.map fun e => (e.1, e.2.normal) := by
  induction members with
  | nil => rfl
  | cons e members ih => rw [normalMembers, ih, List.map_cons]

/-- The members of the object that stands for an array. -/
def arrayMembers (items : List Json) : List (String × Json) :=
  indexed items 0 ++ [(lengthKey, .ofInt items.length)]

/-- What is in the members of an array is its items and a number. -/
theorem mem_arrayMembers {items : List Json} {e : String × Json} (he : e ∈ arrayMembers items) :
    e.2 ∈ items ∨ ∃ n, e.2 = .number n := by
  rcases List.mem_append.1 he with he | he
  · obtain ⟨⟨j, i⟩, hj, rfl⟩ := List.mem_map.1 he
    exact .inl (List.fst_mem_of_mem_zipIdx hj)
  · rw [List.mem_singleton.1 he]
    exact .inr ⟨_, rfl⟩

/-- An array has the normal form of the object that stands for it. -/
theorem normal_array (items : List Json) :
    normal (.array items) = normal (.object (arrayMembers items)) := by
  rw [normal, normal, normalMembers_eq_map, arrayMembers, List.map_append, normalItems_eq_map,
    indexed, indexed, List.zipIdx_map, List.map_map, List.map_map]
  rfl

theorem nodup_keys_indexed {α : Type} (items : List α) (index : Nat) :
    ((indexed items index).map Prod.fst).Nodup := by
  have hkeys : (indexed items index).map Prod.fst =
      ((items.zipIdx index).map Prod.snd).map Text.indexKey := by
    rw [indexed, List.map_map, List.map_map]
    rfl
  rw [hkeys, List.zipIdx_map_snd]
  exact List.Nodup.map Text.indexKey_injective List.nodup_range'

/-- The normal form of an array has all its items and its length. -/
theorem mem_normal_array (items : List Json) : ∃ members, normal (.array items) = .object members ∧
    ∀ e, e ∈ members ↔
      e ∈ indexed (items.map normal) 0 ∨ e = (lengthKey, normal (.ofInt items.length)) := by
  refine ⟨_, rfl, fun e => ?_⟩
  rw [PropertyMap.mem_ofList_iff, normalItems_eq_map, List.mem_append, List.mem_singleton]
  · rfl
  · rw [List.map_append, List.nodup_append]
    refine ⟨nodup_keys_indexed _ _, List.nodup_singleton _, fun key hkey key' hkey' => ?_⟩
    obtain ⟨⟨key, j⟩, hmem, rfl⟩ := List.mem_map.1 hkey
    obtain ⟨⟨j, i⟩, -, heq⟩ := List.mem_map.1 hmem
    cases heq
    rw [List.mem_singleton.1 hkey']
    exact Text.indexKey_ne_lengthKey i

/-! ## What is normal -/

/-- A value without arrays, with finite binary64 numbers only and with the members of its objects
    in order. -/
inductive IsNormal : Json → Prop
  | null : IsNormal .null
  | bool (b : Bool) : IsNormal (.bool b)
  | number {x : Binary64} : x.isFinite = true → IsNormal (.number (.double x))
  | string (s : String) : IsNormal (.string s)
  | object {members : List (String × Json)} : members.Pairwise (·.1 < ·.1) →
      (∀ e ∈ members, IsNormal e.2) → IsNormal (.object members)

theorem isNormal_number (n : Number) : n.normal.IsNormal := by
  rw [Number.normal]
  split
  · next hfinite => exact .number hfinite
  · exact .null

theorem isNormal_object {members : List (String × Json)}
    (hmembers : ∀ e ∈ members, e.2.normal.IsNormal) : (normal (.object members)).IsNormal := by
  rw [normal, normalMembers_eq_map]
  refine .object (PropertyMap.sorted _) fun e he => ?_
  obtain ⟨e', he', rfl⟩ := List.mem_map.1 (PropertyMap.mem_of_mem_ofList he)
  exact hmembers e' he'

theorem isNormal_normal (j : Json) : j.normal.IsNormal := by
  induction j using induct with
  | null => exact .null
  | bool b => exact .bool b
  | number n => exact isNormal_number n
  | string s => exact .string s
  | array items ih =>
    rw [normal_array]
    refine isNormal_object fun e he => ?_
    rcases mem_arrayMembers he with hitem | ⟨n, hn⟩
    · exact ih _ hitem
    · rw [hn]
      exact isNormal_number n
  | object members ih => exact isNormal_object ih

theorem IsNormal.normal_eq_self (h : j.IsNormal) : j.normal = j := by
  induction h with
  | number hfinite => exact if_pos hfinite
  | @object members hsorted _ ih =>
    have hmembers : (members.map fun e => (e.1, e.2.normal)) = members :=
      calc (members.map fun e => (e.1, e.2.normal)) = members.map id :=
            List.map_congr_left fun e he => Prod.ext rfl (ih e he)
        _ = members := List.map_id members
    rw [normal, normalMembers_eq_map, hmembers, PropertyMap.entries_ofList hsorted]
  | _ => rfl

theorem normal_eq_self_iff : j.normal = j ↔ j.IsNormal :=
  ⟨fun h => h ▸ j.isNormal_normal, IsNormal.normal_eq_self⟩

theorem normal_normal (j : Json) : j.normal.normal = j.normal :=
  j.isNormal_normal.normal_eq_self

end Json

end ValueBridge
