/-!
# Property maps

A *property map* binds keys to values, in the ascending order of the keys: the
order of their code points, which is that of their UTF-8 bytes as well. The order
is part of the type, so that there is one map for each set of bindings.

* `PropertyMap.get?`, `PropertyMap.insert`: the value of a key, and a new value for
  it; `get?_insert` relates the two;
* `PropertyMap.keys`: the keys in order, none twice (`PropertyMap.keys_sorted`).
-/

namespace ValueBridge

/-- Bindings of keys to values, by ascending keys. -/
structure PropertyMap (α : Type) where
  entries : List (String × α)
  sorted : entries.Pairwise (·.1 < ·.1)

namespace PropertyMap

variable {α : Type}

/-- The map without bindings. -/
def empty : PropertyMap α := ⟨[], .nil⟩

instance : Inhabited (PropertyMap α) := ⟨empty⟩

/-- The keys in order. -/
def keys (m : PropertyMap α) : List String :=
  m.entries.map (·.1)

/-- The value bound to a key. -/
def get? (m : PropertyMap α) (key : String) : Option α :=
  m.entries.lookup key

/-- Whether a value is bound to the key. -/
def contains (m : PropertyMap α) (key : String) : Bool :=
  (m.get? key).isSome

/-- A binding put at its place among others. -/
def insertEntry (key : String) (v : α) : List (String × α) → List (String × α)
  | [] => [(key, v)]
  | (k, w) :: rest =>
    if key < k then (key, v) :: (k, w) :: rest
    else if key = k then (key, v) :: rest
    else (k, w) :: insertEntry key v rest

theorem mem_insertEntry {key : String} {v : α} {e : String × α} {l : List (String × α)}
    (h : e ∈ insertEntry key v l) : e = (key, v) ∨ e ∈ l := by
  induction l with
  | nil => simpa [insertEntry] using h
  | cons a l ih =>
    simp only [insertEntry] at h
    split at h
    · simpa using h
    · split at h
      · rcases List.mem_cons.1 h with h | h
        · exact .inl h
        · exact .inr (List.mem_cons_of_mem _ h)
      · rcases List.mem_cons.1 h with h | h
        · exact .inr (h ▸ List.mem_cons_self)
        · exact (ih h).imp_right (List.mem_cons_of_mem _)

theorem insertEntry_sorted (key : String) (v : α) {l : List (String × α)}
    (h : l.Pairwise (·.1 < ·.1)) : (insertEntry key v l).Pairwise (·.1 < ·.1) := by
  induction l with
  | nil => simp [insertEntry]
  | cons a l ih =>
    obtain ⟨ha, hl⟩ := List.pairwise_cons.1 h
    simp only [insertEntry]
    split
    · next hlt =>
      refine List.pairwise_cons.2 ⟨fun e he => ?_, h⟩
      rcases List.mem_cons.1 he with rfl | he
      · exact hlt
      · exact String.lt_trans hlt (ha e he)
    · next hlt =>
      split
      · next heq =>
        subst heq
        exact List.pairwise_cons.2 ⟨ha, hl⟩
      · next hne =>
        refine List.pairwise_cons.2 ⟨fun e he => ?_, ih hl⟩
        rcases mem_insertEntry he with rfl | he
        · exact Std.lt_of_le_of_ne (String.not_lt.1 hlt) (Ne.symm hne)
        · exact ha e he

/-- The map with the value bound to the key, in the place of any other. -/
def insert (m : PropertyMap α) (key : String) (v : α) : PropertyMap α :=
  ⟨insertEntry key v m.entries, insertEntry_sorted key v m.sorted⟩

theorem lookup_cons_eq_ite (k : String) (e : String × α) (l : List (String × α)) :
    (e :: l).lookup k = if k = e.1 then some e.2 else l.lookup k := by
  by_cases h : k = e.1
  · rw [List.lookup_cons, if_pos h, h, beq_self_eq_true]
  · rw [List.lookup_cons, beq_false_of_ne h, if_neg h]

theorem lookup_insertEntry (key k : String) (v : α) (l : List (String × α)) :
    (insertEntry key v l).lookup k = if k = key then some v else l.lookup k := by
  induction l with
  | nil => simp [insertEntry, lookup_cons_eq_ite]
  | cons a l ih =>
    simp only [insertEntry]
    split
    · rw [lookup_cons_eq_ite]
    · split
      · next heq =>
        simp only [lookup_cons_eq_ite, heq]
        split <;> rfl
      · next hne =>
        simp only [lookup_cons_eq_ite, ih]
        split
        · next hk => rw [if_neg (hk ▸ Ne.symm hne)]
        · rfl

/-- The value of a key is the last one bound to it. -/
theorem get?_insert (m : PropertyMap α) (key k : String) (v : α) :
    (m.insert key v).get? k = if k = key then some v else m.get? k :=
  lookup_insertEntry key k v m.entries

theorem mem_iff_lookup {l : List (String × α)} (hl : l.Pairwise (·.1 < ·.1)) {key : String}
    {v : α} : (key, v) ∈ l ↔ l.lookup key = some v := by
  induction l with
  | nil => simp
  | cons e l ih =>
    obtain ⟨key', v'⟩ := e
    obtain ⟨he, htail⟩ := List.pairwise_cons.1 hl
    rw [lookup_cons_eq_ite, List.mem_cons, ih htail]
    by_cases hkey : key = key'
    · subst hkey
      -- No later entry has the key of the first one.
      have hlater : l.lookup key ≠ some v := fun hlookup =>
        String.lt_irrefl key (he _ ((ih htail).2 hlookup))
      simp [hlater, eq_comm]
    · simp [hkey]

/-- The entries are the bindings. -/
theorem mem_entries_iff {m : PropertyMap α} {key : String} {v : α} :
    (key, v) ∈ m.entries ↔ m.get? key = some v :=
  mem_iff_lookup m.sorted

theorem mem_keys_iff {m : PropertyMap α} {key : String} :
    key ∈ m.keys ↔ ∃ v, m.get? key = some v := by
  simp [keys, ← mem_entries_iff]

/-- The keys ascend. -/
theorem keys_sorted (m : PropertyMap α) : m.keys.Pairwise (· < ·) :=
  List.pairwise_map.2 m.sorted

end PropertyMap

end ValueBridge
