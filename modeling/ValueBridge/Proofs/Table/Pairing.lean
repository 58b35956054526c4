import ValueBridge.Event
import ValueBridge.Proofs.Heap.Pairing

/-!
# Tables in step

Two tables *match* by a pairing if the same slots are live, with as many claims, free and
waiting, and the values in them match (`Pairing.MatchesTable`). What is asked of both comes to
the same, and to tables that match again.
-/

namespace ValueBridge.Pairing

variable {p p' : Pairing} {h h' k k' : Heap} {t t' : Table} {v v' : Value} {id : UInt32}

/-- The slots are the same but for the identities. -/
inductive MatchesSlot (p : Pairing) : Slot → Slot → Prop
  | live {v v' : Value} (claims : Nat) : p.Matches v v' →
      MatchesSlot p (.live v claims) (.live v' claims)
  | free : MatchesSlot p .free .free

/-- The tables are the same but for the identities. -/
structure MatchesTable (p : Pairing) (t t' : Table) : Prop where
  size : t'.slots.size = t.slots.size
  slot : ∀ i : Nat, Option.Rel p.MatchesSlot t.slots[i]? t'.slots[i]?
  pool : t'.pool = t.pool

theorem Matches.immediate? (hv : p.Matches v v') : Table.immediate? v' = Table.immediate? v := by
  cases hv <;> rfl

theorem Matches.tag (hv : p.Matches v v') : Tag.ofValue v' = Tag.ofValue v := by
  cases hv <;> rfl

theorem Advances.matchesTable (ha : p.Advances p' h h' k k') (ht : p.MatchesTable t t') :
    p'.MatchesTable t t' where
  size := ht.size
  pool := ht.pool
  slot i := by
    have hslot := ht.slot i
    generalize t.slots[i]? = slot?, t'.slots[i]? = slot?' at hslot
    cases hslot with
    | none => exact .none
    | some hslot =>
      cases hslot with
      | live claims hv => exact .some (.live claims (ha.matchesValue hv))
      | free => exact .some .free

namespace MatchesTable

theorem create {global global' runtime runtime' : Value} (hg : p.Matches global global')
    (hr : p.Matches runtime runtime') :
    p.MatchesTable (.create global runtime) (.create global' runtime') where
  size := rfl
  pool := rfl
  slot i := by
    match i with
    | 0 => exact .some (.live _ (.number _))
    | 1 => exact .some (.live _ .null)
    | 2 => exact .some (.live _ (.bool _))
    | 3 => exact .some (.live _ (.bool _))
    | 4 => exact .some (.live _ .undefined)
    | 5 => exact .some (.live _ hg)
    | 6 => exact .some (.live _ hr)
    | _ + 7 => exact .none

variable (ht : p.MatchesTable t t')

include ht

theorem slot? (id : UInt32) : Option.Rel p.MatchesSlot (t.slot? id) (t'.slot? id) :=
  ht.slot id.toNat

theorem stats : t'.stats = t.stats := by
  rw [Table.stats, Table.stats, ht.size, ht.pool]

/-! ## Operations -/

theorem alike_load (id : UInt32) : Alike p.Matches (t.load id) (t'.load id) := by
  have hslot := ht.slot? id
  rw [Table.load, Table.load]
  generalize t.slot? id = slot?, t'.slot? id = slot?' at hslot
  cases hslot with
  | none => exact .error _
  | some hslot =>
    cases hslot with
    | live _ hv => exact .ok hv
    | free => exact .error _

theorem exists_matches (hload : t.load id = .ok v) : ∃ v', p.Matches v v' := by
  have halike := ht.alike_load id
  rw [hload] at halike
  generalize t'.load id = o at halike
  cases halike with | ok hv => exact ⟨_, hv⟩

theorem put {slot slot' : Slot} (id : UInt32) (hslot : p.MatchesSlot slot slot') :
    p.MatchesTable (t.put id slot) (t'.put id slot') where
  size := by simp only [Table.put, Array.size_setIfInBounds, ht.size]
  pool := ht.pool
  slot i := by
    simp only [Table.put, Array.getElem?_setIfInBounds, ht.size]
    split
    · split
      · exact .some hslot
      · exact .none
    · exact ht.slot i

theorem push {slot slot' : Slot} (hslot : p.MatchesSlot slot slot') :
    p.MatchesTable { t with slots := t.slots.push slot }
      { t' with slots := t'.slots.push slot' } where
  size := by simp only [Array.size_push, ht.size]
  pool := ht.pool
  slot i := by
    simp only [Array.getElem?_push, ht.size]
    split
    · exact .some hslot
    · exact ht.slot i

theorem withPool (pool : List UInt32) : p.MatchesTable { t with pool } { t' with pool } :=
  ⟨ht.size, ht.slot, rfl⟩

theorem alike_store (hv : p.Matches v v') :
    Alike (fun o o' => o.1 = o'.1 ∧ p.MatchesTable o.2 o'.2) (t.store v) (t'.store v') := by
  rw [Table.store, Table.store, hv.immediate?]
  cases Table.immediate? v with
  | some ref => exact .ok ⟨rfl, ht⟩
  | none =>
    rw [Table.allocate, Table.allocate, ht.pool, ht.size]
    cases t.pool with
    | cons id pool => exact .ok ⟨by rw [hv.tag], (ht.withPool pool).put id (.live 1 hv)⟩
    | nil =>
      dsimp only
      split
      · exact .ok ⟨by rw [hv.tag], (ht.push (.live 1 hv)).withPool []⟩
      · exact .error _

theorem alike_release (id : UInt32) :
    (t.release id).1 = (t'.release id).1 ∧ p.MatchesTable (t.release id).2 (t'.release id).2 := by
  have hslot := ht.slot? id
  rw [Table.release, Table.release]
  split
  · exact ⟨rfl, ht⟩
  · generalize t.slot? id = slot?, t'.slot? id = slot?' at hslot
    cases hslot with
    | none => exact ⟨rfl, ht⟩
    | some hslot =>
      cases hslot with
      | free => exact ⟨rfl, ht⟩
      | live claims hv =>
        dsimp only
        split
        · exact ⟨rfl, ht.put id (.live _ hv)⟩
        · rw [ht.pool]
          exact ⟨rfl, (ht.put id .free).withPool _⟩

end MatchesTable

end ValueBridge.Pairing
