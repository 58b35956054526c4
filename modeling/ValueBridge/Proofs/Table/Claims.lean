import Mathlib.Data.List.Induction
import ValueBridge.Proofs.Table.Lifetime

/-!
# Claims

A slot that is handed out has one claim. From then on, every retain that succeeds is a claim
more and every release one less: so many are *outstanding* (`Table.outstanding`). As long as
their number stays within what is counted, it is the number of claims that the table keeps with
the slot (`Table.accounted_run`), so that it tells what a retain and a release of the slot come
to, and whether the slot is live (`Table.Answers`).

Nothing else counts: neither what was done with the slot before it was handed out last, nor what
is done with other slots.

* `claims_run_create`: all of it, for a table after any operations.
-/

namespace ValueBridge.Table

variable {t t' : Table} {op : Op} {ops : List Op} {r : Result} {id id' : UInt32} {v : Value}
  {claims : Nat} {n : Int}

/-! ## Outstanding claims -/

/-- How many retains of the slot succeed in a run. -/
def retains (id : UInt32) : Table → List Op → Nat
  | _, [] => 0
  | t, op :: ops =>
    (if op = .retain id ∧ (t.retain id).isOk then 1 else 0) + retains id (t.apply op) ops

/-- The claims that are outstanding on a slot after operations since it was handed out: one, and
    one more for each retain that succeeds, and one less for each release. -/
def outstanding (id : UInt32) (t : Table) (ops : List Op) : Int :=
  1 + (retains id t ops : Int) - (ops.count (.release id) : Int)

/-- What an operation adds to the claims that are outstanding. -/
def claimed (id : UInt32) (t : Table) (op : Op) : Int :=
  if op = .retain id ∧ (t.retain id).isOk then 1 else if op = .release id then -1 else 0

theorem retains_concat (id : UInt32) (t : Table) (ops : List Op) (op : Op) :
    retains id t (ops ++ [op]) =
      retains id t ops + if op = .retain id ∧ ((t.run ops).retain id).isOk then 1 else 0 := by
  induction ops generalizing t with
  | nil => rw [List.nil_append, retains, retains, retains, Nat.add_comm]; rfl
  | cons first ops ih => rw [List.cons_append, retains, ih, retains, Nat.add_assoc]; rfl

theorem outstanding_nil (id : UInt32) (t : Table) : outstanding id t [] = 1 := rfl

theorem outstanding_concat (id : UInt32) (t : Table) (ops : List Op) (op : Op) :
    outstanding id t (ops ++ [op]) = outstanding id t ops + claimed id (t.run ops) op := by
  rw [outstanding, outstanding, claimed, retains_concat, List.count_append, List.count_singleton]
  by_cases hretain : op = .retain id ∧ ((t.run ops).retain id).isOk
  · rw [if_pos hretain, if_pos hretain, if_neg (by rw [hretain.1, beq_iff_eq]; nofun)]
    omega
  · rw [if_neg hretain, if_neg hretain]
    by_cases hrelease : op = .release id
    · rw [if_pos hrelease, if_pos (beq_iff_eq.2 hrelease)]
      omega
    · rw [if_neg hrelease, if_neg (mt beq_iff_eq.1 hrelease)]
      omega

theorem claimed_retain (hok : (t.retain id).isOk) : claimed id t (.retain id) = 1 :=
  if_pos ⟨rfl, hok⟩

theorem claimed_release (id : UInt32) (t : Table) : claimed id t (.release id) = -1 :=
  (if_neg fun h => nomatch h.1).trans (if_pos rfl)

theorem claimed_of_ne (hretain : op ≠ .retain id) (hrelease : op ≠ .release id) :
    claimed id t op = 0 :=
  (if_neg fun h => hretain h.1).trans (if_neg hrelease)

/-- No retain of a free slot succeeds. -/
theorem claimed_nonpos_of_free (h : t.WellFormed) (hfree : t.slot? id = some .free) (op : Op) :
    claimed id t op ≤ 0 := by
  have hrefused : ¬(op = .retain id ∧ (t.retain id).isOk) := fun hretain => by
    rw [(refused_of_free h hfree).2.1] at hretain
    exact absurd hretain.2 Bool.false_ne_true
  rw [claimed, if_neg hrefused]
  split <;> decide

/-! ## What operations do to a slot -/

/-- A slot was there before, or is the one that was put. -/
theorem slot?_put_cases {slot new : Slot} (h : (t.put id' new).slot? id = some slot) :
    slot = new ∨ t.slot? id = some slot := by
  by_cases hid : id = id'
  · subst hid
    exact .inl (eq_of_slot?_put h)
  · exact .inr (slot?_put_of_ne hid t new ▸ h)

theorem put_self {slot : Slot} (h : t.slot? id = some slot) : t.put id slot = t := by
  obtain ⟨hid, rfl⟩ := Array.getElem?_eq_some_iff.1 h
  rw [put, Array.setIfInBounds_def, dif_pos hid, Array.set_getElem_self]

theorem retain_of_live (hid : Singleton.lastSlot < id)
    (hslot : t.slot? id = some (.live v claims)) :
    t.retain id =
      .ok (min (claims + 1) maxClaims, t.put id (.live v (min (claims + 1) maxClaims))) := by
  rw [retain, if_neg (UInt32.not_le.2 hid), hslot]

theorem release_of_live (hid : Singleton.lastSlot < id)
    (hslot : t.slot? id = some (.live v claims)) :
    t.release id = if 1 < claims then (.retained (claims - 1), t.put id (.live v (claims - 1)))
      else (.freed, { t.put id .free with pool := id :: t.pool }) := by
  rw [release, if_neg (UInt32.not_le.2 hid), hslot]

/-- A release of a slot that is not live changes nothing. -/
theorem release_of_dead (h : t.WellFormed) (hdead : t.isLive id = false) :
    t.release id = (.notLive, t) := by
  have hid : ¬id ≤ Singleton.lastSlot := fun hid => by
    rw [h.singleton_live hid] at hdead
    cases hdead
  rw [release, if_neg hid]
  split
  · next v claims hslot =>
    rw [isLive_iff.2 ⟨v, claims, hslot⟩] at hdead
    cases hdead
  · rfl

/-- The claims on a live slot change by its retains and releases alone. -/
theorem Step.slot?_of_live (hs : t.Step op r t') (h : t.WellFormed)
    (hslot : t.slot? id = some (.live v claims)) (hretain : op ≠ .retain id)
    (hrelease : op ≠ .release id) : t'.slot? id = some (.live v claims) := by
  cases hs with
  | immediate | full | retainSingleton | retainFree | retainUnknown | releaseSingleton
  | releaseDead => exact hslot
  | @reuse _ id' pool _ hpool =>
    have hne : id ≠ id' := by
      rintro rfl
      rw [h.free_of_pool_eq hpool] at hslot
      cases hslot
    rw [slot?_withPool, slot?_put_of_ne hne, hslot]
  | grow => rw [slot?_push, if_neg (Nat.ne_of_lt (lt_size_of_slot? hslot)), hslot]
  | claim => rw [slot?_put_of_ne (fun hid => hretain (congrArg Op.retain hid.symm)), hslot]
  | unclaim => rw [slot?_put_of_ne (fun hid => hrelease (congrArg Op.release hid.symm)), hslot]
  | free =>
    rw [slot?_withPool, slot?_put_of_ne (fun hid => hrelease (congrArg Op.release hid.symm)), hslot]

/-- A slot that is handed out has one claim. -/
theorem slot?_of_handsOut (h : t.WellFormed) (hid : Singleton.lastSlot < id)
    (hhands : t.HandsOut op id) : ∃ v, (t.apply op).slot? id = some (.live v 1) := by
  obtain ⟨v, ref, rfl, hr, href⟩ := hhands
  refine ⟨v, ?_⟩
  have hs := t.step (.store v)
  rw [hr] at hs
  generalize t.apply (.store v) = t' at hs
  cases hs with
  | immediate himm => exact absurd hid (UInt32.not_lt.2 (le_lastSlot_of_immediate? himm href))
  | reuse _ hpool =>
    rw [Ref.slot?_boxed, Option.some_inj] at href
    rw [slot?_withPool, href, slot?_put (href ▸ h.free_of_pool_eq hpool), if_pos rfl]
  | grow _ _ hsize =>
    rw [Ref.slot?_boxed, Option.some_inj] at href
    rw [slot?_push, if_pos (href ▸ toNat_ofNat_size hsize)]

/-- A slot that is not live stays so unless it is handed out. -/
theorem isLive_apply_of_dead (hdead : t.isLive id = false) (hop : ¬t.HandsOut op id) :
    (t.apply op).isLive id = false := by
  refine Bool.eq_false_iff.2 fun hlive => ?_
  obtain ⟨v, hload⟩ := load_of_isLive hlive
  rcases (t.step op).load_or_stored hload with hbefore | rfl
  · rw [isLive_of_load hbefore] at hdead
    cases hdead
  · have hs := t.step (.store v)
    generalize hr : t.result (.store v) = r, t.apply (.store v) = t' at hs hlive
    cases hs with
    | immediate | full =>
      rw [hdead] at hlive
      cases hlive
    | reuse himm hpool =>
      obtain ⟨href, _⟩ := (Step.reuse himm hpool).load_of_store hdead hlive
      exact hop ⟨v, _, rfl, hr, href ▸ Ref.slot?_boxed id _⟩
    | grow himm hpool hsize =>
      obtain ⟨href, _⟩ := (Step.grow himm hpool hsize).load_of_store hdead hlive
      exact hop ⟨v, _, rfl, hr, href ▸ Ref.slot?_boxed id _⟩

theorem isLive_run_of_dead (hdead : t.isLive id = false)
    (hops : t.Throughout (fun t op => ¬t.HandsOut op id) ops) : (t.run ops).isLive id = false :=
  ValueBridge.Throughout.foldl (I := fun t : Table => t.isLive id = false) hops
    (fun _ _ => isLive_apply_of_dead) hdead

/-- A new table has no dynamic slot. -/
theorem isLive_create {global runtime : Value} (hid : Singleton.lastSlot < id) :
    (create global runtime).isLive id = false := by
  have hnone : (create global runtime).slot? id = none :=
    slot?_eq_none_iff.2 (lastSlot_lt_iff.1 hid)
  rw [isLive, hnone]

/-- No more claims are counted than can be. -/
theorem Step.claims_le (hs : t.Step op r t')
    (hle : ∀ {id v claims}, t.slot? id = some (.live v claims) → claims ≤ maxClaims)
    (hslot : t'.slot? id = some (.live v claims)) : claims ≤ maxClaims := by
  -- The slot was there before, or is the one that the operation puts.
  cases hs with
  | immediate | full | retainSingleton | retainFree | retainUnknown | releaseSingleton
  | releaseDead => exact hle hslot
  | reuse =>
    rcases slot?_put_cases hslot with hnew | hold
    · cases hnew
      decide
    · exact hle hold
  | grow =>
    rw [slot?_push] at hslot
    split at hslot
    · cases hslot
      decide
    · exact hle hslot
  | claim =>
    rcases slot?_put_cases hslot with hnew | hold
    · cases hnew
      exact Nat.min_le_right _ _
    · exact hle hold
  | unclaim _ hbefore =>
    rcases slot?_put_cases hslot with hnew | hold
    · cases hnew
      exact Nat.le_trans (Nat.sub_le _ _) (hle hbefore)
    · exact hle hold
  | free =>
    rcases slot?_put_cases hslot with hnew | hold
    · cases hnew
    · exact hle hold

theorem claims_le_run_create (global runtime : Value) (ops : List Op)
    (hslot : ((create global runtime).run ops).slot? id = some (.live v claims)) :
    claims ≤ maxClaims := by
  refine foldl_invariant
    (I := fun t : Table => ∀ {id v claims}, t.slot? id = some (.live v claims) → claims ≤ maxClaims)
    (fun t op hle _ _ _ => (t.step op).claims_le hle) (fun hslot => ?_) ops hslot
  obtain ⟨_, hlive⟩ := WellFormed.live_of_mem_create (Array.mem_of_getElem? hslot)
  cases hlive
  exact Nat.le_refl maxClaims

/-- Claims that are at their limit stay there. -/
theorem retain_of_full (hslot : t.slot? id = some (.live v maxClaims)) :
    t.retain id = .ok (maxClaims, t) := by
  by_cases hid : id ≤ Singleton.lastSlot
  · rw [retain, if_pos hid]
  · rw [retain_of_live (UInt32.not_le.1 hid) hslot, Nat.min_eq_right (Nat.le_succ _),
      put_self hslot]

/-! ## Accounts -/

/-- The table keeps so many claims with the slot, which is free if there are none. -/
structure Accounted (t : Table) (id : UInt32) (v : Value) (n : Int) : Prop where
  live : 0 < n → t.slot? id = some (.live v n.toNat)
  free : n ≤ 0 → t.slot? id = some .free

/-- What is asked of a slot is answered by the number of the claims on it. -/
structure Answers (t : Table) (id : UInt32) (n : Int) : Prop where
  isLive_iff : t.isLive id = true ↔ 0 < n
  retain : 0 < n → n < maxClaims → t.result (.retain id) = .retained (n + 1).toNat
  retain_full : n = maxClaims → t.retain id = .ok (maxClaims, t)
  release : 1 < n → t.result (.release id) = .released (.retained (n - 1).toNat)
  freed_iff : t.result (.release id) = .released .freed ↔ n = 1

namespace Accounted

theorem retain (ha : t.Accounted id v n) (hid : Singleton.lastSlot < id) (hpos : 0 < n)
    (hmax : n < maxClaims) :
    t.retain id = .ok ((n + 1).toNat, t.put id (.live v (n + 1).toNat)) := by
  have hmin : min (n.toNat + 1) maxClaims = (n + 1).toNat := by omega
  rw [retain_of_live hid (ha.live hpos), hmin]

theorem release (ha : t.Accounted id v n) (hid : Singleton.lastSlot < id) (hn : 1 < n) :
    t.release id = (.retained (n - 1).toNat, t.put id (.live v (n - 1).toNat)) := by
  have hsub : n.toNat - 1 = (n - 1).toNat := by omega
  rw [release_of_live hid (ha.live (by omega)), if_pos (by omega), hsub]

theorem release_last (ha : t.Accounted id v 1) (hid : Singleton.lastSlot < id) :
    t.release id = (.freed, { t.put id .free with pool := id :: t.pool }) := by
  rw [release_of_live hid (ha.live (by decide))]
  rfl

/-- The claims with the slot tell what a retain and a release of it come to. -/
theorem answers (ha : t.Accounted id v n) (h : t.WellFormed) (hid : Singleton.lastSlot < id) :
    t.Answers id n where
  isLive_iff := by
    constructor
    · intro hlive
      by_contra hn
      rw [isLive_eq_false_of_free (ha.free (Int.not_lt.1 hn))] at hlive
      cases hlive
    · exact fun hn => isLive_iff.2 ⟨v, _, ha.live hn⟩
  retain hpos hmax := by
    rw [result, perform, ha.retain hid hpos hmax]
  retain_full hmax := by
    have hlive := ha.live (by rw [hmax]; decide)
    rw [hmax] at hlive
    exact retain_of_full hlive
  release hn := by
    rw [result, perform, ha.release hid hn]
  freed_iff := by
    rw [result, perform]
    rcases Int.lt_trichotomy n 1 with hn | rfl | hn
    · rw [(refused_of_free h (ha.free (by omega))).2.2]
      exact iff_of_false (fun h => by cases h) (by omega)
    · rw [ha.release_last hid]
      exact iff_of_true rfl rfl
    · rw [ha.release hid hn]
      exact iff_of_false (fun h => by cases h) (by omega)

theorem apply_retain (ha : t.Accounted id v n) (hid : Singleton.lastSlot < id) (hpos : 0 < n)
    (hmax : n < maxClaims) : (t.apply (.retain id)).Accounted id v (n + 1) := by
  rw [Table.apply, perform, ha.retain hid hpos hmax]
  refine ⟨fun _ => ?_, fun hn => absurd hn (by omega)⟩
  rw [slot?_put (ha.live hpos), if_pos rfl]

theorem apply_release (ha : t.Accounted id v n) (hid : Singleton.lastSlot < id) (hpos : 0 < n) :
    (t.apply (.release id)).Accounted id v (n - 1) := by
  rw [Table.apply, perform]
  by_cases hn : 1 < n
  · rw [ha.release hid hn]
    refine ⟨fun _ => ?_, fun hn => absurd hn (by omega)⟩
    rw [slot?_put (ha.live hpos), if_pos rfl]
  · obtain rfl : n = 1 := by omega
    rw [ha.release_last hid]
    refine ⟨fun hn => absurd hn (by decide), fun _ => ?_⟩
    rw [slot?_withPool, slot?_put (ha.live hpos), if_pos rfl]

/-- An operation that does not hand out the slot keeps account of its claims, if they can be
    counted. -/
theorem apply (ha : t.Accounted id v n) (h : t.WellFormed) (hid : Singleton.lastSlot < id)
    (hop : ¬t.HandsOut op id) (hmax : n + claimed id t op ≤ maxClaims) :
    (t.apply op).Accounted id v (n + claimed id t op) := by
  by_cases hpos : 0 < n
  · by_cases hretain : op = .retain id
    · subst hretain
      have hok : (t.retain id).isOk := by rw [retain_of_live hid (ha.live hpos)]; rfl
      rw [claimed_retain hok] at hmax ⊢
      exact ha.apply_retain hid hpos (by omega)
    by_cases hrelease : op = .release id
    · subst hrelease
      rw [claimed_release]
      exact ha.apply_release hid hpos
    · rw [claimed_of_ne hretain hrelease, Int.add_zero]
      exact ⟨fun _ => (t.step op).slot?_of_live h (ha.live hpos) hretain hrelease,
        fun hn => absurd hpos (Int.not_lt.2 hn)⟩
  · have hfree := ha.free (Int.not_lt.1 hpos)
    have hclaimed := claimed_nonpos_of_free h hfree op
    exact ⟨fun hn => absurd hn (by omega), fun _ => slot?_apply_of_free hfree hop⟩

end Accounted

/-- As long as they can be counted, the claims that are outstanding on a slot are those that the
    table keeps with it. -/
theorem accounted_run (h : t.WellFormed) (hid : Singleton.lastSlot < id)
    (hslot : t.slot? id = some (.live v 1))
    (hlife : t.Throughout (fun t op => ¬t.HandsOut op id) ops)
    (hmax : ∀ part, part <+: ops → outstanding id t part ≤ maxClaims) :
    (t.run ops).Accounted id v (outstanding id t ops) := by
  induction ops using List.reverseRecOn with
  | nil =>
    rw [outstanding_nil]
    exact ⟨fun _ => hslot, fun hn => absurd hn (by decide)⟩
  | append_singleton ops op ih =>
    obtain ⟨hlife, hop⟩ := Throughout.concat_iff.1 hlife
    have ha := ih hlife fun part hpart => hmax part (hpart.trans (List.prefix_append ops [op]))
    have hlast := hmax _ List.prefix_rfl
    rw [outstanding_concat] at hlast ⊢
    rw [run_concat]
    exact ha.apply (h.run ops) hid hop hlast

/-- After any operations on a new table, a dynamic slot was never handed out, and is not live, or
    was handed out a last time. If the claims that are outstanding since then could be counted at
    any time, their number tells whether the slot is live and what a retain and a release of it
    come to. No slot has more claims than are counted, and a retain of one that has as many changes
    nothing; nor does a release of a slot that is not live, or of a singleton. -/
theorem claims_run_create (global runtime : Value) (ops : List Op) :
    let fresh := create global runtime
    let t := fresh.run ops
    (∀ id, Singleton.lastSlot < id →
      (fresh.Throughout (fun t op => ¬t.HandsOut op id) ops ∧ t.isLive id = false) ∨
      ∃ before op life, ops = before ++ [op] ++ life ∧ (fresh.run before).HandsOut op id ∧
        (fresh.run (before ++ [op])).Throughout (fun t op => ¬t.HandsOut op id) life ∧
        ((∀ part, part <+: life →
            outstanding id (fresh.run (before ++ [op])) part ≤ maxClaims) →
          t.Answers id (outstanding id (fresh.run (before ++ [op])) life))) ∧
    (∀ id v claims, t.slot? id = some (.live v claims) → claims ≤ maxClaims) ∧
    (∀ id v, t.slot? id = some (.live v maxClaims) → t.retain id = .ok (maxClaims, t)) ∧
    (∀ id, t.isLive id = false → t.release id = (.notLive, t)) ∧
    ∀ id, id ≤ Singleton.lastSlot → t.release id = (.singleton, t) := by
  intro fresh t
  have h : t.WellFormed := .run_create global runtime ops
  refine ⟨fun id hid => ?_, fun _ _ _ => claims_le_run_create global runtime ops,
    fun _ _ => retain_of_full, fun _ => release_of_dead h, fun _ hid => if_pos hid⟩
  rcases throughout_not_or_exists_last Table.apply (fun t op => t.HandsOut op id) fresh ops with
    hnever | ⟨before, op, life, hops, hhands, hlife⟩
  · exact .inl ⟨hnever, isLive_run_of_dead (isLive_create hid) hnever⟩
  · refine .inr ⟨before, op, life, hops, hhands, hlife, fun hmax => ?_⟩
    have h' : (fresh.run (before ++ [op])).WellFormed := .run_create global runtime _
    obtain ⟨v, hslot⟩ := slot?_of_handsOut (.run_create global runtime before) hid hhands
    have ha := accounted_run h' hid (run_concat fresh before op ▸ hslot) hlife hmax
    rw [← run_append, ← hops] at ha
    exact ha.answers h hid

end ValueBridge.Table
