import ValueBridge.Engine
import ValueBridge.Proofs.Binary64.Exact
import ValueBridge.Proofs.Bridge.RoundTrip
import ValueBridge.Proofs.Linked
import ValueBridge.Proofs.Value.NumberText

/-!
# Strict equality

Strict equality is that of the values that numbers have (`Binary64.equal_iff_value`), and identity
for everything else. It is symmetric and transitive, and every value but a NaN equals itself.

Equal values are *interchangeable* (`Value.Interchangeable`): whatever is done with the one comes to
the same with the other, in the heap as in a table. They are one value or two zeros, and nothing but
the sign of a zero tells the two apart (`Value.strictEqual_laws`).
-/

namespace ValueBridge

namespace Binary64

variable {x y z : Binary64}

/-! ## Numbers by their value -/

theorem isZero_iff_absValue (hx : x.isFinite = true) : x.isZero = true ↔ x.absValue = 0 := by
  have hquanta : HasQuanta x.negative x.quanta x := ⟨hx, rfl, rfl⟩
  have hpos : (quantaPerUnit : ℚ) ≠ 0 := Nat.cast_ne_zero.2 zero_lt_quantaPerUnit.ne'
  rw [hquanta.isZero_eq, beq_iff_eq, absValue, div_eq_zero_iff, or_iff_left hpos, Nat.cast_eq_zero]

theorem value_of_isZero (hx : x.isFinite = true) (hzero : x.isZero = true) : x.value = 0 := by
  rw [value, (isZero_iff_absValue hx).1 hzero, neg_zero, ite_self]

/-- Finite numbers of one value are one number, or the two zeros. -/
theorem value_eq_iff (hx : x.isFinite = true) (hy : y.isFinite = true) :
    x.value = y.value ↔ x = y ∨ x.isZero = true ∧ y.isZero = true := by
  constructor
  · intro h
    by_cases hnegative : x.negative = y.negative
    · refine .inl (eq_of_quanta_eq hx hy hnegative (absValue_inj.1 ?_))
      rw [value, value, hnegative] at h
      cases hy : y.negative <;> rw [hy] at h
      · exact h
      · exact neg_injective h
    · -- What lies on both sides of zero is zero.
      have hxabs : 0 ≤ x.absValue := div_nonneg (Nat.cast_nonneg _) (Nat.cast_nonneg _)
      have hyabs : 0 ≤ y.absValue := div_nonneg (Nat.cast_nonneg _) (Nat.cast_nonneg _)
      rw [isZero_iff_absValue hx, isZero_iff_absValue hy]
      rw [value, value] at h
      refine .inr ?_
      cases hxn : x.negative <;> cases hyn : y.negative <;> rw [hxn, hyn] at h hnegative
      · exact absurd rfl hnegative
      · simp only [if_true, Bool.false_eq_true, if_false] at h
        constructor <;> linarith
      · simp only [if_true, Bool.false_eq_true, if_false] at h
        constructor <;> linarith
      · exact absurd rfl hnegative
  · rintro (rfl | ⟨hxzero, hyzero⟩)
    · rfl
    · rw [value_of_isZero hx hxzero, value_of_isZero hy hyzero]

theorem isFinite_of_isZero (h : x.isZero = true) : x.isFinite = true := by
  rw [isZero, beq_iff_eq] at h
  rw [isFinite, h]
  rfl

/-- Numbers are equal if they are finite and of one value, or the same infinity. -/
theorem equal_iff_value : x.equal y = true ↔
    x.isFinite = true ∧ y.isFinite = true ∧ x.value = y.value ∨
      ∃ negative, x = infinity negative ∧ y = infinity negative := by
  rw [equal_iff]
  constructor
  · rintro ⟨hx, hy, heq⟩
    by_cases hfinite : x.isFinite = true
    · have hfinite' : y.isFinite = true := by
        rcases heq with rfl | ⟨-, hzero⟩
        · exact hfinite
        · exact isFinite_of_isZero hzero
      exact .inl ⟨hfinite, hfinite', (value_eq_iff hfinite hfinite').2 heq⟩
    · rcases heq with rfl | ⟨hzero, -⟩
      · have hinfinity := eq_infinity hx (Bool.eq_false_iff.2 hfinite)
        exact .inr ⟨x.negative, hinfinity, hinfinity⟩
      · exact absurd (isFinite_of_isZero hzero) hfinite
  · rintro (⟨hx, hy, hvalue⟩ | ⟨negative, rfl, rfl⟩)
    · exact ⟨isNaN_of_isFinite hx, isNaN_of_isFinite hy, (value_eq_iff hx hy).1 hvalue⟩
    · cases negative <;> exact ⟨rfl, rfl, .inl rfl⟩

theorem equal_comm (x y : Binary64) : x.equal y = y.equal x := by
  rw [Bool.eq_iff_iff, equal_iff, equal_iff]
  tauto

theorem equal_trans (hxy : x.equal y = true) (hyz : y.equal z = true) : x.equal z = true := by
  obtain ⟨hx, -, hxy⟩ := equal_iff.1 hxy
  obtain ⟨-, hz, hyz⟩ := equal_iff.1 hyz
  refine equal_iff.2 ⟨hx, hz, ?_⟩
  rcases hxy with rfl | ⟨hxzero, hyzero⟩
  · exact hyz
  · rcases hyz with rfl | ⟨-, hzzero⟩
    · exact .inr ⟨hxzero, hyzero⟩
    · exact .inr ⟨hxzero, hzzero⟩

theorem equal_self (x : Binary64) : x.equal x = !x.isNaN := by
  rw [equal, beq_self_eq_true, Bool.true_or, Bool.and_true, Bool.and_self]

end Binary64

namespace Value

variable {a b c : Value}

/-! ## Equal values -/

/-- Equal values are equal numbers, or one value that is no number. -/
theorem strictEqual_iff : a.strictEqual b = true ↔
    (∃ x y, a = .number x ∧ b = .number y ∧ x.equal y = true) ∨ a.number? = none ∧ a = b := by
  cases a <;> cases b <;> simp [strictEqual, number?]

theorem strictEqual_comm (a b : Value) : a.strictEqual b = b.strictEqual a := by
  rw [Bool.eq_iff_iff, strictEqual_iff, strictEqual_iff]
  constructor
  all_goals
    rintro (⟨x, y, rfl, rfl, hxy⟩ | ⟨hnone, rfl⟩)
    · exact .inl ⟨y, x, rfl, rfl, (x.equal_comm y).symm.trans hxy⟩
    · exact .inr ⟨hnone, rfl⟩

theorem strictEqual_trans (hab : a.strictEqual b = true) (hbc : b.strictEqual c = true) :
    a.strictEqual c = true := by
  rcases strictEqual_iff.1 hab with ⟨x, y, rfl, rfl, hxy⟩ | ⟨-, rfl⟩
  · rcases strictEqual_iff.1 hbc with ⟨_, z, ⟨⟩, rfl, hyz⟩ | ⟨hnone, -⟩
    · exact Binary64.equal_trans hxy hyz
    · cases hnone
  · exact hbc

theorem strictEqual_self (a : Value) : a.strictEqual a = !a.isNaN := by
  cases a with
  | number x => exact x.equal_self
  | _ => exact beq_self_eq_true _

/-- The values are zeros, of whatever signs. -/
def AreZeros (a b : Value) : Prop :=
  ∃ x y : Binary64, a = .number x ∧ b = .number y ∧ x.isZero = true ∧ y.isZero = true

theorem eq_or_areZeros (h : a.strictEqual b = true) : a = b ∨ AreZeros a b := by
  rcases strictEqual_iff.1 h with ⟨x, y, rfl, rfl, hxy⟩ | ⟨-, heq⟩
  · rcases (Binary64.equal_iff.1 hxy).2.2 with rfl | hzeros
    · exact .inl rfl
    · exact .inr ⟨x, y, rfl, rfl, hzeros⟩
  · exact .inl heq

theorem isNaN_of_strictEqual (h : a.strictEqual b = true) : a.isNaN = false := by
  have hself := strictEqual_trans h (strictEqual_comm b a ▸ h)
  rwa [strictEqual_self, Bool.not_eq_true'] at hself

/-! ## Storing equal values -/

theorem received_of_isNaN_eq_false (h : a.isNaN = false) : a.received = a := by
  cases a with
  | number x =>
    have hx : ¬x.isNaN = true := Bool.eq_false_iff.1 h
    rw [received, if_neg hx]
  | _ => rfl

end Value

namespace Table

variable {t t' u u' : Table} {a b v : Value} {r r' : Ref}

/-- The table of a bridge after some operations. -/
def IsReached (t : Table) : Prop :=
  ∃ global runtime ops, t = (create global runtime).run ops

theorem IsReached.of_store (h : t.IsReached) (hstore : t.store v = .ok (r, t')) :
    t'.IsReached := by
  obtain ⟨global, runtime, ops, rfl⟩ := h
  refine ⟨global, runtime, ops ++ [.store v], ?_⟩
  rw [run_concat, apply_store hstore]

theorem IsReached.standsFor_store (h : t.IsReached) (hv : v.isNaN = false)
    (hstore : t.store v = .ok (r, t')) : t'.standsFor r = .ok v := by
  obtain ⟨global, runtime, ops, rfl⟩ := h
  rw [← Value.received_of_isNaN_eq_false hv]
  exact Table.standsFor_store (.run_create global runtime ops)
    (fun s => load_singleton_run (.create global runtime) s (load_singleton_create _ _ s) ops)
    hstore

/-- A reference stands for the same value after another value is stored. -/
theorem IsReached.standsFor_of_store (h : t.IsReached) (href : t.standsFor r = .ok a)
    (hstore : t.store v = .ok (r', t')) : t'.standsFor r = .ok a := by
  obtain ⟨global, runtime, ops, rfl⟩ := h
  rw [← apply_store hstore]
  refine standsFor_apply (.run_create global runtime ops) href fun id _ hlive => ?_
  obtain ⟨w, hload⟩ := load_of_isLive hlive
  exact isLive_of_load (load_apply (.run_create global runtime ops) hload (not_frees_store _ v id))

/-- The tag of the reference of a value that is stored does not depend on the table. -/
theorem tag?_of_store (h : t.store v = .ok (r, t')) :
    r.tag? = match immediate? v with
      | some immediate => immediate.tag?
      | none => some (.ofValue v) := by
  cases step_of_store h with
  | immediate himm => rw [himm]
  | reuse himm | grow himm => rw [himm, Ref.tag?_boxed]

end Table

namespace Value

variable {a b : Value} {x : Binary64} {t t' u u' : Table} {r r' : Ref}

/-! ## Interchangeable values -/

/-- Whatever is done with the one value comes to the same with the other, but for the sign of a
    zero. -/
structure Interchangeable (a b : Value) : Prop where
  eq_or_areZeros : a = b ∨ AreZeros a b
  kind : a.kind = b.kind
  hostText : ∀ h : Heap, h.hostText a = h.hostText b
  get : ∀ (h : Heap) key, h.get a key = h.get b key
  set : ∀ (h : Heap) key v, h.set a key v = h.set b key v
  call : ∀ (e : Engine) receiver args h, e.call a receiver args h = e.call b receiver args h
  construct : ∀ (e : Engine) args h, e.construct a args h = e.construct b args h
  toNumber : Alike (fun x y => x.equal y = true ∨ x.isNaN = true ∧ y.isNaN = true)
    a.toNumber b.toNumber
  /-- One table stores both or refuses both, with the same fault. -/
  refused : ∀ (t : Table) fault, t.store a = .error fault ↔ t.store b = .error fault
  /-- Two tables, or one at two times, store one each. -/
  stored : ∀ {t t' u u' : Table} {r r' : Ref}, t.IsReached → u.IsReached →
    t.store a = .ok (r, t') → u.store b = .ok (r', u') →
      r.tag? = r'.tag? ∧ t'.standsFor r = .ok a ∧ u'.standsFor r' = .ok b
  /-- One table stores them one after the other. -/
  storedBoth : ∀ {t t' t'' : Table} {r r' : Ref}, t.IsReached →
    t.store a = .ok (r, t') → t'.store b = .ok (r', t'') →
      t''.standsFor r = .ok a ∧ t''.standsFor r' = .ok b

theorem hostText_of_strictEqual (hab : a.strictEqual b = true) (h : Heap) :
    h.hostText a = h.hostText b := by
  rcases strictEqual_iff.1 hab with ⟨x, y, rfl, rfl, hxy⟩ | ⟨-, rfl⟩
  · rw [Heap.hostText, Heap.hostText, (Binary64.hostText_eq_iff x y).2 (by rw [hxy, Bool.true_or])]
  · rfl

theorem toNumber_of_strictEqual (hab : a.strictEqual b = true) :
    Alike (fun x y => x.equal y = true ∨ x.isNaN = true ∧ y.isNaN = true)
      a.toNumber b.toNumber := by
  rcases strictEqual_iff.1 hab with ⟨x, y, rfl, rfl, hxy⟩ | ⟨-, rfl⟩
  · exact .ok (.inl hxy)
  · refine .refl (fun x => ?_) _
    rw [x.equal_self]
    cases x.isNaN
    · exact .inl rfl
    · exact .inr ⟨rfl, rfl⟩

/-- Numbers travel as such. -/
theorem immediate?_number (ha : (number x).isNaN = false) :
    Table.immediate? (number x) = some (.ofNumber x) := by
  have hx : ¬x.isNaN = true := Bool.eq_false_iff.1 ha
  rw [Table.immediate?, if_neg hx]

theorem tag?_of_strictEqual (hab : a.strictEqual b = true) (ha : t.store a = .ok (r, t'))
    (hb : u.store b = .ok (r', u')) : r.tag? = r'.tag? := by
  have hanan := isNaN_of_strictEqual hab
  have hbnan := isNaN_of_strictEqual (strictEqual_comm a b ▸ hab)
  rw [Table.tag?_of_store ha, Table.tag?_of_store hb]
  rcases strictEqual_iff.1 hab with ⟨x, y, rfl, rfl, -⟩ | ⟨-, rfl⟩
  · rw [immediate?_number hanan, immediate?_number hbnan]
    dsimp only
    rw [Ref.tag?, Ref.tag?, Ref.isBoxed_ofNumber hanan, Ref.isBoxed_ofNumber hbnan]
    rfl
  · rfl

theorem refused_of_strictEqual (hab : a.strictEqual b = true) (t : Table) (fault : BridgeFault) :
    t.store a = .error fault ↔ t.store b = .error fault := by
  rcases eq_or_areZeros hab with rfl | ⟨x, y, rfl, rfl, -, -⟩
  · exact Iff.rfl
  · -- Neither takes a slot.
    exact ⟨nofun, nofun⟩

/-- What treats all numbers alike does not tell equal values apart. -/
theorem congr_of_strictEqual {α : Type} (hab : a.strictEqual b = true) (f : Value → α)
    (hf : ∀ x y : Binary64, f (.number x) = f (.number y)) : f a = f b := by
  rcases strictEqual_iff.1 hab with ⟨x, y, rfl, rfl, -⟩ | ⟨-, rfl⟩
  · exact hf x y
  · rfl

theorem interchangeable_of_strictEqual (hab : a.strictEqual b = true) : Interchangeable a b := by
  have hanan := isNaN_of_strictEqual hab
  have hbnan := isNaN_of_strictEqual (strictEqual_comm a b ▸ hab)
  exact {
    eq_or_areZeros := eq_or_areZeros hab
    kind := congr_of_strictEqual hab kind fun _ _ => rfl
    hostText := hostText_of_strictEqual hab
    get := fun h key => congr_of_strictEqual hab (h.get · key) fun _ _ => rfl
    set := fun h key v => congr_of_strictEqual hab (h.set · key v) fun _ _ => rfl
    call := fun e receiver args h =>
      congr_of_strictEqual hab (e.call · receiver args h) fun _ _ => rfl
    construct := fun e args h => congr_of_strictEqual hab (e.construct · args h) fun _ _ => rfl
    toNumber := toNumber_of_strictEqual hab
    refused := refused_of_strictEqual hab
    stored := fun ht hu ha hb => ⟨tag?_of_strictEqual hab ha hb, ht.standsFor_store hanan ha,
      hu.standsFor_store hbnan hb⟩
    storedBoth := fun ht ha hb => ⟨(ht.of_store ha).standsFor_of_store
      (ht.standsFor_store hanan ha) hb, (ht.of_store ha).standsFor_store hbnan hb⟩ }

/-- Strict equality is symmetric and transitive, every value but a NaN equals itself, and numbers
    are equal by the values that they have. Equal values are interchangeable: no operation on values
    or tables tells one from the other, but for the sign of a zero. -/
theorem strictEqual_laws (a b c : Value) :
    a.strictEqual b = b.strictEqual a ∧
    (a.strictEqual b = true → b.strictEqual c = true → a.strictEqual c = true) ∧
    (a.strictEqual a = false ↔ ∃ x, a = .number x ∧ x.isNaN = true) ∧
    (∀ x y, (number x).strictEqual (.number y) = true ↔
      x.isFinite = true ∧ y.isFinite = true ∧ x.value = y.value ∨
        ∃ negative, x = .infinity negative ∧ y = .infinity negative) ∧
    (a.strictEqual b = true → Interchangeable a b) := by
  refine ⟨strictEqual_comm a b, strictEqual_trans, ?_, fun x y => Binary64.equal_iff_value,
    interchangeable_of_strictEqual⟩
  rw [strictEqual_self, Bool.not_eq_false']
  cases a <;> simp [isNaN]

end Value

end ValueBridge
