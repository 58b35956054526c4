/-!
# Linked arrays

Two arrays are *linked* if some positions of the one go with positions of the other, no
position twice, and the entries that stand there are related (`Linked`). Entries pushed to
both go with each other from then on (`Linked.push`), and entries that go with each other may
be written in both (`Linked.set`).

The links *grow* if fresh positions alone are linked anew, and the first array keeps what is
not linked (`Grows`). The second array is only a witness of what happens to the first, so that
nothing is said of what it keeps.
-/

namespace ValueBridge

/-- The results are related, or the faults are the same. -/
inductive Alike {ε α β : Type} (R : α → β → Prop) : Except ε α → Except ε β → Prop
  | ok {a : α} {b : β} : R a b → Alike R (.ok a) (.ok b)
  | error (fault : ε) : Alike R (.error fault) (.error fault)

namespace Alike

variable {ε ε' α β α' β' : Type} {R : α → β → Prop} {R' : α' → β' → Prop} {x : Except ε α}
  {y : Except ε β}

theorem bind {f : α → Except ε α'} {g : β → Except ε β'} (h : Alike R x y)
    (hfg : ∀ a b, R a b → Alike R' (f a) (g b)) : Alike R' (x >>= f) (y >>= g) := by
  cases h with
  | ok h => exact hfg _ _ h
  | error fault => exact .error fault

theorem mapError (h : Alike R x y) (f : ε → ε') : Alike R (x.mapError f) (y.mapError f) := by
  cases h with
  | ok h => exact .ok h
  | error fault => exact .error (f fault)

theorem refl {R : α → α → Prop} (hR : ∀ a, R a a) (x : Except ε α) : Alike R x x := by
  cases x with
  | ok a => exact .ok (hR a)
  | error fault => exact .error fault

theorem eq {x y : Except ε α} (h : Alike Eq x y) : x = y := by
  cases h with
  | ok h => rw [h]
  | error fault => rfl

end Alike

variable {α : Type} {q q' q'' : Nat → Nat → Prop} {R R' : α → α → Prop}
  {xs xs' xs'' ys ys' ys'' : Array α} {i j : Nat} {x y : α}

/-- The entries at positions that go with each other are related, and no position goes with
    two. -/
structure Linked (q : Nat → Nat → Prop) (R : α → α → Prop) (xs ys : Array α) : Prop where
  entries : ∀ {i j}, q i j → ∃ x y, xs[i]? = some x ∧ ys[j]? = some y ∧ R x y
  unique : ∀ {i j i' j'}, q i j → q i' j' → (i = i' ↔ j = j')

/-- The links with one more, between the positions after the last ones. -/
def linkLast (q : Nat → Nat → Prop) (xs ys : Array α) (i j : Nat) : Prop :=
  q i j ∨ i = xs.size ∧ j = ys.size

namespace Linked

theorem lt_size (h : Linked q R xs ys) (hij : q i j) : i < xs.size ∧ j < ys.size := by
  obtain ⟨x, y, hx, hy, _⟩ := h.entries hij
  exact ⟨(Array.getElem?_eq_some_iff.1 hx).1, (Array.getElem?_eq_some_iff.1 hy).1⟩

theorem getD (h : Linked q R xs ys) (hij : q i j) (x y : α) : R (xs.getD i x) (ys.getD j y) := by
  obtain ⟨x', y', hx, hy, hR⟩ := h.entries hij
  simpa only [Array.getD_eq_getD_getElem?, hx, hy, Option.getD_some] using hR

theorem imp (h : Linked q R xs ys) (hR : ∀ x y, R x y → R' x y) : Linked q R' xs ys where
  entries hij := by
    obtain ⟨x, y, hx, hy, hxy⟩ := h.entries hij
    exact ⟨x, y, hx, hy, hR x y hxy⟩
  unique := h.unique

theorem push (h : Linked q R xs ys) (hxy : R x y) :
    Linked (linkLast q xs ys) R (xs.push x) (ys.push y) where
  entries := by
    rintro i j (hij | ⟨rfl, rfl⟩)
    · obtain ⟨hi, hj⟩ := h.lt_size hij
      obtain ⟨x', y', hx, hy, hR⟩ := h.entries hij
      refine ⟨x', y', ?_, ?_, hR⟩
      · rw [Array.getElem?_push, if_neg (Nat.ne_of_lt hi), hx]
      · rw [Array.getElem?_push, if_neg (Nat.ne_of_lt hj), hy]
    · exact ⟨x, y, Array.getElem?_push_size, Array.getElem?_push_size, hxy⟩
  unique := by
    -- The last positions are beyond all that were linked before.
    rintro i j i' j' (hij | ⟨rfl, rfl⟩) (hij' | ⟨rfl, rfl⟩)
    · exact h.unique hij hij'
    · have := h.lt_size hij
      omega
    · have := h.lt_size hij'
      omega
    · simp

theorem set (h : Linked q R xs ys) (hij : q i j) (hxy : R x y) :
    Linked q R (xs.setIfInBounds i x) (ys.setIfInBounds j y) where
  entries := by
    intro i' j' hij'
    obtain ⟨x', y', hx, hy, hR⟩ := h.entries hij'
    have hsame := h.unique hij hij'
    obtain ⟨hi, hj⟩ := h.lt_size hij
    simp only [Array.getElem?_setIfInBounds, hi, hj, if_true, ← hsame]
    split
    · exact ⟨x, y, rfl, rfl, hxy⟩
    · exact ⟨x', y', hx, hy, hR⟩
  unique := h.unique

/-- Only what is linked matters. -/
theorem of_getElem?_eq (h : Linked q R xs ys) (hxs : ∀ i j, q i j → xs'[i]? = xs[i]?)
    (hys : ∀ i j, q i j → ys'[j]? = ys[j]?) : Linked q R xs' ys' where
  entries hij := by
    rw [hxs _ _ hij, hys _ _ hij]
    exact h.entries hij
  unique := h.unique

end Linked

/-- Fresh positions alone are linked anew, and the first array keeps what is not linked. -/
structure Grows (q q' : Nat → Nat → Prop) (xs ys xs' ys' : Array α) : Prop where
  mono : ∀ {i j}, q i j → q' i j
  fresh : ∀ {i j}, q' i j → q i j ∨ xs.size ≤ i ∧ ys.size ≤ j
  left_le : xs.size ≤ xs'.size
  right_le : ys.size ≤ ys'.size
  kept : ∀ {i}, i < xs.size → (∀ j, ¬q i j) → xs'[i]? = xs[i]?

namespace Grows

theorem refl (q : Nat → Nat → Prop) (xs ys : Array α) : Grows q q xs ys xs ys :=
  ⟨id, .inl, Nat.le_refl _, Nat.le_refl _, fun _ _ => rfl⟩

theorem trans (h : Grows q q' xs ys xs' ys') (h' : Grows q' q'' xs' ys' xs'' ys'') :
    Grows q q'' xs ys xs'' ys'' where
  mono hij := h'.mono (h.mono hij)
  fresh hij := by
    have := h.left_le
    have := h.right_le
    rcases h'.fresh hij with hij | ⟨hi, hj⟩
    · exact h.fresh hij
    · exact .inr ⟨by omega, by omega⟩
  left_le := Nat.le_trans h.left_le h'.left_le
  right_le := Nat.le_trans h.right_le h'.right_le
  kept := by
    intro i hi hfree
    have hfree' (j : Nat) (hij : q' i j) : False := by
      rcases h.fresh hij with hij | ⟨hi', _⟩
      · exact hfree j hij
      · omega
    rw [h'.kept (Nat.lt_of_lt_of_le hi h.left_le) hfree', h.kept hi hfree]

theorem push (q : Nat → Nat → Prop) (xs ys : Array α) (x y : α) :
    Grows q (linkLast q xs ys) xs ys (xs.push x) (ys.push y) where
  mono := .inl
  fresh := by
    rintro i j (hij | ⟨rfl, rfl⟩)
    · exact .inl hij
    · exact .inr ⟨Nat.le_refl _, Nat.le_refl _⟩
  left_le := by rw [Array.size_push]; omega
  right_le := by rw [Array.size_push]; omega
  kept hi _ := by rw [Array.getElem?_push, if_neg (Nat.ne_of_lt hi)]

theorem set (hij : q i j) (xs ys : Array α) (x y : α) :
    Grows q q xs ys (xs.setIfInBounds i x) (ys.setIfInBounds j y) where
  mono := id
  fresh := .inl
  left_le := Nat.le_of_eq Array.size_setIfInBounds.symm
  right_le := Nat.le_of_eq Array.size_setIfInBounds.symm
  kept _ hfree := by
    refine Array.getElem?_setIfInBounds_ne ?_
    rintro rfl
    exact hfree j hij

variable {r : Nat → Nat → Prop} {zs : Array α}

/-- What has no link in common with the links that grow is left alone. -/
theorem getElem?_eq (h : Grows q q' xs ys xs' ys') (hr : Linked r R xs zs)
    (hapart : ∀ i j j', q i j → ¬r i j') (hij : r i j) : xs'[i]? = xs[i]? :=
  h.kept (hr.lt_size hij).1 fun j' hij' => hapart i j' j hij' hij

/-- What has no link in common with the links that grow stays linked, and has none in common
    with those that are new. -/
theorem spares (h : Grows q q' xs ys xs' ys') (hr : Linked r R xs zs)
    (hapart : ∀ i j j', q i j → ¬r i j') :
    Linked r R xs' zs ∧ ∀ i j j', q' i j → ¬r i j' := by
  refine ⟨hr.of_getElem?_eq (fun i j => h.getElem?_eq hr hapart) fun _ _ _ => rfl,
    fun i j j' hij hij' => ?_⟩
  rcases h.fresh hij with hij | ⟨hi, _⟩
  · exact hapart i j j' hij hij'
  · exact Nat.not_lt.2 hi (hr.lt_size hij').1

end Grows

end ValueBridge
