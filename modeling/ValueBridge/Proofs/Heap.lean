import ValueBridge.Heap.Property

/-!
# Heaps that keep what they had

A heap *keeps* what another has if every object and every function of the other is there
as it was, with its properties and its bytes. Making new ones keeps all (`Keeps.allocObject`).

It keeps all *but a key* if the properties of that key may differ (`KeepsBut`).
-/

namespace ValueBridge.Heap

/-- Every object and every function is as it was. -/
structure Keeps (h h' : Heap) : Prop where
  objects_le : h.objects.size ≤ h'.objects.size
  functions_le : h.functions.size ≤ h'.functions.size
  object : ∀ id, id.index < h.objects.size → h'.object id = h.object id
  function : ∀ id, id.index < h.functions.size → h'.function id = h.function id

namespace Keeps

theorem refl (h : Heap) : h.Keeps h :=
  ⟨Nat.le_refl _, Nat.le_refl _, fun _ _ => rfl, fun _ _ => rfl⟩

theorem trans {h h' h'' : Heap} (hk : h.Keeps h') (hk' : h'.Keeps h'') : h.Keeps h'' where
  objects_le := Nat.le_trans hk.objects_le hk'.objects_le
  functions_le := Nat.le_trans hk.functions_le hk'.functions_le
  object id hid :=
    (hk'.object id (Nat.lt_of_lt_of_le hid hk.objects_le)).trans (hk.object id hid)
  function id hid :=
    (hk'.function id (Nat.lt_of_lt_of_le hid hk.functions_le)).trans (hk.function id hid)

theorem allocObject (h : Heap) (cell : ObjectCell) : h.Keeps (h.allocObject cell).2 where
  objects_le := by
    rw [Heap.allocObject, Array.size_push]
    exact Nat.le_succ _
  functions_le := Nat.le_refl _
  object id hid := by
    change (h.objects.push cell).getD id.index .plain = h.objects.getD id.index .plain
    rw [Array.getD_eq_getD_getElem?, Array.getElem?_push, if_neg (Nat.ne_of_lt hid),
      Array.getD_eq_getD_getElem?]
  function _ _ := rfl

end Keeps

/-- Every object and every function has the properties that it had, but for those of the key, and
    every buffer has the same bytes. -/
structure KeepsBut (key : String) (h h' : Heap) : Prop where
  objects_le : h.objects.size ≤ h'.objects.size
  functions_le : h.functions.size ≤ h'.functions.size
  bytes? : ∀ id, id.index < h.objects.size → (h'.object id).bytes? = (h.object id).bytes?
  object : ∀ id k, id.index < h.objects.size → k ≠ key →
    (h'.object id).get k = (h.object id).get k
  function : ∀ id k, id.index < h.functions.size → k ≠ key →
    (h'.function id).get k = (h.function id).get k

theorem Keeps.keepsBut {h h' : Heap} (hk : h.Keeps h') (key : String) : h.KeepsBut key h' where
  objects_le := hk.objects_le
  functions_le := hk.functions_le
  bytes? id hid := by rw [hk.object id hid]
  object id k hid _ := by rw [hk.object id hid]
  function id k hid _ := by rw [hk.function id hid]

theorem KeepsBut.refl (key : String) (h : Heap) : h.KeepsBut key h :=
  (Keeps.refl h).keepsBut key

end ValueBridge.Heap
