import ValueBridge.Proofs.Binary64.IntegerPart
import ValueBridge.Proofs.Heap.BufferWrites
import ValueBridge.Proofs.Realm

/-!
# The constructor of buffers

What a construction by `Uint8Array` comes to, for every argument (`Engine.construct_buffer`). The
buffer is a fresh one (`Heap.MakesBuffer`), with the bytes of a buffer that was given or as many
zeros as a number asks for, toward zero (`Heap.MakesZeros`). It shares nothing: writes to it leave
all else as it was, and writes to all else leave it as it was made.
-/

namespace ValueBridge

namespace Heap

variable {h h' : Heap} {ws : List Write} {id : ObjectId} {bytes : Array UInt8}

/-! ## Writes to something else -/

theorem object_run_of_ne (hws : ∀ w ∈ ws, w.target ≠ .object id) :
    (ws.foldl write h).object id = h.object id := by
  induction ws generalizing h with
  | nil => rfl
  | cons w ws ih =>
    rw [List.foldl_cons, ih fun w' hw' => hws w' (List.mem_cons_of_mem _ hw')]
    exact (write_cases h w).object_eq (hws w List.mem_cons_self)

/-- A write to something new changes nothing that there was. -/
theorem Keeps.write (hk : h.Keeps h') {w : Write} (hnew : ¬h.Has w.target) :
    h.Keeps (h'.write w) where
  objects_le := hk.objects_le.trans (write_cases h' w).sizes.1.ge
  functions_le := hk.functions_le.trans (write_cases h' w).sizes.2.ge
  object id hid := by
    have hne : w.target ≠ .object id := fun heq => hnew (heq ▸ hid)
    rw [(write_cases h' w).object_eq hne, hk.object id hid]
  function id hid := by
    have hne : w.target ≠ .function id := fun heq => hnew (heq ▸ hid)
    rw [(write_cases h' w).function_eq hne, hk.function id hid]

theorem Keeps.run (hk : h.Keeps h') (hws : ∀ w ∈ ws, ¬h.Has w.target) :
    h.Keeps (ws.foldl Heap.write h') := by
  induction ws generalizing h' with
  | nil => exact hk
  | cons w ws ih =>
    exact ih (hk.write (hws w List.mem_cons_self)) fun w' hw' => hws w' (List.mem_cons_of_mem _ hw')

/-! ## Fresh buffers -/

/-- The object was made after the others, as a buffer with the bytes and without properties, and
    shares nothing with the others: writes to it alone change none of them, and writes to others
    alone do not change it. -/
structure IsFreshBuffer (h : Heap) (bytes : Array UInt8) (id : ObjectId) (h' : Heap) : Prop where
  fresh : ¬h.Has (.object id)
  has : h'.Has (.object id)
  object : h'.object id = ⟨.empty, some bytes⟩
  keeps : h.Keeps h'
  writesElsewhere : ∀ ws : List Write, (∀ w ∈ ws, w.target ≠ .object id) →
    (ws.foldl write h').object id = ⟨.empty, some bytes⟩
  writesThere : ∀ ws : List Write, (∀ w ∈ ws, w.target = .object id) →
    h.Keeps (ws.foldl write h')

/-- The outcome is a fresh buffer with the bytes. -/
def MakesBuffer (h : Heap) (bytes : Array UInt8) (o : Outcome Value) : Prop :=
  ∃ id, o.1 = .ok (.object id) ∧ h.IsFreshBuffer bytes id o.2

/-- The refusal of a length. -/
def refusedLength (x : Binary64) : Fault :=
  .rangeError ("invalid typed array length: " ++ x.truncate.plainText)

/-- The outcome for a number: a fresh buffer of as many zeros as its integer part, if this is a
    length, and none for a NaN. Otherwise the number is refused, and so are infinities; the heap
    is as before. -/
structure MakesZeros (h : Heap) (x : Binary64) (o : Outcome Value) : Prop where
  nan : x.isNaN = true → h.MakesBuffer #[] o
  finite : x.isFinite = true → ∃ n, Binary64.IsIntegerPart x.value n ∧
    (0 ≤ n ∧ n ≤ 0xFFFFFFFF → h.MakesBuffer (Array.replicate n.toNat 0) o) ∧
    (¬(0 ≤ n ∧ n ≤ 0xFFFFFFFF) → o = (.error (refusedLength x), h))
  infinite : x.isNaN = false → x.isFinite = false → o = (.error (refusedLength x), h)
  fraction : x.isFinite = true → -1 < x.value → x.value < 1 → h.MakesBuffer #[] o

theorem makesBuffer_newBuffer (h : Heap) (bytes : Array UInt8) :
    h.MakesBuffer bytes (.ok (.object (h.newBuffer bytes).1), (h.newBuffer bytes).2) := by
  have hfresh : ¬h.Has (.object (h.newBuffer bytes).1) := Nat.lt_irrefl h.objects.size
  have hobject : (h.newBuffer bytes).2.object (h.newBuffer bytes).1 = ⟨.empty, some bytes⟩ :=
    (object_allocObject h _ _).trans (if_pos rfl)
  have hkeeps : h.Keeps (h.newBuffer bytes).2 := .allocObject h _
  exact ⟨_, rfl, {
    fresh := hfresh
    has := has_allocObject h _
    object := hobject
    keeps := hkeeps
    writesElsewhere := fun ws hws => (object_run_of_ne hws).trans hobject
    writesThere := fun ws hws => hkeeps.run fun w hw => hws w hw ▸ hfresh }⟩

end Heap

/-! ## Constructions -/

namespace Standard

open Heap

variable {h : Heap} {args : List Value} {bytes : Array UInt8} {fault : Fault} {x : Binary64}
  {v : Value}

theorem makesBuffer_run (receiver : Value) (hbytes : bufferBytes args h = .ok bytes) :
    h.MakesBuffer bytes (run .bufferOf receiver args h) := by
  rw [run, hbytes]
  exact makesBuffer_newBuffer h bytes

theorem run_bufferOf_of_error (receiver : Value) (hfault : bufferBytes args h = .error fault) :
    run .bufferOf receiver args h = (.error fault, h) := by
  rw [run, hfault]

/-- What is neither undefined nor a buffer asks for a length. -/
theorem bufferBytes_of_length (hv : args.head? = some v) (hundefined : v ≠ .undefined)
    (hbytes : h.bytes? v = none) :
    bufferBytes args h = (bufferLength v).map fun length => Array.replicate length 0 := by
  cases v with
  | undefined => exact absurd rfl hundefined
  | _ => simp only [bufferBytes, hv, hbytes]

/-- The outcome for an argument that counts as a number. -/
theorem makesZeros_run (receiver : Value) (hv : args.head? = some v) (hundefined : v ≠ .undefined)
    (hbytes : h.bytes? v = none) (hx : v.toNumber = .ok x) :
    h.MakesZeros x (run .bufferOf receiver args h) := by
  have hmade {length : Nat} (hlength : bufferLength v = .ok length) :
      h.MakesBuffer (Array.replicate length 0) (run .bufferOf receiver args h) :=
    makesBuffer_run receiver (by rw [bufferBytes_of_length hv hundefined hbytes, hlength]; rfl)
  have hrefused (hlength : bufferLength v = .error (refusedLength x)) :
      run .bufferOf receiver args h = (.error (refusedLength x), h) :=
    run_bufferOf_of_error receiver
      (by rw [bufferBytes_of_length hv hundefined hbytes, hlength]; rfl)
  have hinside (hfinite : x.isFinite = true)
      (hn : 0 ≤ x.integerPart ∧ x.integerPart ≤ 0xFFFFFFFF) :
      bufferLength v = .ok x.integerPart.toNat := by
    have hnan : ¬x.isNaN = true := Bool.eq_false_iff.1 (Binary64.isNaN_of_isFinite hfinite)
    simp only [bufferLength, hx]
    rw [if_neg hnan, if_pos ⟨hfinite, hn⟩]
  have houtside (hnan : x.isNaN = false)
      (hn : ¬(x.isFinite = true ∧ 0 ≤ x.integerPart ∧ x.integerPart ≤ 0xFFFFFFFF)) :
      bufferLength v = .error (refusedLength x) := by
    simp only [bufferLength, hx, hnan]
    exact if_neg hn
  refine ⟨fun hnan => @hmade 0 ?_, fun hfinite => ?_, fun hnan hfinite => ?_,
    fun hfinite hlow hhigh => ?_⟩
  · simp only [bufferLength, hx, hnan, if_true]
  · exact ⟨_, Binary64.isIntegerPart_integerPart hfinite, fun hn => hmade (hinside hfinite hn),
      fun hn => hrefused (houtside (Binary64.isNaN_of_isFinite hfinite) fun h => hn h.2)⟩
  · exact hrefused (houtside hnan fun h => Bool.false_ne_true (hfinite.symm.trans h.1))
  · have hzero := (Binary64.isIntegerPart_integerPart hfinite).eq_zero hlow hhigh
    have hlength := hinside hfinite (by rw [hzero]; decide)
    rw [hzero] at hlength
    exact hmade hlength

end Standard

namespace Engine

open Heap

/-- The constructor of buffers, as a realm has it, at any time afterwards. Without an argument, or
    with an undefined one, it makes an empty buffer. Of a buffer it makes a fresh one with the same
    bytes. It refuses a symbol. Every other argument counts as a number, and the buffer has as many
    zeros as its integer part, if there can be so many. A refusal leaves the heap as it was. -/
theorem construct_buffer (h₀ : Heap) {h : Heap}
    (hlater : (Realm.create h₀).2.Evolves Anywhere h) (args : List Value) :
    let f := (Realm.create h₀).1.lookup (Realm.create h₀).2 "Uint8Array"
    let o := standard.construct f args h
    (args.head? = none ∨ args.head? = some .undefined → h.MakesBuffer #[] o) ∧
    ∀ v, args.head? = some v → v ≠ .undefined →
      (∀ bytes, h.bytes? v = some bytes → h.MakesBuffer bytes o) ∧
      (∀ id, v = .symbol id →
        o = (.error (.typeError "cannot convert a symbol to a number"), h)) ∧
      (h.bytes? v = none → (∀ id, v ≠ .symbol id) →
        ∃ x, v.toNumber = .ok x ∧ h.MakesZeros x o) := by
  intro f o
  have hbuiltin : h.IsBuiltin .buffer f :=
    (Realm.isBuiltin_lookup_create h₀ Realm.buffer_mem_builtins).evolves hlater
  have ho : o = Standard.run .bufferOf .undefined args h := by
    simp only [o, construct, hbuiltin.constructBehaviour_eq rfl]
    rfl
  clear_value f o
  subst ho
  refine ⟨fun hargs => Standard.makesBuffer_run _ ?_, fun v hv hundefined =>
    ⟨fun bytes hbytes => Standard.makesBuffer_run _ ?_, ?_, fun hbytes hsymbol => ?_⟩⟩
  · rcases hargs with hargs | hargs <;> simp only [Standard.bufferBytes, hargs]
  · cases v with
    | object id => simp only [Standard.bufferBytes, hv, hbytes]
    | _ => cases hbytes
  · rintro id rfl
    exact Standard.run_bufferOf_of_error _
      ((Standard.bufferBytes_of_length hv nofun rfl).trans rfl)
  · obtain ⟨x, hx⟩ : ∃ x, v.toNumber = .ok x := by
      cases v with
      | symbol id => exact absurd rfl (hsymbol id)
      | _ => exact ⟨_, rfl⟩
    exact ⟨x, hx, Standard.makesZeros_run _ hv hundefined hbytes hx⟩

/-- A buffer that was made after the realm is copied. -/
theorem construct_buffer_copy :
    let (r, h₀) := Realm.create .empty
    let (id, h) := h₀.newBuffer #[1, 2, 3]
    h₀.Evolves Anywhere h ∧
      h.MakesBuffer #[1, 2, 3] (standard.construct (r.lookup h₀ "Uint8Array") [.object id] h) := by
  have hlater : (Realm.create .empty).2.Evolves Anywhere
      ((Realm.create .empty).2.newBuffer #[1, 2, 3]).2 := .of_change (.object (some #[1, 2, 3]))
  have hbytes : ((Realm.create .empty).2.newBuffer #[1, 2, 3]).2.bytes?
      (.object ((Realm.create .empty).2.newBuffer #[1, 2, 3]).1) = some #[1, 2, 3] :=
    congrArg ObjectCell.bytes? ((object_allocObject _ _ _).trans (if_pos rfl))
  exact ⟨hlater, ((construct_buffer .empty hlater _).2 (.object _) rfl nofun).1 _ hbytes⟩

end Engine

end ValueBridge
