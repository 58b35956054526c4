import Mathlib.Data.List.Forall2
import ValueBridge.Engine.Standard
import ValueBridge.Proofs.Heap.Pairing

/-!
# Engines in step

An engine *respects* pairings if its functions, run in paired heaps on what matches, come to
the same (`Engine.Respects`): they look at no identity, and reach nothing but what they are
given. The standard engine does (`Engine.respects_standard`).
-/

namespace ValueBridge

/-- The functions come to the same in paired heaps. -/
def Engine.Respects (e : Engine) : Prop :=
  ∀ {p : Pairing} {h h' : Heap} {receiver receiver' : Value} {args args' : List Value} native,
    p.Pairs h h' → p.Matches receiver receiver' → List.Forall₂ p.Matches args args' →
    p.Together (fun p => p.Matches) h h' (e.run native receiver args h)
      (e.run native receiver' args' h')

namespace Pairing

variable {p : Pairing} {h h' : Heap} {v v' : Value} {α β : Type} {Q : Pairing → α → β → Prop}

theorem Pairs.hostText (hp : p.Pairs h h') (hv : p.Matches v v') :
    h'.hostText v' = h.hostText v := by
  cases hv with
  | function hid => simp only [Heap.hostText, Heap.functionText, (hp.function hid).name]
  | _ => rfl

/-- Nothing happens to the heaps. -/
theorem Pairs.together (hp : p.Pairs h h') {x : Except Fault α} {y : Except Fault β}
    (hxy : Alike (Q p) x y) : p.Together Q h h' (x, h) (y, h') :=
  ⟨p, .refl p h h', hp, hxy⟩

theorem Pairs.together_error (hp : p.Pairs h h') (fault : Fault) :
    p.Together Q h h' (.error fault, h) (.error fault, h') :=
  hp.together (.error fault)

end Pairing

namespace Standard

variable {p : Pairing} {h h' : Heap} {receiver receiver' : Value} {args args' : List Value}

/-! ## Arguments -/

theorem matches_first (hargs : List.Forall₂ p.Matches args args') :
    p.Matches (first args) (first args') := by
  cases hargs with
  | nil => exact .undefined
  | cons hv _ => exact hv

theorem matches_tail (hargs : List.Forall₂ p.Matches args args') :
    List.Forall₂ p.Matches args.tail args'.tail := by
  cases hargs with
  | nil => exact .nil
  | cons _ hargs => exact hargs

theorem bufferBytes_eq (hp : p.Pairs h h') (hargs : List.Forall₂ p.Matches args args') :
    bufferBytes args' h' = bufferBytes args h := by
  cases hargs with
  | nil => rfl
  | cons hv _ =>
    have hbytes := hp.bytes? hv
    have hlength := hv.toNumber
    cases hv with
    | object hid => simp only [bufferBytes, List.head?_cons, hbytes, bufferLength, hlength]
    | _ => rfl

theorem symbolDescription_eq (hp : p.Pairs h h') (hargs : List.Forall₂ p.Matches args args') :
    symbolDescription args' h' = symbolDescription args h := by
  cases hargs with
  | nil => rfl
  | cons hv _ =>
    have htext := hp.hostText hv
    cases hv with
    | undefined => rfl
    | _ => simp only [symbolDescription, List.head?_cons, htext]

theorem textOf_eq (hp : p.Pairs h h') (hargs : List.Forall₂ p.Matches args args') :
    textOf args' h' = textOf args h := by
  cases hargs with
  | nil => rfl
  | cons hv _ =>
    have htext := hp.hostText hv
    cases hv with
    | symbol hid => simp only [textOf, List.head?_cons, Heap.symbolText, hp.description? hid]
    | _ => simp only [textOf, List.head?_cons, htext]

theorem sumOf_eq (hargs : List.Forall₂ p.Matches args args') : sumOf args' = sumOf args := by
  rw [sumOf, sumOf]
  generalize Binary64.zero false = total
  induction hargs generalizing total with
  | nil => rfl
  | cons hv _ ih => simp only [List.foldlM_cons, hv.toNumber, ih]

theorem concatOf_eq (hp : p.Pairs h h') (hargs : List.Forall₂ p.Matches args args') :
    concatOf args' h' = concatOf args h := by
  have htexts : args'.mapM h'.hostText = args.mapM h.hostText := by
    induction hargs with
    | nil => rfl
    | cons hv _ ih => simp only [List.mapM_cons, hp.hostText hv, ih]
  rw [concatOf, concatOf, htexts]

/-! ## Behaviours -/

/-- Something without an identity is computed alike. -/
theorem together_map {α : Type} (hp : p.Pairs h h') {x y : Except Fault α} (hxy : y = x)
    {f : α → Value} (hf : ∀ a, p.Matches (f a) (f a)) :
    p.Together (fun p => p.Matches) h h' (unchanged h (x.map f)) (unchanged h' (y.map f)) := by
  subst hxy
  cases y with
  | error fault => exact hp.together_error fault
  | ok a => exact hp.together (.ok (hf a))

theorem together_newObject (hp : p.Pairs h h') :
    p.Together (fun p id id' => p.object id.index id'.index) h h'
      (.ok h.newObject.1, h.newObject.2) (.ok h'.newObject.1, h'.newObject.2) :=
  hp.together_allocObject ⟨.empty p, rfl⟩

theorem together_objectOf (hp : p.Pairs h h') (hargs : List.Forall₂ p.Matches args args') :
    p.Together (fun p => p.Matches) h h' (run .objectOf receiver args h)
      (run .objectOf receiver' args' h') := by
  obtain ⟨p', ha, hp', hid⟩ := together_newObject hp
  have hfresh : p.Together (fun p => p.Matches) h h'
      (.ok (.object h.newObject.1), h.newObject.2)
      (.ok (.object h'.newObject.1), h'.newObject.2) := by
    cases hid with | ok hid => exact ⟨p', ha, hp', .ok (.object hid)⟩
  rw [run, run]
  cases hargs with
  | nil => exact hfresh
  | cons hv _ =>
    cases hv with
    | object hid => exact hp.together (.ok (.object hid))
    | function hid => exact hp.together (.ok (.function hid))
    | _ => exact hfresh

theorem together_bufferOf (hp : p.Pairs h h') (hargs : List.Forall₂ p.Matches args args') :
    p.Together (fun p => p.Matches) h h' (run .bufferOf receiver args h)
      (run .bufferOf receiver' args' h') := by
  rw [run, run, bufferBytes_eq hp hargs]
  cases bufferBytes args h with
  | error fault => exact hp.together_error fault
  | ok bytes =>
    have hcell : p.MatchesObject ⟨.empty, some bytes⟩ ⟨.empty, some bytes⟩ := ⟨.empty p, rfl⟩
    obtain ⟨p', ha, hp', hid⟩ := hp.together_allocObject hcell
    cases hid with | ok hid => exact ⟨p', ha, hp', .ok (.object hid)⟩

theorem together_symbolOf (hp : p.Pairs h h') (hargs : List.Forall₂ p.Matches args args') :
    p.Together (fun p => p.Matches) h h' (run .symbolOf receiver args h)
      (run .symbolOf receiver' args' h') := by
  rw [run, run, symbolDescription_eq hp hargs]
  cases symbolDescription args h with
  | error fault => exact hp.together_error fault
  | ok description? =>
    obtain ⟨p', ha, hp', hid⟩ := hp.together_newSymbol description?
    cases hid with | ok hid => exact ⟨p', ha, hp', .ok (.symbol hid)⟩

theorem together_put (hp : p.Pairs h h') (hr : p.Matches receiver receiver')
    (hargs : List.Forall₂ p.Matches args args') :
    p.Together (fun p => p.Matches) h h' (run .put receiver args h)
      (run .put receiver' args' h') := by
  have hset : Alike (fun o o' => o.1 = o'.1 ∧ p.Advances p h h' o.2 o'.2 ∧ p.Pairs o.2 o'.2)
      (h.hostText (first args) >>= fun key => h.set receiver key (first args.tail))
      (h'.hostText (first args') >>= fun key => h'.set receiver' key (first args'.tail)) := by
    rw [hp.hostText (matches_first hargs)]
    refine (Alike.refl (R := Eq) (fun _ => rfl) _).bind ?_
    rintro key _ rfl
    exact hp.alike_set hr (matches_first (matches_tail hargs)) key
  rw [run, run]
  generalize (h.hostText (first args) >>= fun key => h.set receiver key (first args.tail)) = o,
    (h'.hostText (first args') >>= fun key => h'.set receiver' key (first args'.tail)) = o' at hset
  cases hset with
  | error fault => exact hp.together_error fault
  | @ok o o' hset =>
    obtain ⟨written, k⟩ := o
    obtain ⟨rfl, ha, hp'⟩ := hset
    exact ⟨p, ha, hp', .ok (.bool _)⟩

/-- What is collected in both heaps is collected alike. -/
theorem alike_collectInto {id id' : ObjectId} (hp : p.Pairs h h')
    (hid : p.object id.index id'.index) (index : Nat)
    (hargs : List.Forall₂ p.Matches args args') :
    p.Advances p h h' (collectInto id index args h) (collectInto id' index args' h') ∧
      p.Pairs (collectInto id index args h) (collectInto id' index args' h') := by
  induction hargs generalizing h h' index with
  | nil => exact ⟨.refl p h h', hp⟩
  | cons hv _ ih =>
    obtain ⟨_, ha, hp⟩ := hp.alike_setOf hid hv (Text.indexKey index)
    obtain ⟨ha', hp'⟩ := ih hp (index + 1)
    exact ⟨ha.trans ha', hp'⟩

theorem together_collect (hp : p.Pairs h h') (hargs : List.Forall₂ p.Matches args args') :
    p.Together (fun p => p.Matches) h h' (run .collect receiver args h)
      (run .collect receiver' args' h') := by
  obtain ⟨p', ha, hp', hid⟩ := together_newObject hp
  rw [run, run]
  cases hid with
  | ok hid =>
    have hargs' := hargs.imp fun _ _ => ha.matchesValue
    obtain ⟨ha', hp'⟩ := alike_collectInto hp' hid 0 hargs'
    exact ⟨p', ha.trans ha', hp', .ok (.object hid)⟩

/-! ## The standard engine -/

theorem together_run (native : Native) (hp : p.Pairs h h') (hr : p.Matches receiver receiver')
    (hargs : List.Forall₂ p.Matches args args') :
    p.Together (fun p => p.Matches) h h' (run native receiver args h)
      (run native receiver' args' h') := by
  -- A behaviour that runs another one hands on fewer arguments.
  induction hlength : args.length using Nat.strongRecOn
    generalizing native receiver receiver' args args' with | _ n ih
  have hfirst := matches_first hargs
  cases native with
  | objectOf => exact together_objectOf hp hargs
  | bufferOf => exact together_bufferOf hp hargs
  | symbolOf => exact together_symbolOf hp hargs
  | textOf =>
    rw [run, run]
    exact together_map hp (textOf_eq hp hargs) .string
  | requireNew name =>
    rw [run, run]
    exact hp.together_error _
  | double =>
    rw [run, run]
    exact together_map hp hfirst.toNumber fun _ => .number _
  | receiverTag =>
    rw [run, run]
    exact hp.together (hp.alike_get hr "tag")
  | receiver =>
    rw [run, run]
    exact hp.together (.ok hr)
  | first =>
    rw [run, run]
    exact hp.together (.ok hfirst)
  | count =>
    rw [run, run, hargs.length_eq]
    exact hp.together (.ok (.number _))
  | sum =>
    rw [run, run]
    exact together_map hp (sumOf_eq hargs) .number
  | concat =>
    rw [run, run]
    exact together_map hp (concatOf_eq hp hargs) .string
  | put => exact together_put hp hr hargs
  | collect => exact together_collect hp hargs
  | failType =>
    rw [run, run, hp.hostText hfirst]
    cases h.hostText (first args) <;> exact hp.together_error _
  | failRange =>
    rw [run, run, hp.hostText hfirst]
    cases h.hostText (first args) <;> exact hp.together_error _
  | apply =>
    cases hargs with
    | nil =>
      rw [run, run]
      exact hp.together_error _
    | @cons f f' rest rest' hf hrest =>
      rw [List.length_cons] at hlength
      rw [run, run, hp.callBehaviour hf]
      cases h.callBehaviour f with
      | error fault => exact hp.together_error fault
      | ok native =>
        refine ih rest.tail.length ?_ native (matches_first hrest) (matches_tail hrest) rfl
        rw [List.length_tail]
        omega
  | make =>
    cases hargs with
    | nil =>
      rw [run, run]
      exact hp.together_error _
    | @cons f f' rest rest' hf hrest =>
      rw [List.length_cons] at hlength
      rw [run, run, hp.constructBehaviour hf]
      cases h.constructBehaviour f with
      | error fault => exact hp.together_error fault
      | ok native => exact ih rest.length (by omega) native .undefined hrest rfl

end Standard

namespace Engine

theorem respects_standard : Engine.standard.Respects :=
  fun native hp hr hargs => Standard.together_run native hp hr hargs

variable {e : Engine} {p : Pairing} {h h' : Heap} {f f' receiver receiver' : Value}
  {args args' : List Value}

theorem Respects.call (he : e.Respects) (hp : p.Pairs h h') (hf : p.Matches f f')
    (hr : p.Matches receiver receiver') (hargs : List.Forall₂ p.Matches args args') :
    p.Together (fun p => p.Matches) h h' (e.call f receiver args h)
      (e.call f' receiver' args' h') := by
  rw [Engine.call, Engine.call, hp.callBehaviour hf]
  cases h.callBehaviour f with
  | error fault => exact hp.together_error fault
  | ok native => exact he native hp hr hargs

theorem Respects.construct (he : e.Respects) (hp : p.Pairs h h') (hf : p.Matches f f')
    (hargs : List.Forall₂ p.Matches args args') :
    p.Together (fun p => p.Matches) h h' (e.construct f args h) (e.construct f' args' h') := by
  rw [Engine.construct, Engine.construct, hp.constructBehaviour hf]
  cases h.constructBehaviour f with
  | error fault => exact hp.together_error fault
  | ok native => exact he native hp .undefined hargs

end Engine

end ValueBridge
