import ValueBridge.Engine
import ValueBridge.Proofs.Linked

/-!
# Heaps in step

What happens in one heap may happen in another as well, among other things of which the second
heap knows nothing, so that the identities differ. A *pairing* says which of the one are which
of the other (`Pairing`). It *pairs* two heaps if what goes together is the same but for the
identities (`Pairing.Pairs`).

Whatever is done in both heaps at once comes to the same, and to heaps that are paired again
(`Pairing.Together`): reading a property (`Pairs.alike_get`), writing one (`Pairs.alike_set`),
and making something (`Pairs.together_allocObject` and its like). The pairing grows by what is
made, and what the first heap has outside of it is left alone (`Advances.spares`).
-/

namespace ValueBridge

/-- Which objects, functions and symbols of one heap are which of another. -/
structure Pairing where
  object : Nat → Nat → Prop
  function : Nat → Nat → Prop
  symbol : Nat → Nat → Prop

namespace Pairing

/-- The pairing of nothing. -/
def none : Pairing :=
  ⟨fun _ _ => False, fun _ _ => False, fun _ _ => False⟩

/-! ## Values and cells -/

/-- The values are the same but for the identities. -/
inductive Matches (p : Pairing) : Value → Value → Prop
  | undefined : Matches p .undefined .undefined
  | null : Matches p .null .null
  | bool (b : Bool) : Matches p (.bool b) (.bool b)
  | number (x : Binary64) : Matches p (.number x) (.number x)
  | string (s : String) : Matches p (.string s) (.string s)
  | symbol {id id' : SymbolId} : p.symbol id.index id'.index → Matches p (.symbol id) (.symbol id')
  | object {id id' : ObjectId} : p.object id.index id'.index → Matches p (.object id) (.object id')
  | function {id id' : FunctionId} : p.function id.index id'.index →
      Matches p (.function id) (.function id')

/-- The same keys are bound, to values that match. -/
def MatchesMap (p : Pairing) (m m' : PropertyMap Value) : Prop :=
  ∀ key, Option.Rel p.Matches (m.get? key) (m'.get? key)

/-- The objects are the same but for the identities. -/
structure MatchesObject (p : Pairing) (cell cell' : ObjectCell) : Prop where
  properties : p.MatchesMap cell.properties cell'.properties
  bytes? : cell'.bytes? = cell.bytes?

/-- The functions are the same but for the identities. -/
structure MatchesFunction (p : Pairing) (cell cell' : FunctionCell) : Prop where
  properties : p.MatchesMap cell.properties cell'.properties
  name : cell'.name = cell.name
  call? : cell'.call? = cell.call?
  construct? : cell'.construct? = cell.construct?

/-- What goes together in the heaps is the same but for the identities. -/
structure Pairs (p : Pairing) (h h' : Heap) : Prop where
  objects : Linked p.object p.MatchesObject h.objects h'.objects
  functions : Linked p.function p.MatchesFunction h.functions h'.functions
  symbols : Linked p.symbol Eq h.symbols h'.symbols

variable {p p' p'' : Pairing} {h h' k k' l l' : Heap} {v v' w w' target target' : Value}
  {m m' : PropertyMap Value} {key : String}

namespace Matches

theorem toNumber (hv : p.Matches v v') : v'.toNumber = v.toNumber := by
  cases hv <;> rfl

theorem toByte (hv : p.Matches v v') : v'.toByte = v.toByte := by
  rw [Value.toByte, hv.toNumber, Value.toByte]

end Matches

theorem MatchesMap.empty (p : Pairing) : p.MatchesMap .empty .empty :=
  fun _ => .none

theorem MatchesMap.insert (hm : p.MatchesMap m m') (hv : p.Matches v v') (key : String) :
    p.MatchesMap (m.insert key v) (m'.insert key v') := by
  intro k
  rw [PropertyMap.get?_insert, PropertyMap.get?_insert]
  split
  · exact .some hv
  · exact hm k

theorem MatchesMap.getD (hm : p.MatchesMap m m') (key : String) :
    p.Matches ((m.get? key).getD .undefined) ((m'.get? key).getD .undefined) := by
  have hkey := hm key
  generalize m.get? key = v?, m'.get? key = v?' at hkey ⊢
  cases hkey with
  | some hv => exact hv
  | none => exact .undefined

theorem MatchesMap.exists_matches (hm : p.MatchesMap m m') (hget : m.get? key = some v) :
    ∃ v', p.Matches v v' := by
  have hkey := hm key
  rw [hget] at hkey
  generalize m'.get? key = v?' at hkey
  cases hkey with | some hv => exact ⟨_, hv⟩

namespace MatchesObject

variable {cell cell' : ObjectCell} (hc : p.MatchesObject cell cell')

include hc

theorem get (key : String) : p.Matches (cell.get key) (cell'.get key) := by
  have hown := hc.properties.getD key
  rw [ObjectCell.get, ObjectCell.get, hc.bytes?]
  split
  · exact hown
  · split
    · exact .number _
    · split
      · split
        · exact .number _
        · exact .undefined
      · exact hown

theorem set? (hv : p.Matches v v') (key : String) :
    Option.Rel p.MatchesObject (cell.set? key v) (cell'.set? key v') := by
  have hwritten := hc.properties.insert hv key
  simp only [ObjectCell.set?, hc.bytes?, hv.toByte]
  split
  · exact .some ⟨hwritten, rfl⟩
  · split
    · exact .none
    · split
      · split
        · exact .some ⟨hc.properties, rfl⟩
        · exact .none
      · exact .some ⟨hwritten, rfl⟩

end MatchesObject

namespace MatchesFunction

variable {cell cell' : FunctionCell} (hc : p.MatchesFunction cell cell')

include hc

theorem get (key : String) : p.Matches (cell.get key) (cell'.get key) := by
  rw [FunctionCell.get, FunctionCell.get, hc.name]
  split
  · exact .string _
  · exact hc.properties.getD key

theorem set? (hv : p.Matches v v') (key : String) :
    Option.Rel p.MatchesFunction (cell.set? key v) (cell'.set? key v') := by
  rw [FunctionCell.set?, FunctionCell.set?]
  split
  · exact .none
  · exact .some ⟨hc.properties.insert hv key, hc.name, hc.call?, hc.construct?⟩

end MatchesFunction

/-! ## Growing -/

/-- The pairing grows by fresh things alone, while the heaps change to others; what the first
    heap has outside of the pairing is left alone. -/
structure Advances (p p' : Pairing) (h h' k k' : Heap) : Prop where
  objects : Grows p.object p'.object h.objects h'.objects k.objects k'.objects
  functions : Grows p.function p'.function h.functions h'.functions k.functions k'.functions
  symbols : Grows p.symbol p'.symbol h.symbols h'.symbols k.symbols k'.symbols

theorem Advances.refl (p : Pairing) (h h' : Heap) : p.Advances p h h' h h' :=
  ⟨.refl _ _ _, .refl _ _ _, .refl _ _ _⟩

theorem Advances.trans (ha : p.Advances p' h h' k k') (ha' : p'.Advances p'' k k' l l') :
    p.Advances p'' h h' l l' :=
  ⟨ha.objects.trans ha'.objects, ha.functions.trans ha'.functions, ha.symbols.trans ha'.symbols⟩

namespace Advances

variable (ha : p.Advances p' h h' k k')

include ha

theorem matchesValue (hv : p.Matches v v') : p'.Matches v v' := by
  cases hv with
  | symbol hid => exact .symbol (ha.symbols.mono hid)
  | object hid => exact .object (ha.objects.mono hid)
  | function hid => exact .function (ha.functions.mono hid)
  | undefined => exact .undefined
  | null => exact .null
  | bool b => exact .bool b
  | number x => exact .number x
  | string s => exact .string s

theorem matchesMap (hm : p.MatchesMap m m') : p'.MatchesMap m m' := by
  intro key
  have hkey := hm key
  generalize m.get? key = v?, m'.get? key = v?' at hkey ⊢
  cases hkey with
  | some hv => exact .some (ha.matchesValue hv)
  | none => exact .none

theorem matchesObject {cell cell' : ObjectCell} (hc : p.MatchesObject cell cell') :
    p'.MatchesObject cell cell' :=
  ⟨ha.matchesMap hc.properties, hc.bytes?⟩

theorem matchesFunction {cell cell' : FunctionCell} (hc : p.MatchesFunction cell cell') :
    p'.MatchesFunction cell cell' :=
  ⟨ha.matchesMap hc.properties, hc.name, hc.call?, hc.construct?⟩

end Advances

/-- The pairings have nothing of the first heap in common. -/
structure Apart (p q : Pairing) : Prop where
  object : ∀ i j j', p.object i j → ¬q.object i j'
  function : ∀ i j j', p.function i j → ¬q.function i j'
  symbol : ∀ i j j', p.symbol i j → ¬q.symbol i j'

theorem Apart.none (q : Pairing) : none.Apart q :=
  ⟨fun _ _ _ => False.elim, fun _ _ _ => False.elim, fun _ _ _ => False.elim⟩

section

variable {q : Pairing} (ha : p.Advances p' h h' k k') (hq : q.Pairs h l) (hpq : p.Apart q)

include ha hq hpq

/-- An object that is paired apart from a pairing that grows is left alone. -/
theorem Advances.object_eq {id : ObjectId} {j : Nat} (hid : q.object id.index j) :
    k.object id = h.object id := by
  have hcell := ha.objects.getElem?_eq hq.objects hpq.object hid
  simp only [Heap.object, Array.getD_eq_getD_getElem?, hcell]

theorem Advances.function_eq {id : FunctionId} {j : Nat} (hid : q.function id.index j) :
    k.function id = h.function id := by
  have hcell := ha.functions.getElem?_eq hq.functions hpq.function hid
  simp only [Heap.function, Array.getD_eq_getD_getElem?, hcell]

/-- What is paired apart from a pairing that grows stays paired, and apart. -/
theorem Advances.spares : q.Pairs k l ∧ p'.Apart q := by
  obtain ⟨hobjects, hobject⟩ := ha.objects.spares hq.objects hpq.object
  obtain ⟨hfunctions, hfunction⟩ := ha.functions.spares hq.functions hpq.function
  obtain ⟨hsymbols, hsymbol⟩ := ha.symbols.spares hq.symbols hpq.symbol
  exact ⟨⟨hobjects, hfunctions, hsymbols⟩, hobject, hfunction, hsymbol⟩

end

theorem Apart.symm {q : Pairing} (hpq : p.Apart q) : q.Apart p :=
  ⟨fun i j j' hq hp => hpq.object i j' j hp hq, fun i j j' hq hp => hpq.function i j' j hp hq,
    fun i j j' hq hp => hpq.symbol i j' j hp hq⟩

/-- The heaps advance to heaps that are paired again, and the results are related. -/
def Together {α β : Type} (p : Pairing) (Q : Pairing → α → β → Prop) (h h' : Heap)
    (o : Except Fault α × Heap) (o' : Except Fault β × Heap) : Prop :=
  ∃ p', p.Advances p' h h' o.2 o'.2 ∧ p'.Pairs o.2 o'.2 ∧ Alike (Q p') o.1 o'.1

/-! ## Nothing paired -/

theorem Pairs.none (h h' : Heap) : none.Pairs h h' :=
  ⟨⟨False.elim, False.elim⟩, ⟨False.elim, False.elim⟩, ⟨False.elim, False.elim⟩⟩

/-- What is made of nothing leaves all that was there, in both heaps. -/
theorem Pairs.of_fresh {q : Pairing} (hq : q.Pairs h h) (ha : Pairing.none.Advances p h h k k) :
    q.Pairs k k where
  objects := hq.objects.of_getElem?_eq
    (fun _ _ hij => ha.objects.kept (hq.objects.lt_size hij).1 fun _ => id)
    (fun _ _ hij => ha.objects.kept (hq.objects.lt_size hij).2 fun _ => id)
  functions := hq.functions.of_getElem?_eq
    (fun _ _ hij => ha.functions.kept (hq.functions.lt_size hij).1 fun _ => id)
    (fun _ _ hij => ha.functions.kept (hq.functions.lt_size hij).2 fun _ => id)
  symbols := hq.symbols.of_getElem?_eq
    (fun _ _ hij => ha.symbols.kept (hq.symbols.lt_size hij).1 fun _ => id)
    (fun _ _ hij => ha.symbols.kept (hq.symbols.lt_size hij).2 fun _ => id)

/-! ## Reading -/

namespace Pairs

variable (hp : p.Pairs h h')

include hp

theorem object {id id' : ObjectId} (hid : p.object id.index id'.index) :
    p.MatchesObject (h.object id) (h'.object id') :=
  hp.objects.getD hid _ _

theorem function {id id' : FunctionId} (hid : p.function id.index id'.index) :
    p.MatchesFunction (h.function id) (h'.function id') :=
  hp.functions.getD hid _ _

theorem description? {id id' : SymbolId} (hid : p.symbol id.index id'.index) :
    h'.description? id' = h.description? id :=
  (hp.symbols.getD hid _ _).symm

theorem alike_get (ht : p.Matches target target') (key : String) :
    Alike p.Matches (h.get target key) (h'.get target' key) := by
  cases ht with
  | object hid => exact .ok ((hp.object hid).get key)
  | function hid => exact .ok ((hp.function hid).get key)
  | _ => exact .error _

theorem bytes? (hv : p.Matches v v') : h'.bytes? v' = h.bytes? v := by
  cases hv with
  | object hid => exact (hp.object hid).bytes?
  | _ => rfl

theorem callBehaviour (hv : p.Matches v v') : h'.callBehaviour v' = h.callBehaviour v := by
  cases hv with
  | function hid => simp only [Heap.callBehaviour, (hp.function hid).call?]
  | _ => rfl

theorem constructBehaviour (hv : p.Matches v v') :
    h'.constructBehaviour v' = h.constructBehaviour v := by
  cases hv with
  | function hid => simp only [Heap.constructBehaviour, (hp.function hid).construct?]
  | _ => rfl

/-! ## Writing -/

theorem putObject {id id' : ObjectId} {cell cell' : ObjectCell}
    (hid : p.object id.index id'.index) (hc : p.MatchesObject cell cell') :
    p.Advances p h h' (h.putObject id cell) (h'.putObject id' cell') ∧
      p.Pairs (h.putObject id cell) (h'.putObject id' cell') :=
  ⟨⟨.set hid _ _ _ _, .refl _ _ _, .refl _ _ _⟩, hp.objects.set hid hc, hp.functions, hp.symbols⟩

theorem putFunction {id id' : FunctionId} {cell cell' : FunctionCell}
    (hid : p.function id.index id'.index) (hc : p.MatchesFunction cell cell') :
    p.Advances p h h' (h.putFunction id cell) (h'.putFunction id' cell') ∧
      p.Pairs (h.putFunction id cell) (h'.putFunction id' cell') :=
  ⟨⟨.refl _ _ _, .set hid _ _ _ _, .refl _ _ _⟩, hp.objects, hp.functions.set hid hc, hp.symbols⟩

/-- A property written in both heaps. -/
theorem alike_setOf {id id' : ObjectId} (hid : p.object id.index id'.index)
    (hv : p.Matches v v') (key : String) :
    (h.setOf id key v).1 = (h'.setOf id' key v').1 ∧
      p.Advances p h h' (h.setOf id key v).2 (h'.setOf id' key v').2 ∧
      p.Pairs (h.setOf id key v).2 (h'.setOf id' key v').2 := by
  have hcell := (hp.object hid).set? hv key
  rw [Heap.setOf, Heap.setOf]
  generalize (h.object id).set? key v = cell?, (h'.object id').set? key v' = cell?' at hcell
  cases hcell with
  | some hc => exact ⟨rfl, hp.putObject hid hc⟩
  | none => exact ⟨rfl, .refl p h h', hp⟩

theorem alike_set (ht : p.Matches target target') (hv : p.Matches v v') (key : String) :
    Alike (fun o o' => o.1 = o'.1 ∧ p.Advances p h h' o.2 o'.2 ∧ p.Pairs o.2 o'.2)
      (h.set target key v) (h'.set target' key v') := by
  cases ht with
  | object hid => exact .ok (hp.alike_setOf hid hv key)
  | @function id id' hid =>
    have hcell := (hp.function hid).set? hv key
    simp only [Heap.set]
    generalize (h.function id).set? key v = cell?, (h'.function id').set? key v' = cell?' at hcell
    cases hcell with
    | some hc => exact .ok ⟨rfl, hp.putFunction hid hc⟩
    | none => exact .ok ⟨rfl, .refl p h h', hp⟩
  | _ => exact .error _

/-! ## Making -/

theorem together_allocObject {cell cell' : ObjectCell} (hc : p.MatchesObject cell cell') :
    p.Together (fun p id id' => p.object id.index id'.index) h h'
      (.ok (h.allocObject cell).1, (h.allocObject cell).2)
      (.ok (h'.allocObject cell').1, (h'.allocObject cell').2) := by
  let p' : Pairing := { p with object := linkLast p.object h.objects h'.objects }
  have ha : p.Advances p' h h' (h.allocObject cell).2 (h'.allocObject cell').2 :=
    ⟨.push _ _ _ _ _, .refl _ _ _, .refl _ _ _⟩
  refine ⟨p', ha, ⟨?_, ?_, hp.symbols⟩, .ok (.inr ⟨rfl, rfl⟩)⟩
  · exact (hp.objects.push hc).imp fun _ _ => ha.matchesObject
  · exact hp.functions.imp fun _ _ => ha.matchesFunction

theorem together_newFunction (name : String) (call? construct? : Option Native) :
    p.Together (fun p id id' => p.function id.index id'.index) h h'
      (.ok (h.newFunction name call? construct?).1, (h.newFunction name call? construct?).2)
      (.ok (h'.newFunction name call? construct?).1, (h'.newFunction name call? construct?).2) := by
  let p' : Pairing := { p with function := linkLast p.function h.functions h'.functions }
  have ha : p.Advances p' h h' (h.newFunction name call? construct?).2
      (h'.newFunction name call? construct?).2 :=
    ⟨.refl _ _ _, .push _ _ _ _ _, .refl _ _ _⟩
  refine ⟨p', ha, ⟨?_, ?_, hp.symbols⟩, .ok (.inr ⟨rfl, rfl⟩)⟩
  · exact hp.objects.imp fun _ _ => ha.matchesObject
  · exact (hp.functions.push ⟨.empty p, rfl, rfl, rfl⟩).imp fun _ _ => ha.matchesFunction

theorem together_newSymbol (description? : Option String) :
    p.Together (fun p id id' => p.symbol id.index id'.index) h h'
      (.ok (h.newSymbol description?).1, (h.newSymbol description?).2)
      (.ok (h'.newSymbol description?).1, (h'.newSymbol description?).2) := by
  let p' : Pairing := { p with symbol := linkLast p.symbol h.symbols h'.symbols }
  have ha : p.Advances p' h h' (h.newSymbol description?).2 (h'.newSymbol description?).2 :=
    ⟨.refl _ _ _, .refl _ _ _, .push _ _ _ _ _⟩
  refine ⟨p', ha, ⟨?_, ?_, hp.symbols.push rfl⟩, .ok (.inr ⟨rfl, rfl⟩)⟩
  · exact hp.objects.imp fun _ _ => ha.matchesObject
  · exact hp.functions.imp fun _ _ => ha.matchesFunction

end Pairs

end Pairing

end ValueBridge
