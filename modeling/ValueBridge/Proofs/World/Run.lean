import Mathlib.Logic.Function.Basic
import ValueBridge.Engine.Standard
import ValueBridge.Proofs.Instance.Run

/-!
# Two guests of one host

A *world* is a host with two guests, each with a bridge of its own over a realm of its own. All
that they share is the heap of the host. Each of the two *sides* moves in turn, in any order
(`World.run`): its guest calls an import, does what it wants to its memory, or has the memory
bound or not.

What a side *reaches* are the values in its table, its global object and its runtime object,
and all that is found in the properties of what it reaches (`World.Reaches`).
-/

namespace ValueBridge

/-- The two sides. -/
inductive Side
  | left
  | right
  deriving DecidableEq

namespace Side

/-- The side across. -/
def other : Side → Side
  | left => right
  | right => left

theorem other_ne (side : Side) : side.other ≠ side := by
  cases side <;> decide

theorem other_other (side : Side) : side.other.other = side := by
  cases side <;> rfl

/-- What holds of a side and of the one across holds of both. -/
theorem forall_of {P : Side → Prop} (side : Side) (h : P side) (h' : P side.other) :
    ∀ side', P side' := by
  cases side with
  | left => rintro (_ | _) <;> assumption
  | right => rintro (_ | _) <;> assumption

end Side

/-- A guest with its bridge, but for the heap. -/
structure Party where
  bridge : Bridge
  table : Table
  bytes : Array UInt8
  bound : Bool
  log : Array Event

/-- A host with two guests. -/
structure World where
  heap : Heap
  party : Side → Party

/-- What a side does. -/
inductive Move
  /-- A call of an import. -/
  | call (c : Call)
  /-- Whatever the guest does to its memory, which has these bytes afterwards. -/
  | guest (bytes : Array UInt8)
  | bind
  | unbind

/-- The move as an operation on an instance. -/
def Move.operation : Move → Operation
  | .call c => .call .standard c
  | .guest bytes => .guest bytes
  | .bind => .bind Instance.memoryExport
  | .unbind => .unbind

namespace Party

/-- A guest with a fresh bridge over a fresh realm, and the heap with both. -/
def create (config : Config) (bytes : Array UInt8) (h : Heap) : Party × Heap :=
  let (realm, h) := Realm.create h
  let (b, h) := Bridge.create config realm h
  (⟨b, b.initialTable, bytes, false, #[]⟩, h)

/-- The party as an instance leaves it. -/
def resume (party : Party) (i : Instance) : Party :=
  ⟨party.bridge, i.table, i.bytes, i.bound, i.log⟩

end Party

namespace World

/-- The world of two fresh guests, over a heap that has nothing to do with them. -/
def create (config : Side → Config) (bytes : Side → Array UInt8) (h : Heap) : World :=
  let (left, h) := Party.create (config .left) (bytes .left) h
  let (right, h) := Party.create (config .right) (bytes .right) h
  ⟨h, fun | .left => left | .right => right⟩

/-- What a side has, as an instance. -/
def view (w : World) (side : Side) : Instance :=
  let party := w.party side
  ⟨w.heap, party.table, party.bytes, party.bound, party.log⟩

/-- The world after a side moved. -/
def next (w : World) (move : Side × Move) : World :=
  let i := (w.view move.1).next move.2.operation
  ⟨i.heap, Function.update w.party move.1 ((w.party move.1).resume i)⟩

/-- The world after moves in order. -/
def run (w : World) (moves : List (Side × Move)) : World :=
  moves.foldl next w

/-- What a side is answered by its move, if this is a call. -/
def answer (w : World) (move : Side × Move) : Option (Except BridgeFault Answer) :=
  match move.2 with
  | .call c => some ((w.view move.1).perform (c.perform .standard)).1
  | _ => none

/-- What a side is answered by its moves, in order. -/
def answers (side : Side) : World → List (Side × Move) → List (Option (Except BridgeFault Answer))
  | _, [] => []
  | w, move :: moves =>
    if move.1 = side then w.answer move :: answers side (w.next move) moves
    else answers side (w.next move) moves

/-- The moves of a side. -/
def movesOf (side : Side) (moves : List (Side × Move)) : List (Side × Move) :=
  moves.filter fun move => move.1 = side

/-- The side comes to the value from its table, its global object or its runtime object. -/
inductive Reaches (w : World) (side : Side) : Value → Prop
  | slot {id : UInt32} {v : Value} : (w.party side).table.load id = .ok v → Reaches w side v
  | global : Reaches w side (.object (w.party side).bridge.realm.global)
  | runtime : Reaches w side (.object (w.party side).bridge.runtime)
  | object {id : ObjectId} {key : String} {v : Value} : Reaches w side (.object id) →
      (w.heap.object id).properties.get? key = some v → Reaches w side v
  | function {id : FunctionId} {key : String} {v : Value} : Reaches w side (.function id) →
      (w.heap.function id).properties.get? key = some v → Reaches w side v

variable (w : World) (move : Side × Move)

@[simp] theorem party_next_self :
    (w.next move).party move.1 =
      (w.party move.1).resume ((w.view move.1).next move.2.operation) :=
  Function.update_self ..

theorem party_next_of_ne {side : Side} (h : side ≠ move.1) :
    (w.next move).party side = w.party side :=
  Function.update_of_ne h ..

/-- A side sees what its move does. -/
theorem view_next_self :
    (w.next move).view move.1 = (w.view move.1).next move.2.operation := by
  rw [view, party_next_self]
  rfl

/-- The side across sees the heap of the host alone change. -/
theorem view_next_of_ne {side : Side} (h : side ≠ move.1) :
    (w.next move).view side = { w.view side with heap := (w.next move).heap } := by
  rw [view, party_next_of_ne w move h]
  rfl

/-! ## Runs -/

theorem run_append (moves moves' : List (Side × Move)) :
    w.run (moves ++ moves') = (w.run moves).run moves' :=
  List.foldl_append

theorem answers_cons (side : Side) (moves : List (Side × Move)) :
    answers side w (move :: moves) =
      (if move.1 = side then [w.answer move] else []) ++ answers side (w.next move) moves := by
  rw [answers]
  split <;> rfl

theorem answers_append (side : Side) (moves moves' : List (Side × Move)) :
    answers side w (moves ++ moves') =
      answers side w moves ++ answers side (w.run moves) moves' := by
  induction moves generalizing w with
  | nil => rfl
  | cons move moves ih =>
    rw [List.cons_append, answers_cons, ih, answers_cons, List.append_assoc]
    rfl

theorem movesOf_cons (side : Side) (moves : List (Side × Move)) :
    movesOf side (move :: moves) = movesOf side [move] ++ movesOf side moves := by
  rw [movesOf, ← List.singleton_append, List.filter_append]
  rfl

theorem movesOf_self : movesOf move.1 [move] = [move] :=
  List.filter_cons_of_pos (decide_eq_true rfl)

theorem movesOf_of_ne {side : Side} (h : move.1 ≠ side) : movesOf side [move] = [] :=
  List.filter_cons_of_neg (by simpa using h)

end World

end ValueBridge
