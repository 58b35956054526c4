import ValueBridge.Proofs.Instance.Pairing
import ValueBridge.Proofs.World.Run

/-!
# The guests of one host are apart

Whatever two guests with bridges over fresh realms do, neither reaches an object or a function
that the other one reaches, and a move of the one changes nothing that the other one reaches.
So neither can tell whether the other one is there (`World.noninterference`).

For each side there is a second world, in which that side alone moves. The side *follows*: what
it has and reaches in the first world is paired with what it has and reaches in the second one
(`World.Follows`), and stays so by its own moves (`Follows.next`). The pairings of the sides are
apart (`World.Separated`), so that the moves of one side leave what the other one has.
-/

namespace ValueBridge

open Pairing hiding none

/-! ## Moves -/

/-- A move leaves instances in step. -/
theorem Pairing.PairsInstance.next {p : Pairing} {i i' : Instance} (hi : p.PairsInstance i i')
    (move : Move) :
    ∃ p', p.Advances p' i.heap i'.heap (i.next move.operation).heap
        (i'.next move.operation).heap ∧
      p'.PairsInstance (i.next move.operation) (i'.next move.operation) := by
  cases move with
  | call c => exact (hi.call c).2
  | guest bytes => exact ⟨p, .refl .., hi.heap, hi.table, rfl, hi.bound, hi.log⟩
  | bind => exact ⟨p, .refl .., hi.heap, hi.table, hi.bytes, rfl, hi.log⟩
  | unbind => exact ⟨p, .refl .., hi.heap, hi.table, hi.bytes, rfl, hi.log⟩

/-! ## Fresh guests -/

/-- Whatever the heap, all that a fresh guest has is fresh. -/
theorem Party.exists_pairs_create (config : Config) (bytes : Array UInt8) (h : Heap) :
    ∃ p : Pairing,
      Pairing.none.Advances p h h (Party.create config bytes h).2 (Party.create config bytes h).2 ∧
      p.Pairs (Party.create config bytes h).2 (Party.create config bytes h).2 ∧
      p.PairsBridge (Party.create config bytes h).1.bridge (Party.create config bytes h).1.bridge ∧
      p.MatchesTable (Party.create config bytes h).1.table
        (Party.create config bytes h).1.table := by
  -- What is known of the realm and the bridge is kept, and not what they come to.
  have hrealm := (Pairs.none h h).createRealm
  rw [Party.create]
  generalize Realm.create h = o at hrealm ⊢
  obtain ⟨p, ha, hp, hr⟩ := hrealm
  cases hr with
  | ok hr =>
    have hbridge := hp.createBridge config hr
    dsimp only
    generalize Bridge.create config o.1 o.2 = o' at hbridge ⊢
    obtain ⟨p', ha', hp', hb⟩ := hbridge
    cases hb with
    | ok hb => exact ⟨p', ha.trans ha', hp', hb, hb.initialTable⟩

namespace World

variable {p : Pairing} {side : Side} {w alone : World}

/-! ## A side and its second world -/

/-- What the side has in the first world is what it has in the second one. -/
structure Follows (p : Pairing) (side : Side) (w alone : World) : Prop where
  bridge : p.PairsBridge (w.party side).bridge (alone.party side).bridge
  view : p.PairsInstance (w.view side) (alone.view side)

namespace Follows

variable (hf : Follows p side w alone)

include hf

/-- All that the side reaches is paired. -/
theorem reaches {v : Value} (hv : w.Reaches side v) : ∃ v', p.Matches v v' := by
  induction hv with
  | slot hload => exact hf.view.table.exists_matches hload
  | global => exact ⟨_, .object hf.bridge.global⟩
  | runtime => exact ⟨_, .object hf.bridge.runtime⟩
  | object _ hget ih =>
    obtain ⟨_, hid⟩ := ih
    cases hid with
    | object hid => exact (hf.view.heap.object hid).properties.exists_matches hget
  | function _ hget ih =>
    obtain ⟨_, hid⟩ := ih
    cases hid with
    | function hid => exact (hf.view.heap.function hid).properties.exists_matches hget

/-- The answers are the same in both worlds. -/
theorem answer_eq (move : Move) : w.answer (side, move) = alone.answer (side, move) := by
  cases move with
  | call c => exact congrArg some (hf.view.call c).1.symm
  | _ => rfl

/-- A side moves in both worlds. -/
theorem next (move : Move) :
    ∃ p', p.Advances p' w.heap alone.heap (w.next (side, move)).heap
        (alone.next (side, move)).heap ∧
      Follows p' side (w.next (side, move)) (alone.next (side, move)) := by
  obtain ⟨p', ha, hview⟩ := hf.view.next move
  refine ⟨p', ha, ?_, ?_⟩
  · rw [w.party_next_self (side, move), alone.party_next_self (side, move)]
    exact ha.pairsBridge hf.bridge
  · rw [w.view_next_self (side, move), alone.view_next_self (side, move)]
    exact hview

/-- The side across moves in the first world alone. -/
theorem spared (move : Side × Move) (hside : side ≠ move.1)
    (hp : p.Pairs (w.next move).heap alone.heap) : Follows p side (w.next move) alone where
  bridge := by
    rw [w.party_next_of_ne move hside]
    exact hf.bridge
  view := by
    rw [w.view_next_of_ne move hside]
    exact ⟨hp, hf.view.table, hf.view.bytes, hf.view.bound, hf.view.log⟩

end Follows

/-! ## Both sides -/

/-- Each side follows in a world of its own, and the sides have nothing in common. -/
structure Separated (p : Side → Pairing) (w : World) (alone : Side → World) : Prop where
  follows : ∀ side, Follows (p side) side w (alone side)
  apart : ∀ side, (p side).Apart (p side.other)

/-- Fresh guests are separated: what each of them has is fresh. -/
theorem exists_separated_create (config : Side → Config) (bytes : Side → Array UInt8) (h : Heap) :
    ∃ p, Separated p (create config bytes h) fun _ => create config bytes h := by
  obtain ⟨left, _, hleft, hbridge, htable⟩ :=
    Party.exists_pairs_create (config .left) (bytes .left) h
  rw [create]
  generalize Party.create (config .left) (bytes .left) h = party at *
  obtain ⟨right, ha, hright, hbridge', htable'⟩ :=
    Party.exists_pairs_create (config .right) (bytes .right) party.2
  dsimp only
  generalize Party.create (config .right) (bytes .right) party.2 = party' at *
  -- The right one was made when the left one was there already.
  have hapart : right.Apart left := (ha.spares hleft (.none left)).2
  refine ⟨fun side => side.casesOn left right, Side.left.forall_of ?_ ?_,
    Side.left.forall_of ?_ ?_⟩
  · exact ⟨hbridge, hleft.of_fresh ha, htable, rfl, rfl, rfl⟩
  · exact ⟨hbridge', hright, htable', rfl, rfl, rfl⟩
  · exact hapart.symm
  · exact hapart

namespace Separated

variable {p : Side → Pairing} {w : World} {alone : Side → World} (hs : Separated p w alone)

include hs

/-- A side moves, in the world of both and in its own. -/
theorem next (move : Side × Move) :
    ∃ p', Separated p' (w.next move) fun side => (alone side).run (movesOf side [move]) := by
  obtain ⟨mover, move⟩ := move
  obtain ⟨p', ha, hf⟩ := (hs.follows mover).next move
  have hother := hs.follows mover.other
  obtain ⟨hpairs, hapart⟩ := ha.spares hother.view.heap (hs.apart mover)
  have hother' := hother.spared (mover, move) mover.other_ne hpairs
  -- The pairing of the mover grows alone.
  refine ⟨Function.update p mover p', mover.forall_of ?_ ?_, mover.forall_of ?_ ?_⟩
  · rw [Function.update_self, movesOf_self (mover, move)]
    exact hf
  · rw [Function.update_of_ne mover.other_ne, movesOf_of_ne (mover, move) mover.other_ne.symm]
    exact hother'
  · rw [Function.update_self, Function.update_of_ne mover.other_ne]
    exact hapart
  · rw [mover.other_other, Function.update_self, Function.update_of_ne mover.other_ne]
    exact hapart.symm

/-- The sides move, each of them in its own world as well. -/
theorem run (moves : List (Side × Move)) :
    ∃ p', Separated p' (w.run moves) fun side => (alone side).run (movesOf side moves) := by
  induction moves generalizing p w alone with
  | nil => exact ⟨p, hs⟩
  | cons move moves ih =>
    obtain ⟨_, hs'⟩ := hs.next move
    obtain ⟨p', hrun⟩ := ih hs'
    refine ⟨p', fun side => ?_, hrun.apart⟩
    rw [movesOf_cons move side moves, run_append]
    exact hrun.follows side

/-- The answers of a side are those of its own world. -/
theorem answers_eq (moves : List (Side × Move)) (side : Side) :
    answers side w moves = answers side (alone side) (movesOf side moves) := by
  induction moves generalizing p w alone with
  | nil => rfl
  | cons move moves ih =>
    obtain ⟨_, hs'⟩ := hs.next move
    rw [answers_cons, ih hs', movesOf_cons move side moves, answers_append]
    congr 1
    by_cases hside : move.1 = side
    · subst hside
      rw [if_pos rfl, movesOf_self, answers_cons, if_pos rfl, (hs.follows _).answer_eq move.2]
      rfl
    · rw [if_neg hside, movesOf_of_ne move hside]
      rfl

/-- Nothing that one side reaches is reached by the other. -/
theorem disjoint {v : Value} (side : Side) (hv : w.Reaches side v)
    (hv' : w.Reaches side.other v) : v.object? = none ∧ v.function? = none := by
  obtain ⟨_, hmatches⟩ := (hs.follows side).reaches hv
  obtain ⟨_, hmatches'⟩ := (hs.follows side.other).reaches hv'
  cases hmatches with
  | object hid =>
    cases hmatches' with
    | object hid' => exact ((hs.apart side).object _ _ _ hid hid').elim
  | function hid =>
    cases hmatches' with
    | function hid' => exact ((hs.apart side).function _ _ _ hid hid').elim
  | _ => exact ⟨rfl, rfl⟩

/-- A move leaves the objects and the functions that the side across reaches. -/
theorem kept (side : Side) (move : Move) :
    (∀ id, w.Reaches side.other (.object id) →
      (w.next (side, move)).heap.object id = w.heap.object id) ∧
    ∀ id, w.Reaches side.other (.function id) →
      (w.next (side, move)).heap.function id = w.heap.function id := by
  obtain ⟨_, ha, _⟩ := (hs.follows side).next move
  have hother := hs.follows side.other
  refine ⟨fun id hid => ?_, fun id hid => ?_⟩
  · obtain ⟨_, hmatches⟩ := hother.reaches hid
    cases hmatches with
    | object hid => exact ha.object_eq hother.view.heap (hs.apart side) hid
  · obtain ⟨_, hmatches⟩ := hother.reaches hid
    cases hmatches with
    | function hid => exact ha.function_eq hother.view.heap (hs.apart side) hid

end Separated

/-- However the moves of two fresh guests are interleaved, no object and no function is reached by
    both of them. A move of the one changes neither what the other has nor an object or a
    function that the other reaches. Each of them is answered as if the other one had not moved,
    and has the same statistics, bytes and events. -/
theorem noninterference (config : Side → Config) (bytes : Side → Array UInt8) (h : Heap)
    (moves : List (Side × Move)) :
    let start := create config bytes h
    let w := start.run moves
    (∀ side v, w.Reaches side v → w.Reaches side.other v →
      v.object? = none ∧ v.function? = none) ∧
    (∀ side move, (w.next (side, move)).party side.other = w.party side.other ∧
      (∀ id, w.Reaches side.other (.object id) →
        (w.next (side, move)).heap.object id = w.heap.object id) ∧
      ∀ id, w.Reaches side.other (.function id) →
        (w.next (side, move)).heap.function id = w.heap.function id) ∧
    ∀ side,
      let alone := start.run (movesOf side moves)
      answers side start moves = answers side start (movesOf side moves) ∧
      (w.party side).table.stats = (alone.party side).table.stats ∧
      (w.party side).bytes = (alone.party side).bytes ∧
      (w.party side).bound = (alone.party side).bound ∧
      (w.party side).log = (alone.party side).log := by
  intro start w
  obtain ⟨_, hstart⟩ := exists_separated_create config bytes h
  obtain ⟨_, hw⟩ := hstart.run moves
  refine ⟨fun side v => hw.disjoint side, fun side move => ⟨?_, hw.kept side move⟩, fun side => ?_⟩
  · exact w.party_next_of_ne (side, move) side.other_ne
  · have hview := (hw.follows side).view
    exact ⟨hstart.answers_eq moves side, hview.table.stats.symm, hview.bytes.symm,
      hview.bound.symm, hview.log.symm⟩

end World

end ValueBridge
