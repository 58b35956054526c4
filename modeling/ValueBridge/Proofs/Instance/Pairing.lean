import ValueBridge.Proofs.Import.Pairing
import ValueBridge.Proofs.Instance.Run

/-!
# Instances in step

Realms and bridges that are made in paired heaps go together (`Pairing.Pairs.createRealm`,
`Pairing.Pairs.createBridge`), and so do the tables that they start with.

Two instances are *in step* by a pairing if they are the same but for the identities
(`Pairing.PairsInstance`). A call is answered alike in both and leaves them in step
(`Pairing.PairsInstance.call`).
-/

namespace ValueBridge.Pairing

open Bridge

variable {p p' : Pairing} {h h' : Heap}

/-! ## Fresh realms and bridges -/

/-- Constructors are made in both heaps, for global objects that go together. -/
theorem Pairs.install (hp : p.Pairs h h') (r r' : Realm)
    (hr : p.object r.global.index r'.global.index) (b : Builtin) :
    ∃ p', p.Advances p' h h' (r.install h b) (r'.install h' b) ∧
      p'.Pairs (r.install h b) (r'.install h' b) := by
  obtain ⟨p', ha, hp', hid⟩ := hp.together_newFunction b.name b.call? b.construct?
  cases hid with
  | ok hid =>
    obtain ⟨_, ha', hp'⟩ := hp'.alike_setOf (ha.objects.mono hr) (.function hid) b.name
    exact ⟨p', ha.trans ha', hp'⟩

theorem Pairs.foldl_install (hp : p.Pairs h h') (r r' : Realm)
    (hr : p.object r.global.index r'.global.index) (bs : List Builtin) :
    ∃ p', p.Advances p' h h' (bs.foldl r.install h) (bs.foldl r'.install h') ∧
      p'.Pairs (bs.foldl r.install h) (bs.foldl r'.install h') := by
  induction bs generalizing p h h' with
  | nil => exact ⟨p, .refl p h h', hp⟩
  | cons b bs ih =>
    obtain ⟨p', ha, hp'⟩ := hp.install r r' hr b
    obtain ⟨p'', ha', hp''⟩ := ih hp' (ha.objects.mono hr)
    exact ⟨p'', ha.trans ha', hp''⟩

theorem Pairs.createRealm (hp : p.Pairs h h') :
    p.Together (fun p r r' => p.object r.global.index r'.global.index) h h'
      (.ok (Realm.create h).1, (Realm.create h).2)
      (.ok (Realm.create h').1, (Realm.create h').2) := by
  obtain ⟨p', ha, hp', hid⟩ := Standard.together_newObject hp
  cases hid with
  | ok hid =>
    rw [Realm.create, Realm.create]
    -- Of the constructors it only matters that both realms get the same ones.
    generalize Realm.builtins = bs
    obtain ⟨p'', ha', hp''⟩ := hp'.foldl_install ⟨h.newObject.1⟩ ⟨h'.newObject.1⟩ hid bs
    exact ⟨p'', ha.trans ha', hp'', .ok (ha'.objects.mono hid)⟩

/-- The global objects go together, and the runtime objects do. -/
structure PairsBridge (p : Pairing) (b b' : Bridge) : Prop where
  global : p.object b.realm.global.index b'.realm.global.index
  runtime : p.object b.runtime.index b'.runtime.index

theorem Advances.pairsBridge {k k' : Heap} (ha : p.Advances p' h h' k k') {b b' : Bridge}
    (hb : p.PairsBridge b b') : p'.PairsBridge b b' :=
  ⟨ha.objects.mono hb.global, ha.objects.mono hb.runtime⟩

theorem PairsBridge.initialTable {b b' : Bridge} (hb : p.PairsBridge b b') :
    p.MatchesTable b.initialTable b'.initialTable :=
  .create (.object hb.global) (.object hb.runtime)

theorem Pairs.createBridge (hp : p.Pairs h h') (config : Config) {r r' : Realm}
    (hr : p.object r.global.index r'.global.index) :
    p.Together PairsBridge h h' (.ok (Bridge.create config r h).1, (Bridge.create config r h).2)
      (.ok (Bridge.create config r' h').1, (Bridge.create config r' h').2) := by
  obtain ⟨p', ha, hp', hid⟩ := Standard.together_newObject hp
  cases hid with
  | ok hid =>
    obtain ⟨_, ha', hp'⟩ := hp'.alike_setOf hid (.string config.importModule) runtimeModuleKey
    exact ⟨p', ha.trans ha', hp', .ok ⟨ha.objects.mono hr, hid⟩⟩

/-! ## Instances in step -/

/-- The instances are the same but for the identities. -/
structure PairsInstance (p : Pairing) (i i' : Instance) : Prop where
  heap : p.Pairs i.heap i'.heap
  table : p.MatchesTable i.table i'.table
  bytes : i'.bytes = i.bytes
  bound : i'.bound = i.bound
  log : i'.log = i.log

namespace PairsInstance

variable {i i' : Instance} (hi : p.PairsInstance i i')

include hi

theorem memory : i'.memory = i.memory := by
  rw [Instance.memory, Instance.memory, hi.bytes, hi.bound]

theorem state : p.PairsState i.state i'.state :=
  ⟨hi.heap, hi.table, hi.memory, hi.log⟩

theorem resume {s s' : State} (hs : p'.PairsState s s') :
    p'.PairsInstance (i.resume s) (i'.resume s') where
  heap := hs.heap
  table := hs.table
  bytes := by rw [Instance.resume, Instance.resume, hs.memory, hi.bytes]
  bound := hi.bound
  log := hs.log

theorem call (c : Call) :
    ((i'.perform (c.perform .standard)).1 = (i.perform (c.perform .standard)).1) ∧
      ∃ p', p.Advances p' i.heap i'.heap (i.next (.call .standard c)).heap
          (i'.next (.call .standard c)).heap ∧
        p'.PairsInstance (i.next (.call .standard c)) (i'.next (.call .standard c)) := by
  obtain ⟨p', ha, hs, hanswer⟩ := Call.inStep_perform Engine.respects_standard hi.state c
  exact ⟨hanswer.eq.symm, p', ha, hi.resume hs⟩

end PairsInstance

end ValueBridge.Pairing
