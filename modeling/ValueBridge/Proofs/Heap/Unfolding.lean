import Mathlib.Logic.Relation
import ValueBridge.Heap.Json

/-!
# Unfoldings

The JSON value of a host value is its *unfolding* (`Heap.Unfolds`): what an object leads to
is written out wherever it is met, and so twice if two properties hold it. An object that
leads back to itself has no unfolding, as that would be within itself
(`Unfolds.not_meetsCycle`), and no value has two (`Unfolds.unique`).

* `Heap.walk_spec`: within the objects of a path, the walk over a value gives an unfolding,
  or is refused for an object that leads back to itself or is on the path;
* `Heap.toJson_spec`: so the JSON value of a value is its unfolding, and a value is refused
  just when it leads to a cycle.
-/

namespace ValueBridge

namespace Heap

open Relation

variable {h : Heap} {v : Value} {j j' : Json} {a b : ObjectId} {path : List ObjectId}

/-! ## Cycles -/

/-- A property of a plain object holds another object. -/
def Leads (h : Heap) (a b : ObjectId) : Prop :=
  (h.object a).bytes? = none ∧ ∃ key, (h.object a).properties.get? key = some (.object b)

/-- The value is an object, from which properties lead to the other. -/
def LeadsTo (h : Heap) (v : Value) (b : ObjectId) : Prop :=
  ∃ a, v = .object a ∧ ReflTransGen h.Leads a b

/-- The value leads to an object that leads back to itself. -/
def MeetsCycle (h : Heap) (v : Value) : Prop :=
  ∃ b, h.LeadsTo v b ∧ TransGen h.Leads b b

/-- An object leads to what its properties lead to. -/
theorem LeadsTo.of_property {key : String} (hbytes : (h.object a).bytes? = none)
    (hget : (h.object a).properties.get? key = some v) (hv : h.LeadsTo v b) :
    TransGen h.Leads a b := by
  obtain ⟨c, rfl, hc⟩ := hv
  exact .head' ⟨hbytes, key, hget⟩ hc

/-! ## Unfoldings -/

/-- A JSON value is the unfolding of a value: what JSON has no form for is null, a buffer is
    the array of its bytes, and any other object has a member for each of its keys, which is
    the unfolding of the property. -/
inductive Unfolds (h : Heap) : Value → Json → Prop
  | undefined : Unfolds h .undefined .null
  | null : Unfolds h .null .null
  | bool (b : Bool) : Unfolds h (.bool b) (.bool b)
  | finite {x : Binary64} : x.isFinite = true → Unfolds h (.number x) (.number (.double x))
  | notFinite {x : Binary64} : x.isFinite = false → Unfolds h (.number x) .null
  | string (s : String) : Unfolds h (.string s) (.string s)
  | symbol (id : SymbolId) : Unfolds h (.symbol id) .null
  | function (id : FunctionId) : Unfolds h (.function id) .null
  | buffer {id : ObjectId} {bytes : Array UInt8} : (h.object id).bytes? = some bytes →
      Unfolds h (.object id) (.array (bytes.toList.map fun b => .ofInt b.toNat))
  | object {id : ObjectId} {members : List (String × Json)} : (h.object id).bytes? = none →
      members.map (·.1) = (h.object id).properties.keys →
      (∀ key v j, (h.object id).properties.get? key = some v → (key, j) ∈ members →
        Unfolds h v j) →
      Unfolds h (.object id) (.object members)

namespace Unfolds

/-- What has an unfolding does not lead to a cycle. -/
theorem not_meetsCycle (hj : h.Unfolds v j) : ¬h.MeetsCycle v := by
  -- In an unfolding, it is enough to look at what the object at the top leads to.
  have hstep {id : ObjectId} (hchild : ∀ c, h.Leads id c → ¬h.MeetsCycle (.object c)) :
      ¬h.MeetsCycle (.object id) := by
    rintro ⟨b, ⟨_, ⟨⟩, hb⟩, hcycle⟩
    rcases hb.cases_head with rfl | ⟨c, hc, hcb⟩
    · obtain ⟨c, hc, hcb⟩ := TransGen.head'_iff.1 hcycle
      exact hchild c hc ⟨_, ⟨c, rfl, hcb⟩, hcycle⟩
    · exact hchild c hc ⟨b, ⟨c, rfl, hcb⟩, hcycle⟩
  induction hj with
  | @buffer id bytes hbytes =>
    refine hstep fun c hc => ?_
    rw [Leads, hbytes] at hc
    cases hc.1
  | @object id members hbytes hkeys _ ih =>
    refine hstep fun c hc => ?_
    obtain ⟨_, key, hget⟩ := hc
    have hmem : key ∈ members.map (·.1) := hkeys ▸ PropertyMap.mem_keys_iff.2 ⟨_, hget⟩
    obtain ⟨⟨key, j⟩, hj, rfl⟩ := List.mem_map.1 hmem
    exact ih key _ j hget hj
  | _ => rintro ⟨_, ⟨_, ⟨⟩, _⟩, _⟩

/-- A value has one unfolding at most. -/
theorem unique (hj : h.Unfolds v j) (hj' : h.Unfolds v j') : j = j' := by
  induction hj generalizing j' with
  | @object id members hbytes hkeys _ ih =>
    cases hj' with
    | buffer hbytes' =>
      rw [hbytes] at hbytes'
      cases hbytes'
    | @object _ members' _ hkeys' hmembers' =>
      have hmap := hkeys.trans hkeys'.symm
      have hlength : members.length = members'.length := by simpa using congrArg List.length hmap
      refine congrArg Json.object (List.ext_getElem hlength fun i hi hi' => ?_)
      have hkey : members[i].1 = members'[i].1 := by simpa [hi, hi'] using congrArg (·[i]?) hmap
      have hmem : members[i].1 ∈ (h.object id).properties.keys :=
        hkeys ▸ List.mem_map_of_mem (List.getElem_mem hi)
      obtain ⟨v, hget⟩ := PropertyMap.mem_keys_iff.1 hmem
      have hmem' : (members[i].1, members'[i].2) ∈ members' := by
        rw [hkey]
        exact List.getElem_mem hi'
      have hvalue := hmembers' _ v _ hget hmem'
      exact Prod.ext hkey (ih _ v _ hget (List.getElem_mem hi) hvalue)
  | @buffer id bytes hbytes =>
    cases hj' with
    | buffer hbytes' =>
      rw [hbytes] at hbytes'
      cases hbytes'
      rfl
    | object hbytes' =>
      rw [hbytes] at hbytes'
      cases hbytes'
  | finite hx => cases hj' <;> simp_all
  | notFinite hx => cases hj' <;> simp_all
  | _ =>
    cases hj'
    rfl

end Unfolds

/-! ## The walk -/

/-- The member of an entry. -/
def member (f : Value → Except Fault Json) (e : String × Value) : Except Fault (String × Json) := do
  return (e.1, ← f e.2)

/-- The members of an object are made of its entries, unless one of these is refused. -/
theorem mapM_member (f : Value → Except Fault Json) (l : List (String × Value)) :
    match l.mapM (member f) with
    | .ok members => members.map (·.1) = l.map (·.1) ∧
        ∀ key j, (key, j) ∈ members → ∃ v, (key, v) ∈ l ∧ f v = .ok j
    | .error fault => ∃ key v, (key, v) ∈ l ∧ f v = .error fault := by
  induction l with
  | nil => simp [List.mapM_nil, pure, Except.pure]
  | cons e l ih =>
    obtain ⟨key, v⟩ := e
    rw [List.mapM_cons, member]
    cases hv : f v with
    | error fault =>
      simp only [bind, Except.bind]
      exact ⟨key, v, List.mem_cons_self, hv⟩
    | ok j =>
      simp only [bind, Except.bind, pure, Except.pure]
      cases hl : l.mapM (member f) with
      | error fault =>
        rw [hl] at ih
        obtain ⟨key', v', hmem, hfault⟩ := ih
        exact ⟨key', v', List.mem_cons_of_mem _ hmem, hfault⟩
      | ok members =>
        rw [hl] at ih
        obtain ⟨hkeys, hvalues⟩ := ih
        refine ⟨congrArg (key :: ·) hkeys, fun key' j' hmem => ?_⟩
        rcases List.mem_cons.1 hmem with heq | hmem
        · cases heq
          exact ⟨v, List.mem_cons_self, hv⟩
        · obtain ⟨v', hv', hj'⟩ := hvalues key' j' hmem
          exact ⟨v', List.mem_cons_of_mem _ hv', hj'⟩

/-- The walk over a plain object that is not on the path. -/
theorem toJsonFrom_object (hbytes : (h.object a).bytes? = none) (ha : a ∉ path) :
    h.toJsonFrom path (.object a) =
      ((h.object a).properties.entries.mapM (member (h.toJsonFrom (a :: path)))).map .object := by
  rw [toJsonFrom, hbytes]
  simp only [ha, dite_false]
  rw [List.mapM_subtype (g := member (h.toJsonFrom (a :: path))) fun _ _ => rfl,
    List.unattach_attach]
  rfl

/-- Within the objects of a path, the walk over a value gives its unfolding, or finds that it
    leads to an object of the path or to one that leads back to itself. -/
theorem walk_spec (h : Heap) (path : List ObjectId) (v : Value) :
    match h.toJsonFrom path v with
    | .ok j => h.Unfolds v j
    | .error fault =>
      fault = cyclic ∧ ∃ b, h.LeadsTo v b ∧ (b ∈ path ∨ TransGen h.Leads b b) := by
  induction path, v using toJsonFrom.induct (h := h) with
  | case1 => simpa [toJsonFrom] using .undefined
  | case2 => simpa [toJsonFrom] using .null
  | case3 path b => simpa [toJsonFrom] using .bool b
  | case4 path x =>
    cases hx : x.isFinite with
    | true => simpa [toJsonFrom, numberToJson, hx] using .finite hx
    | false => simpa [toJsonFrom, numberToJson, hx] using .notFinite hx
  | case5 path s => simpa [toJsonFrom] using .string s
  | case6 path id => simpa [toJsonFrom] using .symbol id
  | case7 path id => simpa [toJsonFrom] using .function id
  | case8 path id bytes hbytes =>
    rw [toJsonFrom, hbytes]
    exact .buffer hbytes
  | case9 path id hbytes hid =>
    rw [toJsonFrom, hbytes]
    simp only [hid, dite_true]
    exact ⟨trivial, id, ⟨id, rfl, .refl⟩, .inl hid⟩
  | case10 path id hbytes hid ih =>
    have hmembers := mapM_member (h.toJsonFrom (id :: path)) (h.object id).properties.entries
    rw [toJsonFrom_object hbytes hid]
    cases hwalk : (h.object id).properties.entries.mapM (member (h.toJsonFrom (id :: path))) with
    | ok members =>
      rw [hwalk] at hmembers
      obtain ⟨hkeys, hvalues⟩ := hmembers
      refine .object hbytes hkeys fun key v j hget hj => ?_
      obtain ⟨v', hv', hj⟩ := hvalues key j hj
      obtain rfl : v' = v := by
        rw [PropertyMap.mem_entries_iff, hget, Option.some_inj] at hv'
        exact hv'.symm
      have hproperty := ih key v' hv'
      rwa [hj] at hproperty
    | error fault =>
      rw [hwalk] at hmembers
      obtain ⟨key, v, hv, hfault⟩ := hmembers
      have hproperty := ih key v hv
      rw [hfault] at hproperty
      obtain ⟨rfl, b, hb, hcycle⟩ := hproperty
      have hleads := hb.of_property hbytes (PropertyMap.mem_entries_iff.1 hv)
      refine ⟨rfl, b, ?_⟩
      rcases hcycle with hpath | hcycle
      · rcases List.mem_cons.1 hpath with rfl | hpath
        · -- The property leads back to the object itself.
          exact ⟨⟨b, rfl, .refl⟩, .inr hleads⟩
        · exact ⟨⟨id, rfl, hleads.to_reflTransGen⟩, .inl hpath⟩
      · exact ⟨⟨id, rfl, hleads.to_reflTransGen⟩, .inr hcycle⟩

/-- In any heap, whatever it shares and however it is tangled, a value is refused as cyclic
    just when properties of plain objects lead from it to an object that leads back to
    itself. Any other value has one unfolding, and this is its JSON value. -/
theorem toJson_spec (h : Heap) (v : Value) :
    (h.toJson v = .error (.typeError "cyclic object value") ↔ h.MeetsCycle v) ∧
      (¬h.MeetsCycle v → ∃ j, h.toJson v = .ok j ∧ ∀ j', h.Unfolds v j' ↔ j' = j) := by
  have hwalk := h.walk_spec [] v
  rw [toJson]
  cases hj : h.toJsonFrom [] v with
  | ok j =>
    rw [hj] at hwalk
    refine ⟨iff_of_false nofun hwalk.not_meetsCycle, fun _ => ⟨j, rfl, fun j' => ?_⟩⟩
    exact ⟨fun hj' => hj'.unique hwalk, fun heq => heq ▸ hwalk⟩
  | error fault =>
    rw [hj] at hwalk
    obtain ⟨rfl, b, hb, hpath | hcycle⟩ := hwalk
    · cases hpath
    · have hmeets : h.MeetsCycle v := ⟨b, hb, hcycle⟩
      exact ⟨iff_of_true rfl hmeets, fun hnot => absurd hmeets hnot⟩

end Heap

end ValueBridge
