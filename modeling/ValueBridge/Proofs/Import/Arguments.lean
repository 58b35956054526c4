import ValueBridge.Proofs.Bridge.Loading
import ValueBridge.Proofs.Import.Effect
import ValueBridge.Proofs.Import.Logging

/-!
# Arguments

The arguments of a call stand in memory one after another, wherever the guest says and as many as
it says. Each is what is loaded from its address (`Import.argument`), as if it were the only one:
together they are the list of them all, or the fault of the first that has one
(`Import.gathers_loadArgs`).

An address that is no word is a fault of its own. It is not seen if the memory is smaller than
there are words: arguments before it are past the end already (`Import.exists_argument_past_end`).

* `Import.arguments_laws`: all of it, for any memory, address and number of arguments
  (`Import.LoadsArguments`), and how the calls with arguments depend on them (`Import.TakesArgs`).
-/

namespace ValueBridge

/-! ## Addresses -/

namespace Memory

variable {base index addr : UInt32}

/-- The address of an element is not wrapped. -/
theorem elementAddress_eq_ok_iff :
    elementAddress base index = .ok addr ↔ addr.toNat = base.toNat + refSize * index.toNat := by
  have haddr : addr.toNat < Ref.wordSize := addr.toNat_lt
  rw [elementAddress]
  split
  · next hword =>
    have hofNat := UInt32.toNat_ofNat_of_lt' (n := base.toNat + refSize * index.toNat) hword
    rw [Except.ok.injEq, ← UInt32.toNat_inj, hofNat, eq_comm]
  · next hword => exact iff_of_false nofun fun h => hword (h ▸ haddr)

theorem elementAddress_of_wordSize_le (h : Ref.wordSize ≤ base.toNat + refSize * index.toNat) :
    elementAddress base index = .error (.outOfBounds base ((index.toNat + 1) * refSize) 0) :=
  if_neg (Nat.not_lt.2 h)

end Memory

namespace Import

open ValueBridge.Action Bridge

/-! ## Gathering -/

/-- The result is the list of so many items, or the fault of the first that has one. -/
structure Gathers (item : Nat → Except BridgeFault Value) (count : Nat)
    (result : Except BridgeFault (List Value)) : Prop where
  ok_iff : ∀ vs, result = .ok vs ↔
    vs.length = count ∧ ∀ i v, vs[i]? = some v → item i = .ok v
  error_iff : ∀ fault, result = .error fault ↔
    ∃ i, i < count ∧ item i = .error fault ∧ ∀ j, j < i → ∃ v, item j = .ok v

namespace Gathers

variable {item : Nat → Except BridgeFault Value} {count : Nat} {v : Value}
  {result : Except BridgeFault (List Value)}

theorem nil (item : Nat → Except BridgeFault Value) : Gathers item 0 (.ok []) where
  ok_iff vs := by
    constructor
    · rintro ⟨⟩
      exact ⟨rfl, nofun⟩
    · rintro ⟨hlength, _⟩
      rw [List.eq_nil_of_length_eq_zero hlength]
  error_iff fault := iff_of_false nofun fun ⟨_, hi, _⟩ => Nat.not_lt_zero _ hi

/-- The first fault is the end. -/
theorem fault {fault : BridgeFault} (h : item 0 = .error fault) :
    Gathers item (count + 1) (.error fault) where
  ok_iff vs := by
    refine iff_of_false nofun fun ⟨hlength, hitems⟩ => ?_
    cases vs with
    | nil => cases hlength
    | cons v vs =>
      have hv := hitems 0 v rfl
      rw [h] at hv
      cases hv
  error_iff fault' := by
    constructor
    · rintro ⟨⟩
      exact ⟨0, Nat.succ_pos count, h, nofun⟩
    · rintro ⟨i, _, hfault, hbefore⟩
      cases i with
      | zero =>
        rw [h] at hfault
        cases hfault
        rfl
      | succ i =>
        obtain ⟨v, hv⟩ := hbefore 0 (Nat.succ_pos i)
        rw [h] at hv
        cases hv

/-- An item comes before those that are gathered after it. -/
theorem cons (h : item 0 = .ok v) (hrest : Gathers (fun i => item (i + 1)) count result) :
    Gathers item (count + 1) (result.map (v :: ·)) where
  ok_iff vs := by
    constructor
    · intro hvs
      cases result with
      | error fault => cases hvs
      | ok rest =>
        cases hvs
        obtain ⟨hlength, hitems⟩ := (hrest.ok_iff rest).1 rfl
        refine ⟨congrArg Nat.succ hlength, fun i w hw => ?_⟩
        cases i with
        | zero =>
          cases hw
          exact h
        | succ i => exact hitems i w hw
    · rintro ⟨hlength, hitems⟩
      cases vs with
      | nil => cases hlength
      | cons w rest =>
        have hw := hitems 0 w rfl
        rw [h] at hw
        cases hw
        have hresult := (hrest.ok_iff rest).2
          ⟨Nat.succ.inj hlength, fun i w hw => hitems (i + 1) w hw⟩
        rw [hresult]
        rfl
  error_iff fault := by
    have hmap : result.map (v :: ·) = .error fault ↔ result = .error fault := by
      cases result with
      | error fault' => exact Iff.rfl
      | ok rest => exact iff_of_false nofun nofun
    rw [hmap, hrest.error_iff]
    constructor
    · rintro ⟨i, hi, hfault, hbefore⟩
      refine ⟨i + 1, Nat.succ_lt_succ hi, hfault, fun j hj => ?_⟩
      cases j with
      | zero => exact ⟨v, h⟩
      | succ j => exact hbefore j (Nat.lt_of_succ_lt_succ hj)
    · rintro ⟨i, hi, hfault, hbefore⟩
      cases i with
      | zero =>
        rw [h] at hfault
        cases hfault
      | succ i =>
        exact ⟨i, Nat.lt_of_succ_lt_succ hi, hfault,
          fun j hj => hbefore (j + 1) (Nat.succ_lt_succ hj)⟩

end Gathers

/-! ## One argument -/

/-- An argument by itself: what is loaded from its address, which has to be a word. -/
def argument (argsAddr : UInt32) (s : State) (i : Nat) : Except BridgeFault Value :=
  if argsAddr.toNat + Memory.refSize * i < Ref.wordSize then
    (loadRef (.ofNat (argsAddr.toNat + Memory.refSize * i)) s).1
  else .error (.outOfBounds argsAddr ((i + 1) * Memory.refSize) 0)

variable {s : State} {bytes : Array UInt8} {argsAddr argCount index addr : UInt32} {i : Nat}
  {v : Value} {fault : BridgeFault}

/-- No argument depends on what was logged. -/
theorem argument_log (argsAddr : UInt32) (s : State) (log : Array Event) (i : Nat) :
    argument argsAddr { s with log } i = argument argsAddr s i := by
  rw [argument, argument, loadRef_fst, loadRef_fst]

theorem argument_of_toNat_eq (haddr : addr.toNat = argsAddr.toNat + Memory.refSize * i) :
    argument argsAddr s i = (loadRef addr s).1 := by
  have hword : addr.toNat < Ref.wordSize := addr.toNat_lt
  rw [argument, ← haddr, if_pos hword, UInt32.ofNat_toNat]

/-- The address of an argument that is there is a word. -/
theorem exists_addr_of_argument_eq_ok (h : argument argsAddr s i = .ok v) :
    ∃ addr : UInt32, addr.toNat = argsAddr.toNat + Memory.refSize * i ∧
      (loadRef addr s).1 = .ok v := by
  rw [argument] at h
  split at h
  · next hword => exact ⟨_, UInt32.toNat_ofNat_of_lt' hword, h⟩
  · cases h

/-- An argument is there if there is room for a reference at its address, and the reference
    stands for a value. -/
theorem argument_eq_ok_iff (hmem : s.memory = .bound bytes) :
    argument argsAddr s i = .ok v ↔ ∃ (addr : UInt32) (r : Ref),
      addr.toNat = argsAddr.toNat + Memory.refSize * i ∧
      s.memory.read? addr Memory.refSize = .ok (some (Memory.refBytes r)) ∧
      s.table.standsFor r.settled = .ok v := by
  constructor
  · intro h
    obtain ⟨addr, haddr, hload⟩ := exists_addr_of_argument_eq_ok h
    by_cases hin : addr.toNat + Memory.refSize ≤ bytes.size
    · obtain ⟨r, hread⟩ := Memory.exists_read?_refBytes hin
      rw [← hmem] at hread
      exact ⟨addr, r, haddr, hread, by rw [← loadRef_of_read? hread, hload]⟩
    · rw [loadRef_of_size_lt hmem (Nat.not_le.1 hin)] at hload
      cases hload
  · rintro ⟨addr, r, haddr, hread, hstands⟩
    rw [argument_of_toNat_eq haddr, loadRef_of_read? hread, hstands]

/-- In a memory that is smaller than there are words, the last argument whose address is a word
    is past the end. -/
theorem exists_argument_past_end (hmem : s.memory = .bound bytes)
    (hsize : bytes.size < Ref.wordSize)
    (hover : Ref.wordSize ≤ argsAddr.toNat + Memory.refSize * i) :
    ∃ (j : Nat) (addr : UInt32), j < i ∧ addr.toNat = argsAddr.toNat + Memory.refSize * j ∧
      argument argsAddr s j = .error (.outOfBounds addr Memory.refSize bytes.size) := by
  have hargs : argsAddr.toNat < Ref.wordSize := argsAddr.toNat_lt
  let j := (Ref.wordSize - 1 - argsAddr.toNat) / Memory.refSize
  have hword : argsAddr.toNat + Memory.refSize * j < Ref.wordSize := by
    simp only [j, Memory.refSize, Ref.wordSize] at hargs ⊢
    omega
  have hpast : Ref.wordSize ≤ argsAddr.toNat + Memory.refSize * j + Memory.refSize := by
    simp only [j, Memory.refSize, Ref.wordSize] at hargs ⊢
    omega
  have hj : j < i := by
    rw [Memory.refSize] at hover hword
    omega
  have haddr := UInt32.toNat_ofNat_of_lt' hword
  refine ⟨j, _, hj, haddr, ?_⟩
  rw [argument_of_toNat_eq haddr, loadRef_of_size_lt hmem]
  rw [haddr]
  omega

/-- The first fault of arguments in a memory that is smaller than there are words is that of a
    load from an address in the array. -/
theorem exists_addr_of_first_fault (hmem : s.memory = .bound bytes)
    (hsize : bytes.size < Ref.wordSize) (hfault : argument argsAddr s i = .error fault)
    (hbefore : ∀ j, j < i → ∃ v, argument argsAddr s j = .ok v) :
    ∃ addr : UInt32, addr.toNat = argsAddr.toNat + Memory.refSize * i ∧
      (loadRef addr s).1 = .error fault := by
  by_cases hword : argsAddr.toNat + Memory.refSize * i < Ref.wordSize
  · have haddr := UInt32.toNat_ofNat_of_lt' hword
    exact ⟨_, haddr, argument_of_toNat_eq haddr ▸ hfault⟩
  · obtain ⟨j, addr, hj, _, hpast⟩ := exists_argument_past_end hmem hsize (Nat.not_lt.1 hword)
    obtain ⟨v, hv⟩ := hbefore j hj
    rw [hpast] at hv
    cases hv

/-! ## All arguments -/

theorem loadArgsFrom_of_error (taken : List Value) (left : Nat)
    (h : argument argsAddr s index.toNat = .error fault) :
    (loadArgsFrom argsAddr taken index (left + 1) s).1 = .error fault := by
  rw [loadArgsFrom]
  rw [argument] at h
  split at h
  · next hword =>
    have haddr : Memory.elementAddress argsAddr index = .ok _ := if_pos hword
    rw [lift_bind_of_ok haddr]
    exact congrArg Prod.fst (bind_of_error (Prod.ext h rfl))
  · next hword =>
    have haddr : Memory.elementAddress argsAddr index = .error _ := if_neg hword
    rw [lift_bind_of_error haddr]
    cases h
    rfl

theorem loadArgsFrom_of_ok (taken : List Value) (left : Nat)
    (h : argument argsAddr s index.toNat = .ok v) :
    ∃ log, loadArgsFrom argsAddr taken index (left + 1) s =
      loadArgsFrom argsAddr (v :: taken) (index + 1) left { s with log } := by
  obtain ⟨addr, haddr, hload⟩ := exists_addr_of_argument_eq_ok h
  obtain ⟨log, hlog⟩ := reads_loadRef addr s
  refine ⟨log, ?_⟩
  rw [loadArgsFrom, lift_bind_of_ok (Memory.elementAddress_eq_ok_iff.2 haddr)]
  exact bind_of_ok (Prod.ext hload hlog)

/-- The arguments from an index on are gathered after those that were taken. -/
theorem gathers_loadArgsFrom (argsAddr : UInt32) (taken : List Value) (index : UInt32) (left : Nat)
    (s : State) (hindex : index.toNat + left < Ref.wordSize) :
    ∃ result, Gathers (fun i => argument argsAddr s (index.toNat + i)) left result ∧
      (loadArgsFrom argsAddr taken index left s).1 = result.map (taken.reverse ++ ·) := by
  induction left generalizing taken index s with
  | zero => exact ⟨.ok [], .nil _, congrArg Except.ok (List.append_nil _).symm⟩
  | succ left ih =>
    have hnext : (index + 1).toNat = index.toNat + 1 := by
      have := toNat_succ_add hindex
      omega
    cases hfirst : argument argsAddr s index.toNat with
    | error fault => exact ⟨.error fault, .fault hfirst, loadArgsFrom_of_error taken left hfirst⟩
    | ok v =>
      obtain ⟨log, hlog⟩ := loadArgsFrom_of_ok taken left hfirst
      obtain ⟨rest, hrest, hresult⟩ :=
        ih (v :: taken) (index + 1) { s with log } (by omega)
      -- No argument depends on what the load of the first one logged.
      simp only [argument_log, hnext, Nat.add_assoc, Nat.add_comm 1] at hrest
      refine ⟨rest.map (v :: ·), .cons hfirst hrest, ?_⟩
      rw [hlog, hresult, List.reverse_cons]
      cases rest with
      | error fault => rfl
      | ok vs => exact congrArg Except.ok (List.append_cons taken.reverse v vs).symm

/-- The arguments are the list of them all, or the fault of the first that has one. -/
theorem gathers_loadArgs (argsAddr argCount : UInt32) (s : State) :
    Gathers (argument argsAddr s) argCount.toNat (loadArgs argsAddr argCount s).1 := by
  have hcount : (0 : UInt32).toNat + argCount.toNat < Ref.wordSize := by
    rw [UInt32.toNat_zero, Nat.zero_add]
    exact argCount.toNat_lt
  obtain ⟨result, hgathers, hresult⟩ :=
    gathers_loadArgsFrom argsAddr [] 0 argCount.toNat s hcount
  simp only [UInt32.toNat_zero, Nat.zero_add] at hgathers
  rw [loadArgs, hresult]
  cases result <;> exact hgathers

/-- One argument is what the reference at its address stands for. -/
theorem loadArgs_one {r : Ref} (hread : s.memory.readRef? addr = .ok (some r)) :
    ∃ log, loadArgs addr 1 s = ((s.table.standsFor r.settled).map ([·]), { s with log }) := by
  obtain ⟨log, hlog⟩ := reads_loadArgs addr 1 s
  have hargument : argument addr s 0 = s.table.standsFor r.settled := by
    have haddr : addr.toNat = addr.toNat + Memory.refSize * 0 := rfl
    rw [argument_of_toNat_eq haddr, loadRef_fst, hread]
    rfl
  refine ⟨log, Prod.ext ?_ hlog⟩
  have hgathers := gathers_loadArgs addr 1 s
  cases hstands : s.table.standsFor r.settled with
  | error fault =>
    exact (hgathers.error_iff fault).2 ⟨0, Nat.one_pos, hargument.trans hstands, nofun⟩
  | ok v =>
    refine (hgathers.ok_iff [v]).2 ⟨rfl, fun i w hw => ?_⟩
    obtain ⟨rfl, rfl⟩ : i = 0 ∧ v = w := by
      cases i with
      | zero => exact ⟨rfl, Option.some_inj.1 hw⟩
      | succ i => cases hw
    exact hargument.trans hstands

/-! ## Calls with arguments -/

/-- The action fails as the arguments do, and otherwise goes on with the list of them. -/
structure TakesArgs (argsAddr argCount : UInt32) (s : State) (x : Action Unit)
    (next : List Value → Action Unit) : Prop where
  error : ∀ fault, (loadArgs argsAddr argCount s).1 = .error fault → (x s).1 = .error fault
  ok : ∀ args, (loadArgs argsAddr argCount s).1 = .ok args → ∃ log, x s = next args { s with log }

/-- Whatever was logged before the arguments are loaded. -/
theorem TakesArgs.of_eq {x : Action Unit} {next : List Value → Action Unit} (log : Array Event)
    (h : x s = (loadArgs argsAddr argCount >>= next) { s with log }) :
    TakesArgs argsAddr argCount s x next := by
  obtain ⟨log', hlog'⟩ := reads_loadArgs argsAddr argCount s
  obtain ⟨log'', hlog''⟩ := ignoresLog_loadArgs argsAddr argCount s log
  rw [hlog'] at hlog''
  refine ⟨fun fault hfault => ?_, fun args hargs => ⟨log'', ?_⟩⟩
  · rw [hfault] at hlog''
    rw [h, bind_of_error hlog'']
  · rw [hargs] at hlog''
    rw [h, bind_of_ok hlog'']

theorem takesArgs_valueNew {e : Engine} {out constructor : UInt32} {f : Value}
    (hf : s.table.load constructor = .ok f) :
    TakesArgs argsAddr argCount s (valueNew e out constructor argsAddr argCount)
      fun args => Action.host (e.construct f args) >>= storeRef out := by
  refine .of_eq s.log ?_
  rw [valueNew, bind_of_ok (loadValue_of_ok hf)]

theorem takesArgs_funcApply {e : Engine} {out function receiverAddr : UInt32} {f receiver : Value}
    (hf : s.table.load function = .ok f) (hreceiver : (loadRef receiverAddr s).1 = .ok receiver) :
    TakesArgs argsAddr argCount s (funcApply e out function receiverAddr argsAddr argCount)
      fun args => Action.host (e.call f receiver args) >>= storeRef out := by
  obtain ⟨log, hlog⟩ := reads_loadRef receiverAddr s
  refine .of_eq log ?_
  rw [funcApply, bind_of_ok (loadValue_of_ok hf), bind_of_ok (Prod.ext hreceiver hlog)]

/-- A function is applied to one argument: what the reference at the address stands for. -/
theorem funcApply_one {function receiverAddr : UInt32} {f receiver : Value} {r : Ref} (e : Engine)
    (out : UInt32) (hf : s.table.load function = .ok f)
    (hreceiver : (loadRef receiverAddr s).1 = .ok receiver)
    (hread : s.memory.readRef? addr = .ok (some r)) :
    (∃ fault log, s.table.standsFor r.settled = .error fault ∧
      funcApply e out function receiverAddr addr 1 s = (.error fault, { s with log })) ∨
    ∃ arg log, s.table.standsFor r.settled = .ok arg ∧
      funcApply e out function receiverAddr addr 1 s =
        (Action.host (e.call f receiver [arg]) >>= storeRef out) { s with log } := by
  obtain ⟨log, hlog⟩ := reads_loadRef receiverAddr s
  obtain ⟨log', hargs⟩ := loadArgs_one (s := { s with log }) hread
  rw [funcApply, bind_of_ok (loadValue_of_ok hf), bind_of_ok (Prod.ext hreceiver hlog)]
  cases hstands : s.table.standsFor r.settled with
  | error fault =>
    rw [hstands] at hargs
    exact .inl ⟨fault, log', rfl, bind_of_error hargs⟩
  | ok arg =>
    rw [hstands] at hargs
    exact .inr ⟨arg, log', rfl, bind_of_ok hargs⟩

/-- From a bound memory of that size, the arguments are the list of them all, or the fault of the
    first that has one. An argument is there if a reference that stands for a value lies in memory
    at its address, which is not wrapped; if there are none, nothing can fail. In a memory that is
    smaller than there are words, an address that is no word comes after an argument that is past
    the end, so that the fault is that of a load from an address in the array. The calls with
    arguments fail as these do, and otherwise hand their list to the host. -/
structure LoadsArguments (argsAddr argCount : UInt32) (size : Nat) (s : State) : Prop where
  gathers : Gathers (argument argsAddr s) argCount.toNat (loadArgs argsAddr argCount s).1
  argument_iff : ∀ i v, argument argsAddr s i = .ok v ↔ ∃ (addr : UInt32) (r : Ref),
    addr.toNat = argsAddr.toNat + Memory.refSize * i ∧
    s.memory.read? addr Memory.refSize = .ok (some (Memory.refBytes r)) ∧
    s.table.standsFor r.settled = .ok v
  none : loadArgs argsAddr 0 s = (.ok [], s)
  address_iff : ∀ base index addr, Memory.elementAddress base index = .ok addr ↔
    addr.toNat = base.toNat + Memory.refSize * index.toNat
  no_address : ∀ base index : UInt32,
    Ref.wordSize ≤ base.toNat + Memory.refSize * index.toNat →
      Memory.elementAddress base index =
        .error (.outOfBounds base ((index.toNat + 1) * Memory.refSize) 0)
  past_end : size < Ref.wordSize →
    ∀ i, Ref.wordSize ≤ argsAddr.toNat + Memory.refSize * i →
      ∃ (j : Nat) (addr : UInt32), j < i ∧ addr.toNat = argsAddr.toNat + Memory.refSize * j ∧
        argument argsAddr s j = .error (.outOfBounds addr Memory.refSize size)
  first_fault : size < Ref.wordSize →
    ∀ fault, (loadArgs argsAddr argCount s).1 = .error fault →
      ∃ (i : Nat) (addr : UInt32), i < argCount.toNat ∧
        addr.toNat = argsAddr.toNat + Memory.refSize * i ∧
        (loadRef addr s).1 = .error fault ∧
        (∀ j, j < i → ∃ v, argument argsAddr s j = .ok v) ∧
        ∀ addr' length size', fault = .outOfBounds addr' length size' →
          size < addr.toNat + Memory.refSize ∧
            addr' = addr ∧ length = Memory.refSize ∧ size' = size
  construct : ∀ e out constructor f, s.table.load constructor = .ok f →
    TakesArgs argsAddr argCount s (valueNew e out constructor argsAddr argCount)
      fun args => Action.host (e.construct f args) >>= storeRef out
  apply : ∀ e out function receiverAddr f receiver, s.table.load function = .ok f →
    (loadRef receiverAddr s).1 = .ok receiver →
    TakesArgs argsAddr argCount s (funcApply e out function receiverAddr argsAddr argCount)
      fun args => Action.host (e.call f receiver args) >>= storeRef out

/-- Whatever the guest says of its arguments, they are loaded in this way. -/
theorem arguments_laws (heap : Heap) (table : Table) (bytes : Array UInt8) (log : Array Event)
    (argsAddr argCount : UInt32) :
    LoadsArguments argsAddr argCount bytes.size ⟨heap, table, .bound bytes, log⟩ where
  gathers := gathers_loadArgs argsAddr argCount _
  argument_iff _ _ := argument_eq_ok_iff rfl
  none := rfl
  address_iff _ _ _ := Memory.elementAddress_eq_ok_iff
  no_address _ _ := Memory.elementAddress_of_wordSize_le
  past_end hsize _ := exists_argument_past_end rfl hsize
  first_fault hsize fault hfault := by
    obtain ⟨i, hi, hargument, hbefore⟩ :=
      ((gathers_loadArgs argsAddr argCount _).error_iff fault).1 hfault
    obtain ⟨addr, haddr, hload⟩ := exists_addr_of_first_fault rfl hsize hargument hbefore
    refine ⟨i, addr, hi, haddr, hload, hbefore, fun addr' length size hout => ?_⟩
    exact (loadRef_eq_outOfBounds_iff rfl).1 (hload.trans (congrArg Except.error hout))
  construct _ _ _ _ := takesArgs_valueNew
  apply _ _ _ _ _ _ := takesArgs_funcApply

end Import

end ValueBridge
