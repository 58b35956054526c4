import ValueBridge.Engine
import ValueBridge.Heap.Text

/-!
# The standard engine

The behaviours as a host has them (`Engine.standard`). Arguments that are missing
count as undefined, and numbers and texts of arguments are taken in order, so that
the first one that has none is the fault.

Only `apply` and `make` run another behaviour, with fewer arguments than they
have, so that every run ends.
-/

namespace ValueBridge.Standard

/-- The first argument. -/
def first (args : List Value) : Value :=
  args.headD .undefined

/-- The greatest length of a buffer. -/
def maxLength : Int := 0xFFFFFFFF

/-- The length of a buffer that a value asks for: its number, toward zero. -/
def bufferLength (v : Value) : Except Fault Nat :=
  match v.toNumber with
  | .error fault => .error fault
  | .ok x =>
    if x.isNaN then .ok 0
    else if x.isFinite ∧ 0 ≤ x.integerPart ∧ x.integerPart ≤ maxLength then
      .ok x.integerPart.toNat
    else .error (.rangeError ("invalid typed array length: " ++ x.truncate.plainText))

/-- The argument itself if it is an object or a function, else a fresh object. -/
def objectOf (args : List Value) (h : Heap) : Value × Heap :=
  match args.head? with
  | some (.object id) => (.object id, h)
  | some (.function id) => (.function id, h)
  | _ =>
    let (id, h) := h.newObject
    (.object id, h)

/-- The bytes that a buffer is made of: those of a buffer, or as many zeros as the
    argument asks for. -/
def bufferBytes (args : List Value) (h : Heap) : Except Fault (Array UInt8) :=
  match args.head? with
  | none => .ok #[]
  | some .undefined => .ok #[]
  | some v =>
    match h.bytes? v with
    | some bytes => .ok bytes
    | none => (bufferLength v).map fun length => Array.replicate length 0

/-- The description of a symbol that the arguments ask for. -/
def symbolDescription (args : List Value) (h : Heap) : Except Fault (Option String) :=
  match args.head? with
  | none => .ok none
  | some .undefined => .ok none
  | some v => (h.hostText v).map some

/-- The text of the argument, also of a symbol. -/
def textOf (args : List Value) (h : Heap) : Except Fault String :=
  match args.head? with
  | none => .ok ""
  | some (.symbol id) => .ok (h.symbolText id)
  | some v => h.hostText v

/-- The sum of the numbers of the arguments, in order. -/
def sumOf (args : List Value) : Except Fault Binary64 :=
  args.foldlM (fun total v => (v.toNumber).map total.add) (Binary64.zero false)

/-- The texts of the arguments, joined. -/
def concatOf (args : List Value) (h : Heap) : Except Fault String :=
  (args.mapM h.hostText).map String.join

/-- An object with the arguments by index. -/
def collectInto (id : ObjectId) (index : Nat) : List Value → Heap → Heap
  | [], h => h
  | v :: vs, h => collectInto id (index + 1) vs (h.setOf id (Text.indexKey index) v).2

/-- A result that leaves the heap as it is. -/
def unchanged (h : Heap) (result : Except Fault Value) : Outcome Value :=
  (result, h)

/-- The behaviours. -/
def run (native : Native) (receiver : Value) (args : List Value) (h : Heap) : Outcome Value :=
  match native with
  | .objectOf =>
    let (v, h) := objectOf args h
    (.ok v, h)
  | .bufferOf =>
    match bufferBytes args h with
    | .error fault => (.error fault, h)
    | .ok bytes =>
      let (id, h) := h.newBuffer bytes
      (.ok (.object id), h)
  | .symbolOf =>
    match symbolDescription args h with
    | .error fault => (.error fault, h)
    | .ok description? =>
      let (id, h) := h.newSymbol description?
      (.ok (.symbol id), h)
  | .textOf => unchanged h ((textOf args h).map .string)
  | .requireNew name => unchanged h (.error (.requiresNew name))
  | .double => unchanged h ((first args).toNumber.map fun x => .number (x.add x))
  | .receiverTag => unchanged h (h.get receiver "tag")
  | .receiver => unchanged h (.ok receiver)
  | .first => unchanged h (.ok (first args))
  | .count => unchanged h (.ok (.number (.ofNat args.length)))
  | .sum => unchanged h ((sumOf args).map .number)
  | .concat => unchanged h ((concatOf args h).map .string)
  | .put =>
    match h.hostText (first args) >>= fun key => h.set receiver key (first args.tail) with
    | .error fault => (.error fault, h)
    | .ok (written, h) => (.ok (.bool written), h)
  | .collect =>
    let (id, h) := h.newObject
    (.ok (.object id), collectInto id 0 args h)
  | .failType => unchanged h ((h.hostText (first args)).bind fun s => .error (.typeError s))
  | .failRange => unchanged h ((h.hostText (first args)).bind fun s => .error (.rangeError s))
  | .apply =>
    match args with
    | [] => (.error (.notCallable .undefined), h)
    | f :: rest =>
      match h.callBehaviour f with
      | .error fault => (.error fault, h)
      | .ok native => run native (first rest) rest.tail h
  | .make =>
    match args with
    | [] => (.error (.notConstructor .undefined), h)
    | f :: rest =>
      match h.constructBehaviour f with
      | .error fault => (.error fault, h)
      | .ok native => run native .undefined rest h
termination_by args.length
decreasing_by all_goals simp [List.length_tail]; try omega

end ValueBridge.Standard

namespace ValueBridge

/-- The engine of a host. -/
def Engine.standard : Engine := ⟨Standard.run⟩

end ValueBridge
