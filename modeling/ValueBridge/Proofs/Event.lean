import ValueBridge.Event
import ValueBridge.Proofs.Text.Index

/-!
# Traces

The *traces* of a log are its events of the last level, in order (`Event.traces`). There are two
kinds of them: a slot is taken, or it is freed (`Event.trace_cases`). The text of a trace tells
which, of which slot, and with which tag (`Event.text_injective`).

The last of the traces about a slot is the *latest* one (`Event.latest?`).
-/

namespace ValueBridge

theorem Tag.title_injective {tag tag' : Tag} (h : tag.title = tag'.title) : tag = tag' := by
  cases tag <;> cases tag' <;> first | rfl | exact absurd h (by decide)

namespace Event

/-- The events of a log of the level of traces. -/
def traces (log : Array Event) : List Event :=
  log.toList.filter (·.level = .trace)

/-- Whether the event is that a slot is taken. -/
def isAllocation : Event → Bool
  | .slotAllocated _ _ => true
  | _ => false

/-- Whether the event is that a slot is freed. -/
def isRelease : Event → Bool
  | .slotReleased _ => true
  | _ => false

/-- Whether the event is that the slot is taken or freed. -/
def concerns (id : UInt32) : Event → Bool
  | .slotAllocated id' _ => id' == id
  | .slotReleased id' => id' == id
  | _ => false

/-- The last of the events that concern a slot, if there is one. -/
def latest? (id : UInt32) (events : List Event) : Option Event :=
  events.reverse.find? (concerns id)

variable {e e' : Event} {id : UInt32} {log : Array Event} {events : List Event}

theorem traces_push (log : Array Event) (e : Event) :
    traces (log.push e) = traces log ++ traces #[e] := by
  rw [traces, Array.toList_push, List.filter_append]
  rfl

theorem traces_push_of_ne (h : e.level ≠ .trace) : traces (log.push e) = traces log := by
  have hnone : traces #[e] = [] :=
    List.filter_eq_nil_iff.2 (List.forall_mem_singleton.2 (by rwa [decide_eq_true_eq]))
  rw [traces_push, hnone, List.append_nil]

theorem level_of_mem_traces (h : e ∈ traces log) : e.level = .trace :=
  of_decide_eq_true (List.mem_filter.1 h).2

theorem latest?_concat_of_concerns (h : e.concerns id = true) :
    latest? id (events ++ [e]) = some e := by
  rw [latest?, List.reverse_concat, List.find?_cons_of_pos h]

theorem latest?_concat_of_not (h : e.concerns id = false) :
    latest? id (events ++ [e]) = latest? id events := by
  rw [latest?, List.reverse_concat, List.find?_cons_of_neg (Bool.eq_false_iff.1 h), latest?]

/-! ## Texts -/

/-- A trace is of one of two kinds. -/
theorem trace_cases (h : e.level = .trace) :
    (∃ id tag, e = .slotAllocated id tag) ∨ ∃ id, e = .slotReleased id := by
  cases e with
  | slotAllocated id tag => exact .inl ⟨id, tag, rfl⟩
  | slotReleased id => exact .inr ⟨id, rfl⟩
  | _ => cases h

/-- A numeral is told from what follows it after a blank. -/
theorem toDigits_append_inj {n m : Nat} {cs ds : List Char}
    (h : Nat.toDigits 10 n ++ ' ' :: cs = Nat.toDigits 10 m ++ ' ' :: ds) : n = m ∧ cs = ds := by
  have hdigit (k : Nat) : ∀ c ∈ Nat.toDigits 10 k, c.isDigit = true :=
    fun c hc => Nat.isDigit_of_mem_toDigits (by decide) (by decide) hc
  have htake := congrArg (List.takeWhile Char.isDigit) h
  rw [List.takeWhile_append_of_pos (hdigit n), List.takeWhile_append_of_pos (hdigit m),
    List.takeWhile_cons_of_neg (by decide), List.takeWhile_cons_of_neg (by decide),
    List.append_nil, List.append_nil] at htake
  rw [htake, List.append_cancel_left_eq, List.cons.injEq] at h
  refine ⟨?_, h.2⟩
  rw [← Nat.ofDigitChars_ten_toDigits (n := n), htake, Nat.ofDigitChars_ten_toDigits]

theorem toList_text_slotAllocated (id : UInt32) (tag : Tag) :
    (slotAllocated id tag).text.toList = "slot ".toList ++
      (Nat.toDigits 10 id.toNat ++
        ' ' :: ("allocated (".toList ++ (tag.title.toList ++ [')']))) := by
  have htext : (slotAllocated id tag).text =
      "slot " ++ toString id.toNat ++ " allocated (" ++ tag.title ++ ")" := rfl
  have hblank : " allocated (".toList = ' ' :: "allocated (".toList := by decide
  have hend : ")".toList = [')'] := by decide
  simp only [htext, String.toList_append, Nat.toString_eq_ofList_toDigits, String.toList_ofList,
    hblank, hend, List.append_assoc, List.cons_append]

theorem toList_text_slotReleased (id : UInt32) :
    (slotReleased id).text.toList =
      "slot ".toList ++ (Nat.toDigits 10 id.toNat ++ ' ' :: "released".toList) := by
  have htext : (slotReleased id).text = "slot " ++ toString id.toNat ++ " released" := rfl
  have hblank : " released".toList = ' ' :: "released".toList := by decide
  simp only [htext, String.toList_append, Nat.toString_eq_ofList_toDigits, String.toList_ofList,
    hblank, List.append_assoc]

/-- Traces of one text are one. -/
theorem text_injective (he : e.level = .trace) (he' : e'.level = .trace) (h : e.text = e'.text) :
    e = e' := by
  have hlist := congrArg String.toList h
  rcases trace_cases he with ⟨id, tag, rfl⟩ | ⟨id, rfl⟩ <;>
    rcases trace_cases he' with ⟨id', tag', rfl⟩ | ⟨id', rfl⟩ <;>
    simp only [toList_text_slotAllocated, toList_text_slotReleased,
      List.append_cancel_left_eq] at hlist <;>
    obtain ⟨hid, hrest⟩ := toDigits_append_inj hlist
  · rw [List.append_cancel_left_eq, List.append_cancel_right_eq, String.toList_inj] at hrest
    rw [UInt32.toNat_inj.1 hid, Tag.title_injective hrest]
  · cases hrest
  · cases hrest
  · rw [UInt32.toNat_inj.1 hid]

end Event

end ValueBridge
