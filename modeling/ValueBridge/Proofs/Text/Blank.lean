import Mathlib.Data.List.TakeWhile
import ValueBridge.Value.Number

/-!
# Texts without blanks at their ends

What it is for a text to be another one without the blanks at its start and its end
(`Text.IsTrimmed`). Every text has one such text, which trimming gives (`Text.isTrimmed_iff`).
-/

namespace ValueBridge.Text

variable {cs t : List Char}

/-- The text is another one without the blanks at its start and its end. -/
structure IsTrimmed (cs t : List Char) : Prop where
  blanks : ∃ before after, cs = before ++ (t ++ after) ∧
    (∀ c ∈ before, isBlank c = true) ∧ ∀ c ∈ after, isBlank c = true
  head : ∀ c ∈ t.head?, isBlank c = false
  last : ∀ c ∈ t.getLast?, isBlank c = false

theorem dropWhile_blanks {before rest : List Char} (hbefore : ∀ c ∈ before, isBlank c = true)
    (hrest : ∀ c ∈ rest.head?, isBlank c = false) : (before ++ rest).dropWhile isBlank = rest := by
  rw [List.dropWhile_append_of_pos hbefore]
  cases rest with
  | nil => rfl
  | cons c rest => exact List.dropWhile_cons_of_neg (Bool.eq_false_iff.1 (hrest c rfl))

theorem isBlank_head_dropWhile (cs : List Char) :
    ∀ c ∈ (cs.dropWhile isBlank).head?, isBlank c = false := by
  intro c hc
  have := List.head?_dropWhile_not isBlank cs
  rwa [Option.mem_def.1 hc] at this

theorem exists_blanks (cs : List Char) :
    ∃ before, cs = before ++ cs.dropWhile isBlank ∧ ∀ c ∈ before, isBlank c = true :=
  ⟨cs.takeWhile isBlank, List.takeWhile_append_dropWhile.symm,
    fun _ hc => List.mem_takeWhile_imp hc⟩

theorem trim_of_isTrimmed (h : IsTrimmed cs t) : trim cs = t := by
  obtain ⟨⟨before, after, rfl, hbefore, hafter⟩, hhead, hlast⟩ := h
  cases t with
  | nil =>
    have hblank : ∀ c ∈ before ++ after, isBlank c = true :=
      List.forall_mem_append.2 ⟨hbefore, hafter⟩
    rw [trim, List.nil_append, List.dropWhile_eq_nil_iff.2 hblank]
    rfl
  | cons c t =>
    have hfront : (before ++ (c :: t ++ after)).dropWhile isBlank = c :: t ++ after :=
      dropWhile_blanks hbefore hhead
    have hback : (c :: t ++ after).reverse.dropWhile isBlank = (c :: t).reverse := by
      rw [List.reverse_append]
      refine dropWhile_blanks (fun c hc => hafter c (List.mem_reverse.1 hc)) ?_
      rwa [List.head?_reverse]
    rw [trim, hfront, hback, List.reverse_reverse]

theorem isTrimmed_trim (cs : List Char) : IsTrimmed cs (trim cs) := by
  obtain ⟨before, hcs, hbefore⟩ := exists_blanks cs
  obtain ⟨after, hrest, hafter⟩ := exists_blanks (cs.dropWhile isBlank).reverse
  have hsplit : cs.dropWhile isBlank = trim cs ++ after.reverse := by
    rw [trim, ← List.reverse_append, ← hrest, List.reverse_reverse]
  have hafter' : ∀ c ∈ after.reverse, isBlank c = true := fun c hc =>
    hafter c (List.mem_reverse.1 hc)
  refine ⟨⟨before, after.reverse, ?_, hbefore, hafter'⟩, ?_, ?_⟩
  · rw [← hsplit, ← hcs]
  · intro c hc
    refine isBlank_head_dropWhile cs c ?_
    rw [hsplit, List.head?_append, Option.mem_def.1 hc]
    rfl
  · rw [trim, List.getLast?_reverse]
    exact isBlank_head_dropWhile _

/-- A text has one without the blanks at its ends. -/
theorem isTrimmed_iff : IsTrimmed cs t ↔ t = trim cs :=
  ⟨fun h => (trim_of_isTrimmed h).symm, fun h => h ▸ isTrimmed_trim cs⟩

theorem isTrimmed_self (h : ∀ c ∈ t, isBlank c = false) : IsTrimmed t t where
  blanks := ⟨[], [], (List.append_nil t).symm, fun _ hc => (nomatch hc), fun _ hc => (nomatch hc)⟩
  head c hc := h c (List.mem_of_mem_head? hc)
  last c hc := h c (List.mem_of_mem_getLast? hc)

theorem trim_eq_self (h : ∀ c ∈ cs, isBlank c = false) : trim cs = cs :=
  trim_of_isTrimmed (isTrimmed_self h)

end ValueBridge.Text
