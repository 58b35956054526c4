/-!
# Runs

A *run* takes one step after the other (`List.foldl`). What every step preserves holds at
the end of a run, which is how all facts about runs are proved (`foldl_invariant`,
`Throughout.foldl`).
-/

namespace ValueBridge

variable {S X : Type} {next : S → X → S} {P : S → X → Prop} {I : S → Prop} {s : S} {xs : List X}

/-- What holds of every step of a run, in the state that it finds. -/
def Throughout (next : S → X → S) (P : S → X → Prop) : S → List X → Prop
  | _, [] => True
  | s, x :: xs => P s x ∧ Throughout next P (next s x) xs

theorem Throughout.append_iff {ys : List X} :
    Throughout next P s (xs ++ ys) ↔
      Throughout next P s xs ∧ Throughout next P (xs.foldl next s) ys := by
  induction xs generalizing s with
  | nil => rw [List.nil_append, Throughout, true_and, List.foldl_nil]
  | cons x xs ih => exact (and_congr_right fun _ => ih).trans and_assoc.symm

/-- One step more at the end of a run. -/
theorem Throughout.concat_iff {x : X} :
    Throughout next P s (xs ++ [x]) ↔ Throughout next P s xs ∧ P (xs.foldl next s) x :=
  append_iff.trans (and_congr_right fun _ => and_iff_left trivial)

/-- There is a last step of which `P` holds, unless it holds of none. -/
theorem throughout_not_or_exists_last (next : S → X → S) (P : S → X → Prop) (s : S)
    (xs : List X) :
    Throughout next (fun s x => ¬P s x) s xs ∨
      ∃ before x after, xs = before ++ [x] ++ after ∧ P (before.foldl next s) x ∧
        Throughout next (fun s x => ¬P s x) ((before ++ [x]).foldl next s) after := by
  induction xs generalizing s with
  | nil => exact .inl trivial
  | cons x xs ih =>
    rcases ih (next s x) with hnone | ⟨before, y, after, rfl, hy, hafter⟩
    · by_cases hx : P s x
      · exact .inr ⟨[], x, xs, rfl, hx, hnone⟩
      · exact .inl ⟨hx, hnone⟩
    · exact .inr ⟨x :: before, y, after, rfl, hy, hafter⟩

/-- A property is preserved by a run if it is by the steps of which `P` holds. -/
theorem Throughout.foldl (hsteps : Throughout next P s xs)
    (hstep : ∀ s x, I s → P s x → I (next s x)) (hs : I s) : I (xs.foldl next s) := by
  induction xs generalizing s with
  | nil => exact hs
  | cons x xs ih => exact ih hsteps.2 (hstep s x hs hsteps.1)

/-- A property that every step preserves is preserved by every run. -/
theorem foldl_invariant (hstep : ∀ s x, I s → I (next s x)) (hs : I s) (xs : List X) :
    I (xs.foldl next s) := by
  induction xs generalizing s with
  | nil => exact hs
  | cons x xs ih => exact ih (hstep s x hs)

end ValueBridge
