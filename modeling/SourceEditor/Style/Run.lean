import SourceEditor.Style.Basic

/-!
# Runs of equal styles

A text in which characters may have styles is painted run by run. `Run.ofSlots` gives the maximal
runs of characters that have one and the same style; characters without a style are in no run.
-/

namespace SourceEditor

/-- Characters next to each other with the same style. -/
structure Run where
  start : Nat
  count : Nat
  style : Style
  deriving DecidableEq, Repr

namespace Run

/-- The offset just past a run. -/
def stop (r : Run) : Nat := r.start + r.count

/-- Puts a styled character at `start` in front of runs that begin after it. -/
def cons (start : Nat) (style : Style) : List Run → List Run
  | [] => [⟨start, 1, style⟩]
  | r :: rs =>
    if r.start = start + 1 ∧ r.style = style then ⟨start, r.count + 1, style⟩ :: rs
    else ⟨start, 1, style⟩ :: r :: rs

/-- The maximal runs of a text whose first character has offset `start`. -/
def ofSlots (start : Nat) : List (Option Style) → List Run
  | [] => []
  | none :: slots => ofSlots (start + 1) slots
  | some style :: slots => cons start style (ofSlots (start + 1) slots)

/-- The part of a run that lies before `limit`. -/
def clip? (limit : Nat) (r : Run) : Option Run :=
  if r.start < min r.stop limit then some { r with count := min r.stop limit - r.start } else none

end Run

end SourceEditor
