import SourceEditor.Proofs.Session.Steps
import SourceEditor.Proofs.Session.Surfaces
import Mathlib.Data.List.DropRight

/-!
# Edits since the text was saved

A session has a flag that tells whether its text has been edited since it was saved. A text counts
as saved when a session starts, when the text is loaded and when the session is told so. What the
flag should say hangs on the operations alone: `sinceSaved` are those after the last one that saves,
and the flag is to be set if one of them has made an edit.

One step sets the flag exactly if it changes the text, and clears it exactly if it saves
(`Step.edited_iff`, `Step.edited_of_saves`). The flag of a run follows by adding one operation after
the other at the end. It does not matter how many edits the history can hold.
-/

namespace SourceEditor

/-! ## The last time that a text was saved -/

namespace Operation

/-- The operations up to the last one that saves, with that one. -/
def untilSaved (operations : List Operation) : List Operation :=
  operations.rdropWhile fun operation => !operation.saves

/-- The operations after the last one that saves. -/
def sinceSaved (operations : List Operation) : List Operation :=
  operations.rtakeWhile fun operation => !operation.saves

variable (operations : List Operation) {operation : Operation}

theorem untilSaved_append_sinceSaved :
    untilSaved operations ++ sinceSaved operations = operations :=
  List.rdropWhile_append_rtakeWhile

theorem untilSaved_concat_of_saves (h : operation.saves = true) :
    untilSaved (operations ++ [operation]) = operations ++ [operation] :=
  List.rdropWhile_concat_neg _ _ _ (by simp [h])

theorem sinceSaved_concat_of_saves (h : operation.saves = true) :
    sinceSaved (operations ++ [operation]) = [] :=
  List.rtakeWhile_concat_neg _ _ _ (by simp [h])

theorem untilSaved_concat (h : operation.saves = false) :
    untilSaved (operations ++ [operation]) = untilSaved operations :=
  List.rdropWhile_concat_pos _ _ _ (by simp [h])

theorem sinceSaved_concat (h : operation.saves = false) :
    sinceSaved (operations ++ [operation]) = sinceSaved operations ++ [operation] :=
  List.rtakeWhile_concat_pos _ _ _ (by simp [h])

end Operation

namespace Session

open Operation (untilSaved sinceSaved)

theorem run_concat {D : Type} [Surface D] (java : ExternalParser) (operations : List Operation)
    (operation : Operation) (s : Session D) :
    run java (operations ++ [operation]) s =
      (perform java operation).final (run java operations s) :=
  List.foldl_concat _ _ _ _

/-! ## One step -/

section Step

variable {java : ExternalParser} {s t : Session MemoryDocument} {operation : Operation}

theorem Step.edited_iff (hstep : Step java s operation t) (hsaves : operation.saves = false) :
    t.history.edited = true ↔ s.history.edited = true ∨ operation.Changes s := by
  cases hstep with
  | still hchanges _ hstill => rw [hstill.history_eq, or_iff_left hchanges]
  | change hchanges hchanged => exact iff_of_true hchanged.edited_eq (Or.inr hchanges)
  | load text _ => cases hsaves
  | highlight hchanges _ _ hedited _ => rw [hedited, or_iff_left hchanges]
  | parse => exact (or_iff_left id).symm
  | save => cases hsaves

theorem Step.edited_of_saves (hstep : Step java s operation t) (hsaves : operation.saves = true) :
    t.history.edited = false := by
  cases hstep with
  | still _ hnot _ | highlight _ hnot _ _ _ => exact absurd hsaves (Bool.eq_false_iff.mp hnot)
  | change hchanges _ =>
    exact absurd hsaves (Bool.eq_false_iff.mp (Operation.saves_eq_false_of_changes hchanges))
  | load text hloaded => rw [hloaded.history_eq]
  | parse => cases hsaves
  | save => rfl

/-- The operations that make an edit are those that lead to another text, but for loading one. -/
theorem Step.changes_iff (hstep : Step java s operation t)
    (hload : ∀ text, operation ≠ .load text) :
    operation.Changes s ↔ t.buffer.text ≠ s.buffer.text := by
  cases hstep with
  | still hchanges _ hstill => exact iff_of_false hchanges (not_not.mpr hstill.text_eq)
  | change hchanges hchanged => exact iff_of_true hchanges hchanged.text_ne
  | load text _ => exact absurd rfl (hload text)
  | highlight hchanges _ htext _ _ => exact iff_of_false hchanges (not_not.mpr htext)
  | parse => exact iff_of_false id (not_not.mpr rfl)
  | save => exact iff_of_false id (not_not.mpr rfl)

theorem Step.text_eq (hstep : Step java s operation t) (hsaves : operation.saves = false)
    (hchanges : ¬ operation.Changes s) : t.buffer.text = s.buffer.text := by
  have hload : ∀ text, operation ≠ .load text := by
    rintro text rfl
    cases hsaves
  by_contra htext
  exact hchanges ((hstep.changes_iff hload).mpr htext)

end Step

/-! ## A run -/

section Run

variable {D : Type} [Surface D]

/-- One of the operations that come after others makes an edit. -/
def MakesEdit (java : ExternalParser) (s : Session D) (before after : List Operation) : Prop :=
  ∃ front operation back, after = front ++ operation :: back ∧
    operation.Changes (run java (before ++ front) s)

theorem not_makesEdit_nil (java : ExternalParser) (s : Session D) (before : List Operation) :
    ¬ MakesEdit java s before [] := by
  rintro ⟨front, operation, back, hnil, -⟩
  exact absurd hnil.symm (List.append_ne_nil_of_right_ne_nil front (List.cons_ne_nil _ _))

theorem makesEdit_concat (java : ExternalParser) (s : Session D) (before after : List Operation)
    (operation : Operation) :
    MakesEdit java s before (after ++ [operation]) ↔
      MakesEdit java s before after ∨ operation.Changes (run java (before ++ after) s) := by
  constructor
  · rintro ⟨front, changing, back, hsplit, hchanges⟩
    rcases List.eq_nil_or_concat back with rfl | ⟨back, last, rfl⟩
    · obtain ⟨rfl, hlast⟩ := List.append_inj' hsplit rfl
      cases hlast
      exact Or.inr hchanges
    · rw [List.concat_eq_append, ← List.cons_append, ← List.append_assoc] at hsplit
      exact Or.inl ⟨front, changing, back, (List.append_inj' hsplit rfl).1, hchanges⟩
  · rintro (⟨front, changing, back, rfl, hchanges⟩ | hchanges)
    · exact ⟨front, changing, back ++ [operation], List.append_assoc _ _ _, hchanges⟩
    · exact ⟨after, operation, [], rfl, hchanges⟩

/-- The flag of edits is right after a run. -/
structure FlagRight (java : ExternalParser) (s : Session D) (operations : List Operation) :
    Prop where
  /-- The flag is set exactly if an edit was made since the text was last saved. -/
  edited_iff : (run java operations s).history.edited = true ↔
    MakesEdit java s (untilSaved operations) (sinceSaved operations)
  /-- Whatever operation comes next, it makes an edit exactly if it leads to another text, unless it
  loads one. -/
  changes_iff : ∀ operation, (∀ text, operation ≠ .load text) →
    (operation.Changes (run java operations s) ↔
      (run java (operations ++ [operation]) s).buffer.text ≠ (run java operations s).buffer.text)
  /-- While the flag is not set, the text is the one that was last saved. -/
  text_eq : (run java operations s).history.edited = false →
    (run java operations s).buffer.text = (run java (untilSaved operations) s).buffer.text

end Run

variable {java : ExternalParser} {timeline : Timeline} {s : Session MemoryDocument}

theorem Sound.edited_run_iff (h : Sound java timeline s) (hs : s.history.edited = false)
    (operations : List Operation) :
    (Session.run java operations s).history.edited = true ↔
      MakesEdit java s (untilSaved operations) (sinceSaved operations) := by
  induction operations using List.reverseRecOn with
  | nil => exact iff_of_false (Bool.eq_false_iff.mp hs) (not_makesEdit_nil java s _)
  | append_singleton operations operation ih =>
    have hstep := (h.run operations).step operation
    rw [run_concat]
    cases hsaves : operation.saves with
    | true =>
      rw [Operation.sinceSaved_concat_of_saves operations hsaves]
      exact iff_of_false (Bool.eq_false_iff.mp (hstep.edited_of_saves hsaves))
        (not_makesEdit_nil java s _)
    | false =>
      rw [hstep.edited_iff hsaves, ih, Operation.untilSaved_concat operations hsaves,
        Operation.sinceSaved_concat operations hsaves, makesEdit_concat,
        Operation.untilSaved_append_sinceSaved]

theorem Sound.text_run_of_unedited (h : Sound java timeline s) (operations : List Operation)
    (hunedited : (Session.run java operations s).history.edited = false) :
    (Session.run java operations s).buffer.text =
      (Session.run java (untilSaved operations) s).buffer.text := by
  induction operations using List.reverseRecOn with
  | nil => rfl
  | append_singleton operations operation ih =>
    have hstep := (h.run operations).step operation
    cases hsaves : operation.saves with
    | true => rw [Operation.untilSaved_concat_of_saves operations hsaves]
    | false =>
      rw [run_concat] at hunedited
      have hquiet := mt (hstep.edited_iff hsaves).mpr (Bool.eq_false_iff.mp hunedited)
      obtain ⟨hbefore, hchanges⟩ := not_or.mp hquiet
      rw [run_concat, hstep.text_eq hsaves hchanges, ih (Bool.eq_false_iff.mpr hbefore),
        Operation.untilSaved_concat operations hsaves]

theorem flagRight_of_start {options : Options} (h : start ({} : MemoryDocument) options = .ok s)
    (operations : List Operation) : FlagRight java s operations := by
  have hsound : Sound java {} s := sound_of_start h
  refine ⟨?_, ?_, hsound.text_run_of_unedited operations⟩
  · obtain ⟨policy, -, rfl⟩ := exists_fresh_of_start h
    exact hsound.edited_run_iff rfl operations
  · intro operation hload
    rw [run_concat]
    exact ((hsound.run operations).step operation).changes_iff hload

/-! ## On a terminal -/

theorem changes_shown (operation : Operation) :
    operation.Changes s.shown ↔ operation.Changes s := by
  cases operation <;> exact Iff.rfl

theorem FlagRight.shown {operations : List Operation} (h : FlagRight java s operations)
    {t : Session TerminalDocument}
    (hrun : ∀ operations, run java operations t = (run java operations s).shown) :
    FlagRight java t operations where
  edited_iff := by
    simp only [MakesEdit, hrun, changes_shown]
    exact h.edited_iff
  changes_iff operation hload := by
    simp only [hrun, changes_shown]
    exact h.changes_iff operation hload
  text_eq hunedited := by
    simp only [hrun] at hunedited ⊢
    exact h.text_eq hunedited

/-- **The flag of edits is right** after any operations, over a document in memory or on a terminal,
whatever the limit of the history. -/
theorem edited_run (java : ExternalParser) (options : Options) (operations : List Operation) :
    (∀ s, start ({} : MemoryDocument) options = .ok s → FlagRight java s operations) ∧
      ∀ t, start ({} : TerminalDocument) options = .ok t → FlagRight java t operations := by
  constructor
  · intro s hs
    exact flagRight_of_start hs operations
  · intro t ht
    obtain ⟨s, hs, hrun⟩ := exists_start_of_terminal java ht
    exact (flagRight_of_start hs operations).shown hrun

/-- With no room for edits in the history, an insertion cannot be taken back. After the text is
saved an insertion fails and there is nothing to take back, until a line is opened. -/
theorem edited_run_without_history :
    let options : Options := { undoLimit := 0 }
    let saved : List Operation := [.insert 0 ['x'], .undo, .markSaved]
    let quiet := saved ++ [.insert 9 ['y'], .undo]
    let s := fresh options {}
    start ({} : MemoryDocument) options = .ok s ∧
      start ({} : TerminalDocument) options = .ok s.shown ∧
      (run noJavaParts quiet s).history.edited = false ∧
      (run noJavaParts quiet s).buffer.text = (run noJavaParts saved s).buffer.text ∧
      (run noJavaParts (quiet ++ [.nextLine]) s.shown).history.edited = true := by
  intro options saved quiet s
  have hquiet := (edited_run noJavaParts options quiet).1 s rfl
  have hedited := (edited_run noJavaParts options (quiet ++ [.nextLine])).2 s.shown rfl
  have hunedited : (run noJavaParts quiet s).history.edited = false := by decide +kernel
  refine ⟨rfl, rfl, hunedited, hquiet.text_eq hunedited, hedited.edited_iff.mpr ?_⟩
  exact ⟨[.insert 9 ['y'], .undo], .nextLine, [], rfl, trivial⟩

end Session

end SourceEditor
