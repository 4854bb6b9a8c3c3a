import SourceEditor.Proofs.Session.Failure
import SourceEditor.Proofs.Session.Surfaces
import SourceEditor.Proofs.Text.Lines

/-!
# Operations on lines

Three operations work on the line of the caret: one opens a line after it, one opens a line before
it, and one breaks it at the caret. As operations on offsets they put a newline at the end of the
line, at its start, or at the caret, and set the caret. `Session.LineOperations` says what they do
to the list of lines, and `Session.lines_run` shows it for every session that can be reached.

All three are one operation on the text, a newline at an offset of the line (`exists_breakLine_eq`).
What it makes of the lines follows from what there is around that offset.
-/

namespace SourceEditor.Session

section Spec

variable {D : Type}

/-- The lines of the text. -/
def lines (s : Session D) : List (List Char) := s.buffer.text.splitOn '\n'

/-- The place of the caret. -/
def place (s : Session D) : Place := placeAt s.buffer.text s.buffer.caret

variable [Surface D]

/-- The session `t` has one line more than the session `s`, by an edit that can be taken back. -/
structure LineAdded (java : ExternalParser) (s t : Session D) : Prop where
  lineCount_eq : t.lineCount = s.lineCount + 1
  redos_eq : t.history.redos = []
  take_back : 0 < s.options.undoLimit → ∃ u, undo java t = .ok () u ∧
    u.buffer.text = s.buffer.text

/-- What the three operations do to the lines. -/
structure LineOperations (java : ExternalParser) (s : Session D) : Prop where
  next_line : ∃ t, nextLine java s = .ok () t ∧ LineAdded java s t ∧
    t.lines = s.lines.insertIdx (s.place.line + 1) [] ∧ t.place = ⟨s.place.line + 1, 0⟩
  line_before : ∃ t, newLineBefore java s = .ok () t ∧ LineAdded java s t ∧
    t.lines = s.lines.insertIdx s.place.line [] ∧ t.place = ⟨s.place.line, 0⟩
  split_line : ∃ t line, splitLine java s = .ok () t ∧ LineAdded java s t ∧
    s.lines[s.place.line]? = some line ∧ s.place.column ≤ line.length ∧
    t.lines = s.lines.take s.place.line ++
      line.take s.place.column :: line.drop s.place.column :: s.lines.drop (s.place.line + 1) ∧
    t.buffer.caret = s.buffer.caret

end Spec

variable {java : ExternalParser} {s : Session MemoryDocument}

/-! ## A newline at an offset -/

/-- A newline inside the text adds a line. -/
theorem exists_breakLine_eq (h : Coherent java s) (message : String) (offset caret : Buffer → Nat)
    (hoffset : offset s.buffer ≤ s.buffer.length)
    (hcaret : caret s.buffer ≤ s.buffer.length + 1) :
    ∃ t, breakLine java message offset caret s = .ok () t ∧ LineAdded java s t ∧
      t.buffer.text = s.buffer.text.take (offset s.buffer) ++ ['\n'] ++
        s.buffer.text.drop (offset s.buffer) ∧
      t.buffer.caret = caret s.buffer := by
  obtain ⟨place, heq⟩ := breakLine_eq h message offset caret hoffset hcaret
  have hmakes := Edit.insert_makes (h.length_eq ▸ hoffset) ['\n']
  have htext := Buffer.text_edited hmakes
  have hcoherent := (h.evolves_breakLine message offset caret).1
  rw [Update.final_of_ok heq] at hcoherent
  refine ⟨_, heq, ⟨?_, rfl, fun hlimit => ?_⟩, htext, rfl⟩
  · have hcount : (s.buffer.text.take (offset s.buffer) ++ ['\n'] ++
        s.buffer.text.drop (offset s.buffer)).count '\n' = s.buffer.text.count '\n' + 1 := by
      rw [List.count_append, List.count_append, List.count_singleton_self, Nat.add_right_comm,
        ← List.count_append, List.take_append_drop]
    have hlines := hcoherent.lineCount_eq_count
    rw [h.lineCount_eq_count, hlines]
    exact congrArg (1 + ·) ((congrArg _ htext).trans hcount)
  · obtain ⟨u, hundo, hu, -⟩ := undo_of_record hcoherent.toAligned rfl (h.limit_eq ▸ hlimit)
      (htext ▸ hmakes)
    exact ⟨u, hundo, hu⟩

/-! ## The three operations -/

section Operations

variable {above : List (List Char)} {left right : List Char} {below : List (List Char)}
  (h : Coherent java s)
  (haround : LinesAround s.buffer.text s.buffer.caret above left right below)
include h haround

/-- The end of the line is as good as the caret, and behind the newline there is an empty line. -/
theorem exists_nextLine_eq :
    ∃ t, nextLine java s = .ok () t ∧ LineAdded java s t ∧
      t.lines = above ++ (left ++ right) :: [] :: below ∧ t.place = ⟨above.length + 1, 0⟩ := by
  have hstop := haround.lineStop_eq rfl h.length_eq (h.length_eq ▸ h.caret_le)
  have hle := Buffer.lineStop_le h.length_eq s.buffer.caret
  obtain ⟨t, heq, hadded, htext, hcaret⟩ := exists_breakLine_eq h "Started new line"
    (fun b => b.lineStop b.caret) (fun b => b.lineStop b.caret + 1) hle (Nat.succ_le_succ hle)
  rw [hstop] at htext hcaret hle
  refine ⟨t, heq, hadded, ?_, ?_⟩
  · rw [lines, htext, haround.at_lineStop.splitOn_break]
  · have hafter := haround.at_lineStop.after_break (h.length_eq ▸ hle)
    rw [place, htext, hcaret, hafter.placeAt_eq, List.length_append]
    rfl

theorem exists_newLineBefore_eq :
    ∃ t, newLineBefore java s = .ok () t ∧ LineAdded java s t ∧
      t.lines = above ++ [] :: (left ++ right) :: below ∧ t.place = ⟨above.length, 0⟩ := by
  have hroom := h.length_eq ▸ h.caret_le
  have hstart := haround.lineStart_eq rfl hroom
  have hle := (s.buffer.lineStart_le s.buffer.caret).trans h.caret_le
  obtain ⟨t, heq, hadded, htext, hcaret⟩ :=
    exists_breakLine_eq h "Started new line before current line" (fun b => b.lineStart b.caret)
      (fun b => b.lineStart b.caret) hle (Nat.le_succ_of_le hle)
  rw [hstart] at htext hcaret hle
  have hat := haround.at_lineStart hroom
  refine ⟨t, heq, hadded, ?_, ?_⟩
  · rw [lines, htext, hat.splitOn_break]
  · rw [place, htext, hcaret, (hat.before_break (h.length_eq ▸ hle)).placeAt_eq]
    rfl

theorem exists_splitLine_eq :
    ∃ t, splitLine java s = .ok () t ∧ LineAdded java s t ∧
      t.lines = above ++ left :: right :: below ∧ t.buffer.caret = s.buffer.caret := by
  obtain ⟨t, heq, hadded, htext, hcaret⟩ := exists_breakLine_eq h "Split new line" Buffer.caret
    Buffer.caret h.caret_le (Nat.le_succ_of_le h.caret_le)
  refine ⟨t, heq, hadded, ?_, hcaret⟩
  rw [lines, htext, haround.splitOn_break]

end Operations

theorem Coherent.lineOperations (h : Coherent java s) : LineOperations java s := by
  obtain ⟨above, left, right, below, haround⟩ := exists_linesAround s.buffer.text s.buffer.caret
  have hlines : s.lines = above ++ (left ++ right) :: below := haround.splitOn_eq
  have hplace : s.place = ⟨above.length, left.length⟩ := haround.placeAt_eq
  constructor <;> rw [hlines, hplace]
  case next_line =>
    have hinsert := insertIdx_append_length (above ++ [left ++ right]) below []
    rw [List.length_append, List.append_assoc, List.append_assoc] at hinsert
    obtain ⟨t, heq, hadded, ht, hcaret⟩ := exists_nextLine_eq h haround
    exact ⟨t, heq, hadded, ht.trans hinsert.symm, hcaret⟩
  case line_before =>
    obtain ⟨t, heq, hadded, ht, hcaret⟩ := exists_newLineBefore_eq h haround
    exact ⟨t, heq, hadded, ht.trans (insertIdx_append_length _ _ _).symm, hcaret⟩
  case split_line =>
    obtain ⟨t, heq, hadded, ht, hcaret⟩ := exists_splitLine_eq h haround
    refine ⟨t, left ++ right, heq, hadded, ?_, ?_, ?_, hcaret⟩
    · simp
    · simp
    · rw [ht]
      simp

/-! ## All sessions -/

theorem LineAdded.shown {t : Session MemoryDocument} (h : LineAdded java s t) (ht : Aligned t) :
    LineAdded java s.shown t.shown where
  lineCount_eq := h.lineCount_eq
  redos_eq := h.redos_eq
  take_back hlimit := by
    obtain ⟨u, hundo, hu⟩ := h.take_back hlimit
    exact ⟨u.shown, undo_shown ht hundo, hu⟩

theorem LineOperations.shown (h : LineOperations java s) (hs : Aligned s) :
    LineOperations java s.shown := by
  have hbreak (message : String) (offset caret : Buffer → Nat) {t : Session MemoryDocument} :=
    ok_shown (t := t) ((lockStep_shownBy java).breakLine ⟨hs, rfl⟩ message offset caret)
  constructor
  · obtain ⟨t, heq, hadded, ht⟩ := h.next_line
    obtain ⟨haligned, hshown⟩ := hbreak _ _ _ heq
    exact ⟨t.shown, hshown, hadded.shown haligned, ht⟩
  · obtain ⟨t, heq, hadded, ht⟩ := h.line_before
    obtain ⟨haligned, hshown⟩ := hbreak _ _ _ heq
    exact ⟨t.shown, hshown, hadded.shown haligned, ht⟩
  · obtain ⟨t, line, heq, hadded, ht⟩ := h.split_line
    obtain ⟨haligned, hshown⟩ := hbreak _ _ _ heq
    exact ⟨t.shown, line, hshown, hadded.shown haligned, ht⟩

/-- **The operations on lines** do to the list of lines what they say, after any operations. -/
theorem lines_run (java : ExternalParser) (options : Options) (operations : List Operation) :
    (∀ s, start ({} : MemoryDocument) options = .ok s →
        LineOperations java (run java operations s)) ∧
      ∀ t, start ({} : TerminalDocument) options = .ok t →
        LineOperations java (run java operations t) := by
  refine forall_run_of_coherent java options operations ?_ ?_
  · intro s h
    exact h.lineOperations
  · intro s h
    exact h.lineOperations.shown h.toAligned

/-- The caret stands on a newline with an empty last line below it. -/
theorem lines_run_on_newline :
    let operations : List Operation := [.load ['a', '\n', 'b', '\n'], .setCaret 3]
    let s := run noJavaParts operations (fresh {} {})
    let t := run noJavaParts operations (fresh {} {}).shown
    start ({} : MemoryDocument) {} = .ok (fresh {} {}) ∧
      start ({} : TerminalDocument) {} = .ok (fresh {} {}).shown ∧
      s.lines = [['a'], ['b'], []] ∧ s.place = ⟨1, 1⟩ ∧
      LineOperations noJavaParts s ∧ LineOperations noJavaParts t := by
  intro operations s t
  have hlines := lines_run noJavaParts {} operations
  exact ⟨rfl, rfl, by decide +kernel, by decide +kernel, hlines.1 _ rfl, hlines.2 _ rfl⟩

end SourceEditor.Session
