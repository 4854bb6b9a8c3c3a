import SourceEditor.Proofs.Session.Lines
import SourceEditor.Proofs.Session.Steps

/-!
# Line comments

A toggle puts a comment mark at the start of the caret's line, or takes it away if the line starts
with one. `Session.CommentToggling` says what comes of it, and of a second toggle, and
`Session.comments_run` shows it for every session that can be reached.

The two are not quite inverse to each other. A mark that was put is always taken away again, but of
two marks in a row the second toggle takes the second one, and none is put back.

What is asked of the text is said by `Session.OnLine`: the text is a line between what comes before
it and what comes behind it, with the caret somewhere on the line. A toggle changes the line only,
so the session after it is on the line again, and a second toggle goes by the same lemmas.
-/

namespace SourceEditor

/-- The mark of a line comment, which is the same in all languages. -/
def commentMark : List Char := ['/', '/']

namespace Session

section Spec

variable {D : Type} [Surface D]

/-- The session `t` comes from the session `s` by one edit, which can be taken back. -/
structure EditedBy (java : ExternalParser) (e : Edit) (s t : Session D) : Prop where
  makes : e.Makes s.buffer.text t.buffer.text
  history_eq : t.history = s.history.record e
  take_back : 0 < s.options.undoLimit → ∃ u, undo java t = .ok () u ∧
    u.buffer.text = s.buffer.text

/-- What a toggle does to the line of the caret, and what a second one does then. -/
structure CommentToggling (java : ExternalParser) (s : Session D) (line : List Char) : Prop where
  line_eq : s.lines[s.place.line]? = some line
  put : ¬ commentMark <+: line → ∃ t u,
    toggleLineComment java s = .ok () t ∧
      EditedBy java ⟨.insert, s.buffer.caret - s.place.column, commentMark⟩ s t ∧
      t.lines = s.lines.set s.place.line (commentMark ++ line) ∧
      t.place = ⟨s.place.line, s.place.column + commentMark.length⟩ ∧
      t.buffer.text.drop t.buffer.caret = s.buffer.text.drop s.buffer.caret ∧
    toggleLineComment java t = .ok () u ∧
      u.buffer.text = s.buffer.text ∧ u.buffer.caret = s.buffer.caret
  take : ∀ rest, line = commentMark ++ rest → ∃ t u,
    toggleLineComment java s = .ok () t ∧
      EditedBy java ⟨.remove, s.buffer.caret - s.place.column, commentMark⟩ s t ∧
      t.lines = s.lines.set s.place.line rest ∧
      t.place = ⟨s.place.line, s.place.column - commentMark.length⟩ ∧
    toggleLineComment java t = .ok () u ∧
      (u.buffer.text = s.buffer.text ↔ ¬ commentMark <+: rest)

end Spec

variable {java : ExternalParser} {s t : Session MemoryDocument} {e : Edit}
  {front left right back after : List Char} {above below : List (List Char)}

/-! ## The line of the caret -/

/-- The caret stands between `left` and `right` on a line. -/
structure OnLine (s : Session MemoryDocument) (front left right back : List Char)
    (above below : List (List Char)) : Prop where
  between : LineBetween front back above below
  left_newline : '\n' ∉ left
  right_newline : '\n' ∉ right
  text_eq : s.buffer.text = front ++ (left ++ right) ++ back
  caret_eq : s.buffer.caret = front.length + left.length

theorem exists_onLine (h : Aligned s) :
    ∃ front left right back above below, OnLine s front left right back above below := by
  obtain ⟨above, left, right, below, haround⟩ := exists_linesAround s.buffer.text s.buffer.caret
  obtain ⟨front, back, hbetween, htext, hcaret⟩ :=
    haround.exists_lineBetween (h.length_eq ▸ h.caret_le)
  exact ⟨front, left, right, back, above, below, hbetween, (last_line_cases haround.front_eq).1,
    (first_line_cases haround.back_eq).1, htext, hcaret⟩

namespace OnLine

variable (h : OnLine s front left right back above below)
include h

theorem linesAround : LinesAround s.buffer.text s.buffer.caret above left right below := by
  rw [h.text_eq, h.caret_eq]
  exact h.between.linesAround h.left_newline h.right_newline

theorem lines_eq : s.lines = above ++ (left ++ right) :: below := h.linesAround.splitOn_eq

theorem place_eq : s.place = ⟨above.length, left.length⟩ := h.linesAround.placeAt_eq

theorem lineStart_eq : s.buffer.lineStart s.buffer.caret = front.length := by
  have hroom : s.buffer.caret ≤ s.buffer.text.length := by
    rw [h.text_eq, h.caret_eq]
    simp only [List.length_append]
    omega
  rw [h.linesAround.lineStart_eq rfl hroom, h.caret_eq, Nat.add_sub_cancel]

theorem drop_eq : s.buffer.text.drop front.length = left ++ right ++ back := by
  rw [h.text_eq, List.append_assoc, List.drop_left]

theorem drop_caret_eq : s.buffer.text.drop s.buffer.caret = right ++ back := by
  rw [h.caret_eq, ← List.drop_drop, h.drop_eq, List.append_assoc, List.drop_left]

/-- Only the line itself can tell two texts apart. -/
theorem text_eq_iff {t : Session MemoryDocument} {left' right' : List Char}
    (ht : OnLine t front left' right' back above below) :
    t.buffer.text = s.buffer.text ↔ left' ++ right' = left ++ right := by
  rw [ht.text_eq, h.text_eq, List.append_left_inj, List.append_right_inj]

theorem isCommented_iff (haligned : Aligned s) : s.IsCommented ↔ commentMark <+: left ++ right := by
  have hstop := h.linesAround.lineStop_eq rfl haligned.length_eq
    (haligned.length_eq ▸ haligned.caret_le)
  have hmark : (s.language.getD .kotlin).lineComment = commentMark :=
    Language.lineComment_eq_slashes _
  simp only [IsCommented, hmark]
  rw [h.lineStart_eq, hstop, h.caret_eq, h.drop_eq, List.prefix_iff_eq_take]
  constructor
  · rintro ⟨hle, htake⟩
    rw [List.take_append_of_le_length (by rw [List.length_append]; omega)] at htake
    exact htake.symm
  · intro htake
    have hle : commentMark.length ≤ (left ++ right).length := by
      rw [htake]
      exact (List.length_take_le' _ _)
    rw [List.take_append_of_le_length hle]
    rw [List.length_append] at hle
    exact ⟨by omega, htake.symm⟩

theorem toggleLineComment_eq (haligned : Aligned s) :
    toggleLineComment java s =
      if commentMark <+: left ++ right then remove java front.length 2 s
      else insert java front.length commentMark s := by
  rw [haligned.toggleLineComment_eq java]
  simp only [h.isCommented_iff haligned, Language.lineComment_eq_slashes, h.lineStart_eq]
  split <;> rfl

end OnLine

/-! ## One toggle -/

/-- The column of the caret grows by the mark that is put before it. -/
theorem caretAfter_insert_mark (start column : Nat) :
    Edit.caretAfter ⟨.insert, start, commentMark⟩ (start + column) =
      start + (commentMark.length + column) := by
  change Buffer.caretAfterInsert (start + column) start commentMark.length = _
  rw [Buffer.caretAfterInsert, if_pos (Nat.le_add_right _ _)]
  omega

/-- A caret inside the mark goes to the start of the line. -/
theorem caretAfter_remove_mark (start column : Nat) :
    Edit.caretAfter ⟨.remove, start, commentMark⟩ (start + column) =
      start + (column - commentMark.length) := by
  change Buffer.caretAfterRemove (start + column) start commentMark.length = _
  rw [Buffer.caretAfterRemove]
  split
  · omega
  · split <;> omega

theorem editedBy_committed (h : Coherent java s) (he : e.Makes s.buffer.text after) {caret : Nat}
    (hcaret : caret ≤ after.length) :
    EditedBy java e s (s.committed java e caret (s.history.record e)) where
  makes := (text_committed he caret _).symm ▸ he
  history_eq := rfl
  take_back hlimit := by
    obtain ⟨u, hundo, hu, -⟩ := undo_of_record (h.toAligned.committed he hcaret _) rfl
      (h.limit_eq ▸ hlimit) ((text_committed he caret _).symm ▸ he)
    exact ⟨u, hundo, hu⟩

theorem coherent_of_toggleLineComment (h : Coherent java s)
    (heq : toggleLineComment java s = .ok () t) : Coherent java t := by
  have hcoherent := h.evolves_toggleLineComment.1
  rwa [Update.final_of_ok heq] at hcoherent

/-- A mark is inserted as it is, and the caret shifts by its length. -/
theorem exists_toggle_of_unmarked (h : Coherent java s)
    (hline : OnLine s front left right back above below)
    (hmark : ¬ commentMark <+: left ++ right) :
    ∃ t, toggleLineComment java s = .ok () t ∧
      EditedBy java ⟨.insert, front.length, commentMark⟩ s t ∧
      OnLine t front (commentMark ++ left) right back above below := by
  have hplan : s.policy.planInsert s.buffer front.length commentMark = ⟨_, commentMark, 0⟩ :=
    s.policy.planInsert_of_two_le s.buffer _ (by decide) (by decide)
  have he : Edit.Makes ⟨.insert, front.length, commentMark⟩ s.buffer.text
      (front ++ (commentMark ++ left ++ right) ++ back) := by
    have := Edit.Makes.insert front commentMark (left ++ right ++ back)
    simpa only [hline.text_eq, List.append_assoc] using this
  have hinsert := insert_of_stays java h.toAligned hplan (List.cons_ne_nil _ _) he (by simp)
  rw [hline.caret_eq, caretAfter_insert_mark, ← List.length_append] at hinsert
  refine ⟨_, ?_, editedBy_committed h he ?_, ⟨hline.between, ?_, hline.right_newline,
    text_committed he _ _, rfl⟩⟩
  · rw [hline.toggleLineComment_eq h.toAligned, if_neg hmark, hinsert]
  · simp only [List.length_append]
    omega
  · simp [commentMark, hline.left_newline]

/-- A mark is removed as it is, from both sides of the caret if need be. -/
theorem exists_toggle_of_marked (h : Coherent java s)
    (hline : OnLine s front left right back above below) {rest : List Char}
    (hmark : left ++ right = commentMark ++ rest) :
    ∃ t left' right', toggleLineComment java s = .ok () t ∧
      EditedBy java ⟨.remove, front.length, commentMark⟩ s t ∧
      left' ++ right' = rest ∧ left'.length = left.length - commentMark.length ∧
      OnLine t front left' right' back above below := by
  have hplan : s.policy.planRemove s.buffer front.length 2 = ⟨front.length, 2⟩ :=
    s.policy.planRemove_of_ne_one s.buffer _ (by decide)
  -- the mark may reach over the caret, and then it takes from `right` what `left` is short of
  have hrest : left.drop 2 ++ right.drop (2 - left.length) = rest := by
    rw [← List.drop_append, hmark]
    rfl
  have he : Edit.Makes ⟨.remove, front.length, commentMark⟩ s.buffer.text
      (front ++ rest ++ back) := by
    have := Edit.Makes.remove front commentMark (rest ++ back)
    simpa only [hline.text_eq, hmark, List.append_assoc] using this
  have hstop : front.length + 2 ≤ s.buffer.length := by
    rw [h.length_eq, hline.text_eq, hmark]
    simp only [List.length_append, commentMark, List.length_cons]
    omega
  have htaken : (⟨.remove, front.length, commentMark⟩ : Edit) =
      ⟨.remove, front.length, (s.buffer.text.drop front.length).take 2⟩ := by
    rw [hline.drop_eq, hmark]
    rfl
  have hremove := remove_of_le java h.toAligned hplan (by simp) hstop htaken
  have hleft : (left.drop 2).length = left.length - commentMark.length := List.length_drop
  rw [hline.caret_eq, caretAfter_remove_mark, ← hleft] at hremove
  refine ⟨_, left.drop 2, right.drop (2 - left.length), ?_, editedBy_committed h he ?_, hrest,
    hleft, ⟨hline.between, ?_, ?_, ?_, rfl⟩⟩
  · rw [hline.toggleLineComment_eq h.toAligned, if_pos ⟨rest, hmark.symm⟩, hremove]
  · rw [← hrest]
    simp only [List.length_append]
    omega
  · exact fun hmem => hline.left_newline (List.mem_of_mem_drop hmem)
  · exact fun hmem => hline.right_newline (List.mem_of_mem_drop hmem)
  · rw [hrest]
    exact text_committed he _ _

/-! ## Two toggles -/

theorem Coherent.exists_commentToggling (h : Coherent java s) :
    ∃ line, CommentToggling java s line := by
  obtain ⟨front, left, right, back, above, below, hline⟩ := exists_onLine h.toAligned
  refine ⟨left ++ right, ?_⟩
  have hset (line : List Char) :
      s.lines.set s.place.line line = above ++ line :: below := by
    rw [hline.lines_eq, hline.place_eq]
    simp
  have hstart : s.buffer.caret - s.place.column = front.length := by
    rw [hline.caret_eq, hline.place_eq, Nat.add_sub_cancel]
  constructor
  case line_eq =>
    rw [hline.lines_eq, hline.place_eq]
    simp
  case put =>
    intro hmark
    obtain ⟨t, hput, hedited, ht⟩ := exists_toggle_of_unmarked h hline hmark
    obtain ⟨u, left', right', htake, -, hu, hlength, hback⟩ := exists_toggle_of_marked
      (coherent_of_toggleLineComment h hput) ht (List.append_assoc _ _ _)
    refine ⟨t, u, hput, hstart ▸ hedited, ?_, ?_, ?_, htake, ?_, ?_⟩
    · rw [hset, ht.lines_eq, List.append_assoc]
    · rw [ht.place_eq, hline.place_eq, List.length_append, Nat.add_comm]
    · rw [ht.drop_caret_eq, hline.drop_caret_eq]
    · exact (hline.text_eq_iff hback).mpr hu
    · rw [hback.caret_eq, hlength, hline.caret_eq, List.length_append, Nat.add_sub_cancel_left]
  case take =>
    intro rest hmark
    obtain ⟨t, left', right', htake, hedited, rfl, hlength, ht⟩ :=
      exists_toggle_of_marked h hline hmark
    have hcoherent := coherent_of_toggleLineComment h htake
    have hlines : t.lines = s.lines.set s.place.line (left' ++ right') := by
      rw [hset, ht.lines_eq]
    have hplace : t.place = ⟨s.place.line, s.place.column - commentMark.length⟩ := by
      rw [ht.place_eq, hline.place_eq, hlength]
    by_cases hagain : commentMark <+: left' ++ right'
    · obtain ⟨rest', hrest'⟩ := hagain
      obtain ⟨u, left'', right'', hsecond, -, hu, -, hback⟩ :=
        exists_toggle_of_marked hcoherent ht hrest'.symm
      refine ⟨t, u, htake, hstart ▸ hedited, hlines, hplace, hsecond, ?_⟩
      rw [hline.text_eq_iff hback, hu, hmark, ← hrest']
      have hshorter : rest' ≠ commentMark ++ (commentMark ++ rest') := by
        apply ne_of_apply_ne List.length
        simp only [commentMark, List.length_append, List.length_cons]
        omega
      exact iff_of_false hshorter (not_not.mpr (List.prefix_append _ _))
    · obtain ⟨u, hsecond, -, hback⟩ := exists_toggle_of_unmarked hcoherent ht hagain
      refine ⟨t, u, htake, hstart ▸ hedited, hlines, hplace, hsecond, ?_⟩
      rw [hline.text_eq_iff hback, hmark, List.append_assoc]
      exact iff_of_true rfl hagain

/-! ## All sessions -/

theorem EditedBy.shown (h : EditedBy java e s t) (ht : Aligned t) :
    EditedBy java e s.shown t.shown where
  makes := h.makes
  history_eq := h.history_eq
  take_back hlimit := by
    obtain ⟨u, hundo, hu⟩ := h.take_back hlimit
    exact ⟨u.shown, undo_shown ht hundo, hu⟩

theorem CommentToggling.shown {line : List Char} (h : CommentToggling java s line)
    (hs : Aligned s) : CommentToggling java s.shown line := by
  have htoggle {s t : Session MemoryDocument} (hs : Aligned s) :=
    ok_shown (t := t) ((lockStep_shownBy java).toggleLineComment ⟨hs, rfl⟩)
  constructor
  · exact h.line_eq
  · intro hmark
    obtain ⟨t, u, hput, hedited, hlines, hplace, hdrop, htake, hu⟩ := h.put hmark
    obtain ⟨ht, hput⟩ := htoggle hs hput
    exact ⟨t.shown, u.shown, hput, hedited.shown ht, hlines, hplace, hdrop,
      (htoggle ht htake).2, hu⟩
  · intro rest hmark
    obtain ⟨t, u, htake, hedited, hlines, hplace, hsecond, hu⟩ := h.take rest hmark
    obtain ⟨ht, htake⟩ := htoggle hs htake
    exact ⟨t.shown, u.shown, htake, hedited.shown ht, hlines, hplace, (htoggle ht hsecond).2, hu⟩

/-- **A toggle changes the start of the caret's line only, by one edit**, after any operations. A
mark that it puts is taken away by the next toggle. A mark that it takes is put back by the next
toggle if and only if no second mark follows it. -/
theorem comments_run (java : ExternalParser) (options : Options) (operations : List Operation) :
    (∀ s, start ({} : MemoryDocument) options = .ok s →
        ∃ line, CommentToggling java (run java operations s) line) ∧
      ∀ t, start ({} : TerminalDocument) options = .ok t →
        ∃ line, CommentToggling java (run java operations t) line := by
  refine forall_run_of_coherent java options operations
    (P := fun s => ∃ line, CommentToggling java s line)
    (Q := fun t => ∃ line, CommentToggling java t line) ?_ ?_
  · intro s h
    exact h.exists_commentToggling
  · intro s h
    obtain ⟨line, hline⟩ := h.exists_commentToggling
    exact ⟨line, hline.shown h.toAligned⟩

/-- The caret stands inside the first of two marks. -/
theorem comments_run_two_marks :
    let operations : List Operation := [.load ['a', '\n', '/', '/', '/', '/', 'b'], .setCaret 3]
    let s := run noJavaParts operations (fresh {} {})
    let t := run noJavaParts operations (fresh {} {}).shown
    start ({} : MemoryDocument) {} = .ok (fresh {} {}) ∧
      start ({} : TerminalDocument) {} = .ok (fresh {} {}).shown ∧
      s.lines = [['a'], ['/', '/', '/', '/', 'b']] ∧ s.place = ⟨1, 1⟩ ∧
      (∃ line, CommentToggling noJavaParts s line) ∧
      ∃ line, CommentToggling noJavaParts t line := by
  intro operations s t
  have htoggles := comments_run noJavaParts {} operations
  exact ⟨rfl, rfl, by decide +kernel, by decide +kernel, htoggles.1 _ rfl, htoggles.2 _ rfl⟩

end Session

end SourceEditor
