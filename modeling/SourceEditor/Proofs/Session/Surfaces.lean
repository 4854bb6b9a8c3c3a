import SourceEditor.Proofs.Document.Terminal
import SourceEditor.Proofs.Session.LockStep
import SourceEditor.Proofs.Session.Timeline

/-!
# Sessions on a terminal

A session over a terminal document runs in step with one over a document in memory: after any
operations it is that session with its document shown (`lockStep_shownBy`). The two kinds of
documents do not behave alike by themselves. A terminal document takes any caret, checks no range
when it is formatted, and moves its caret in its own way when text is removed. That the sessions
agree is due to what a session does around each call: it checks its own text first, which is as long
as the document, and sets the caret after every edit.
-/

namespace SourceEditor

open Update (EndAlike)

/-! ## Edits inside a text -/

/-- Whether there is room for an edit in a text. -/
def Edit.Fits (e : Edit) (length : Nat) : Prop :=
  match e.kind with
  | .insert => e.offset ≤ length
  | .remove => e.offset + e.text.length ≤ length

namespace Session

/-- The session with its document shown on a terminal. -/
def shown (s : Session MemoryDocument) : Session TerminalDocument where
  document := s.document.shown
  buffer := s.buffer
  policy := s.policy
  options := s.options
  cache := s.cache
  history := s.history
  language := s.language
  tree := s.tree
  parser := s.parser
  lineCount := s.lineCount

variable {java : ExternalParser} {s : Session MemoryDocument}

section Apply

variable {D : Type} [Surface D]

/-- Only the number of characters counts in a removal. -/
theorem apply_remove_congr {text text' : List Char} (h : text'.length = text.length)
    (offset : Nat) :
    (apply ⟨.remove, offset, text'⟩ : Update (Session D) Unit) = apply ⟨.remove, offset, text⟩ := by
  simp only [apply, h]

/-- An edit for which there is room comes to one that takes the text to another. -/
theorem exists_makes_of_fits {e : Edit} {text : List Char} (h : e.Fits text.length) :
    ∃ e' after, e'.Makes text after ∧
      ∀ (D : Type) [Surface D], (apply e : Update (Session D) Unit) = apply e' := by
  obtain ⟨kind, offset, content⟩ := e
  cases kind with
  | insert => exact ⟨_, _, Edit.insert_makes h content, fun _ _ => rfl⟩
  | remove =>
    have hfits : offset + content.length ≤ text.length := h
    have hlength : ((text.drop offset).take content.length).length = content.length := by
      rw [List.length_take, List.length_drop]
      omega
    exact ⟨_, _, Edit.remove_makes h, fun D _ => (apply_remove_congr hlength offset).symm⟩

/-- An edit for which there is no room fails in the text, before the document is touched. -/
theorem exists_apply_of_not_fits {e : Edit} {b : Buffer} (h : ¬ e.Fits b.length) :
    ∃ fault, ∀ (D : Type) [Surface D] (s : Session D), s.buffer = b →
      apply e s = .error fault s := by
  obtain ⟨kind, offset, content⟩ := e
  cases kind with
  | insert =>
    refine ⟨.insertOutOfBounds offset b.length, ?_⟩
    rintro D _ s rfl
    exact Update.bind_of_error
      (onBuffer_of_error (Buffer.insert_of_lt (Nat.lt_of_not_le h) content))
  | remove =>
    obtain ⟨fault, hfault⟩ := Buffer.remove_of_lt (Nat.lt_of_not_le h)
    refine ⟨fault, ?_⟩
    rintro D _ s rfl
    exact Update.bind_of_error (onBuffer_of_error hfault)

end Apply

/-! ## The parts of an operation -/

theorem Aligned.styles_length_chars (h : Aligned s) :
    s.document.styles.length = s.document.chars.length := by
  rw [h.styles_length, h.chars_eq]

/-- The caret of the shown document is set, wherever it was. -/
theorem showCaret_shown (h : Aligned s) {t : Session TerminalDocument} {old : Nat}
    (ht : t = { s.shown with document := { s.document.shown with caret := old } }) :
    showCaret t = .ok () s.shown := by
  have hset := TerminalDocument.setCaret_shown h.styles_length_chars
    (h.document_length ▸ h.caret_le) old
  subst ht
  rw [showCaret, Update.get_bind]
  refine (onDocument_of_ok hset).trans ?_
  rw [← h.caret_eq]
  rfl

theorem apply_shown (h : Aligned s) {e : Edit} {after : List Char}
    (he : e.Makes s.buffer.text after) : apply e s.shown = .ok () (s.edited e).shown := by
  have hedited := h.edited he
  have hbuffer : s.shown.buffer.length = s.shown.buffer.text.length := h.length_eq
  have hlength : s.shown.buffer.length = s.buffer.text.length := h.length_eq
  generalize hbefore : s.buffer.text = before at he hlength
  cases he with
  | insert front text back =>
    have hle : front.length ≤ s.shown.buffer.length := by
      rw [hlength, List.length_append]
      omega
    obtain ⟨caret, hinsert⟩ := TerminalDocument.insert_shown h.styles_length_chars
      (h.document_length ▸ hle) text
    refine (Update.bind_of_ok (onBuffer_of_ok (Buffer.insert_of_le hbuffer hle text))).trans ?_
    exact (Update.bind_of_ok (onDocument_of_ok hinsert)).trans (showCaret_shown hedited rfl)
  | remove front text back =>
    have hle : front.length + text.length ≤ s.shown.buffer.length := by
      rw [hlength, List.length_append, List.length_append]
      omega
    obtain ⟨caret, hremove⟩ := TerminalDocument.remove_shown h.styles_length_chars
      (h.document_length ▸ hle)
    refine (Update.bind_of_ok (onBuffer_of_ok (Buffer.remove_of_le hbuffer hle))).trans ?_
    exact (Update.bind_of_ok (onDocument_of_ok hremove)).trans (showCaret_shown hedited rfl)

theorem setCaret_shown (h : Aligned s) {caret : Nat} (hcaret : caret ≤ s.buffer.length) :
    setCaret caret s.shown = .ok () (s.caretAt caret).shown := by
  have hset := TerminalDocument.setCaret_shown h.styles_length_chars
    (h.document_length ▸ hcaret) s.document.caret
  have hbuffer : Buffer.setCaret caret s.shown.buffer = _ := Buffer.setCaret_of_le hcaret
  rw [setCaret, Update.bind_of_ok (onBuffer_of_ok hbuffer)]
  exact onDocument_of_ok hset

theorem moveCaret_shown (h : Aligned s) (delta : Int) :
    moveCaret delta s.shown =
      .ok () (s.caretAt (min (s.buffer.caret + delta).toNat s.buffer.length)).shown := by
  have hcaret : min (s.buffer.caret + delta).toNat s.buffer.length ≤ s.buffer.length :=
    Nat.min_le_right _ _
  have hmove : onBuffer (Buffer.moveCaret delta) s.shown = .ok () _ :=
    onBuffer_of_ok (Update.modify_apply _ s.shown.buffer)
  rw [moveCaret, Update.bind_of_ok hmove]
  exact showCaret_shown (h.caretAt hcaret) rfl

theorem reparse_shown (java : ExternalParser) (h : Aligned s) :
    reparse java s.shown = .ok (s.paintedRuns java) (s.repainted java).shown := by
  have hreconcile := (s.paintedCache java).reconcile_shown h.styles_length_chars
  rw [reparse, Update.modify_bind, map_parserFor]
  apply Eq.trans
  · apply Update.bind_of_ok
    apply Update.on_of_ok
    exact hreconcile
  · exact Update.bind_of_ok (forM_report_attribute _ _ _)

/-- The range that is formatted is of no interest to a terminal document. -/
theorem formatLines_shown (s : Session MemoryDocument) (start stop : Nat) :
    formatLines start stop s.shown = .ok ()
      { s.shown with
        document :=
          if s.formatsLines start stop then
            { s.document.shown with tabSize := some s.options.tabSize }
          else s.document.shown } := by
  rw [formatLines, Update.get_bind]
  by_cases hlines : s.formatsLines start stop
  · have hformat (offset count : Nat) :
        onDocument (Surface.guarded (Surface.changeParagraph offset count s.options.tabSize))
          s.shown = .ok () _ := onDocument_of_ok (TerminalDocument.guarded_eq _ _)
    rw [if_pos hlines]
    exact (if_pos hlines).symm ▸ Update.bind_of_ok (hformat _ _)
  · rw [if_neg hlines]
    exact (if_neg hlines).symm ▸ rfl

theorem recountLines_shown {d : TerminalDocument} (h : d.lineCount = s.lineCount) :
    recountLines { s.shown with document := d } = .ok ()
      { s.shown with
        lineCount := s.buffer.lineCount
        document := { d with lineCount := s.buffer.lineCount } } := by
  rw [recountLines, Update.get_bind]
  by_cases hcount : s.buffer.lineCount = s.lineCount
  · have hdocument : { d with lineCount := s.lineCount } = d := by
      rw [← h]
    rw [hcount, hdocument]
    exact congrFun (if_neg (not_not.mpr hcount)) _
  · exact congrFun (if_pos hcount) _

theorem adjustFormat_shown (h : Aligned s) (start stop : Nat) :
    adjustFormat start stop s.shown = .ok () (s.formatted start stop).shown := by
  rw [adjustFormat, Update.bind_of_ok (formatLines_shown s start stop), formatted]
  by_cases hlines : s.formatsLines start stop
  · rw [if_pos hlines, if_pos hlines]
    exact recountLines_shown h.lineCount_eq
  · rw [if_neg hlines, if_neg hlines]
    exact recountLines_shown h.lineCount_eq

/-! ## Operations -/

/-- A session over a document in memory, and the session that shows it. -/
structure ShownBy (s : Session MemoryDocument) (t : Session TerminalDocument) : Prop
    extends Aligned s where
  eq_shown : t = s.shown

namespace ShownBy

variable {t : Session TerminalDocument}

/-- An edit for which there is no room fails before a document is touched. Any other is made in both
documents. -/
theorem apply (h : ShownBy s t) (e : Edit) : EndAlike ShownBy (apply e s) (apply e t) := by
  obtain ⟨hs, rfl⟩ := h
  by_cases hfits : e.Fits s.buffer.length
  · obtain ⟨e', after, hmakes, hsame⟩ := exists_makes_of_fits (hs.length_eq ▸ hfits)
    rw [hsame, hsame, apply_eq hs hmakes, apply_shown hs hmakes]
    exact .ok _ _ ⟨hs.edited hmakes, rfl⟩
  · obtain ⟨fault, hfault⟩ := exists_apply_of_not_fits hfits
    rw [hfault _ s rfl, hfault _ s.shown rfl]
    exact .error fault ⟨hs, rfl⟩

theorem setCaret (h : ShownBy s t) (caret : Nat) :
    EndAlike ShownBy (setCaret caret s) (setCaret caret t) := by
  obtain ⟨hs, rfl⟩ := h
  by_cases hcaret : caret ≤ s.buffer.length
  · rw [setCaret_eq hs hcaret, setCaret_shown hs hcaret]
    exact .ok _ _ ⟨hs.caretAt hcaret, rfl⟩
  · have hbuffer := Buffer.setCaret_of_lt (Nat.lt_of_not_le hcaret)
    rw [setCaret_of_lt (Nat.lt_of_not_le hcaret)]
    rw [Session.setCaret, Update.bind_of_error (onBuffer_of_error (s := s.shown) hbuffer)]
    exact .error _ ⟨hs, rfl⟩

theorem syntaxTree (h : ShownBy s t) :
    EndAlike ShownBy (syntaxTree java s) (syntaxTree java t) := by
  obtain ⟨hs, rfl⟩ := h
  rw [syntaxTree_eq, syntaxTree_eq]
  exact .ok _ _ ⟨hs.of_eq rfl rfl rfl rfl, rfl⟩

theorem document (h : ShownBy s t) : s.document.ShownBy t.document := by
  rw [h.eq_shown]
  exact TerminalDocument.shownBy_shown h.styles_length_chars

end ShownBy

theorem lockStep_shownBy (java : ExternalParser) :
    LockStep java Eq Eq ShownBy where
  buffer_eq h := h.eq_shown ▸ rfl
  policy_eq h := h.eq_shown ▸ rfl
  history_eq h := h.eq_shown ▸ rfl
  apply h := h.apply
  setCaret h := h.setCaret
  moveCaret h delta := by
    obtain ⟨hs, rfl⟩ := h
    rw [moveCaret_eq hs, moveCaret_shown hs]
    exact .ok _ _ ⟨hs.caretAt (Nat.min_le_right _ _), rfl⟩
  message h text := by
    obtain ⟨hs, rfl⟩ := h
    exact .ok _ _ ⟨hs.noted text, rfl⟩
  reparse h := by
    obtain ⟨hs, rfl⟩ := h
    rw [reparse_eq, reparse_shown java hs]
    exact .ok _ _ ⟨hs.repainted java, rfl⟩
  adjustFormat h start stop := by
    obtain ⟨hs, rfl⟩ := h
    rw [adjustFormat_eq hs, adjustFormat_shown hs]
    exact .ok _ _ ⟨hs.formatted start stop, rfl⟩
  syntaxTree h := h.syntaxTree
  withHistory h _ := by
    obtain ⟨hs, rfl⟩ := h
    exact ⟨hs.of_eq rfl rfl rfl rfl, rfl⟩
  withLanguage h _ _ hl := by
    obtain ⟨hs, rfl⟩ := h
    subst hl
    exact ⟨hs.of_eq rfl rfl rfl rfl, rfl⟩
  withOptions h _ _ ho _ := by
    obtain ⟨hs, rfl⟩ := h
    subst ho
    exact ⟨hs.of_eq rfl rfl rfl rfl, rfl⟩
  selects_refl _ := rfl
  takes_refl _ := rfl
  policy_takes ho := ho ▸ rfl
  undoLimit_takes ho := ho ▸ rfl

/-- What completes over a document in memory completes in the same way where the document is
shown. -/
theorem ok_shown {t : Session MemoryDocument} {update : Update (Session MemoryDocument) Unit}
    {shownUpdate : Update (Session TerminalDocument) Unit}
    (h : EndAlike ShownBy (update s) (shownUpdate s.shown)) (hok : update s = .ok () t) :
    Aligned t ∧ shownUpdate s.shown = .ok () t.shown := by
  obtain ⟨⟨⟩, ⟨⟩, t', u, ht, hu, hshown⟩ | ⟨fault, t', u, ht, -⟩ := h.result_cases
  · rw [hok] at ht
    cases ht
    exact ⟨hshown.toAligned, hu.trans (by rw [hshown.eq_shown])⟩
  · rw [hok] at ht
    cases ht

theorem undo_shown {t u : Session MemoryDocument} (ht : Aligned t)
    (h : undo java t = .ok () u) : undo java t.shown = .ok () u.shown :=
  (ok_shown ((lockStep_shownBy java).undo ⟨ht, rfl⟩) h).2

theorem start_terminal_eq (options : Options) :
    start ({} : TerminalDocument) options =
      options.policy.map fun policy => (fresh options policy).shown := by
  have hempty : Surface.length ({} : TerminalDocument) = 0 := rfl
  rw [start, if_pos hempty]
  cases options.policy <;> rfl

theorem aligned_fresh {options : Options} {policy : EditPolicy} (h : options.policy = .ok policy) :
    Aligned (fresh options policy) :=
  have hfresh : Coherent noJavaParts (fresh options policy) := coherent_fresh h
  hfresh.toAligned

/-- A session over a new terminal document shows one over a document in memory, whatever is asked of
both. -/
theorem exists_start_of_terminal (java : ExternalParser) {options : Options}
    {t : Session TerminalDocument} (h : start ({} : TerminalDocument) options = .ok t) :
    ∃ s, start ({} : MemoryDocument) options = .ok s ∧
      ∀ operations, run java operations t = (run java operations s).shown := by
  rw [start_terminal_eq] at h
  cases hpolicy : options.policy with
  | error fault =>
    rw [hpolicy] at h
    cases h
  | ok policy =>
    rw [hpolicy] at h
    cases h
    refine ⟨fresh options policy, ?_, fun operations => ?_⟩
    · rw [start_eq, hpolicy]
      rfl
    · have hrun := (lockStep_shownBy java).run ⟨aligned_fresh hpolicy, rfl⟩
        (List.forall₂_same.mpr fun a (_ : a ∈ operations) => .same a)
      exact hrun.eq_shown

/-- What holds of all coherent sessions, and of all that show one, holds after any operations. -/
theorem forall_run_of_coherent (java : ExternalParser) (options : Options)
    (operations : List Operation) {P : Session MemoryDocument → Prop}
    {Q : Session TerminalDocument → Prop} (hP : ∀ s, Coherent java s → P s)
    (hQ : ∀ s, Coherent java s → Q s.shown) :
    (∀ s, start ({} : MemoryDocument) options = .ok s → P (run java operations s)) ∧
      ∀ t, start ({} : TerminalDocument) options = .ok t → Q (run java operations t) := by
  have hcoherent {s : Session MemoryDocument} (hs : start ({} : MemoryDocument) options = .ok s) :
      Coherent java (run java operations s) :=
    ((sound_of_start hs).run operations).toCoherent
  constructor
  · intro s hs
    exact hP _ (hcoherent hs)
  · intro t ht
    obtain ⟨s, hs, hrun⟩ := exists_start_of_terminal java ht
    rw [hrun]
    exact hQ _ (hcoherent hs)

/-- **The two kinds of documents agree under a session.** With any options either neither session
can be opened, or both are. Then they hold the same characters and styles, the same caret, tab size,
line count and messages after any operations, and an operation fails in one of them if and only if
it fails in the other. -/
theorem terminal_run (java : ExternalParser) (options : Options) :
    (∃ fault, start ({} : MemoryDocument) options = .error fault ∧
        start ({} : TerminalDocument) options = .error fault) ∨
      ∃ s t, start ({} : MemoryDocument) options = .ok s ∧
        start ({} : TerminalDocument) options = .ok t ∧
        ∀ operations, (run java operations s).document.ShownBy (run java operations t).document ∧
          ∀ operation, (perform java operation).fails (run java operations s) =
            (perform java operation).fails (run java operations t) := by
  rw [start_eq, start_terminal_eq]
  cases hpolicy : options.policy with
  | error fault => exact Or.inl ⟨fault, rfl, rfl⟩
  | ok policy =>
    refine Or.inr ⟨_, _, rfl, rfl, fun operations => ?_⟩
    have hrun := (lockStep_shownBy java).run ⟨aligned_fresh hpolicy, rfl⟩
      (List.forall₂_same.mpr fun a (_ : a ∈ operations) => .same a)
    exact ⟨hrun.document, fun operation =>
      ((lockStep_shownBy java).perform_same hrun operation).fails_eq⟩

end Session

end SourceEditor
