import SourceEditor.Proofs.Session.Timeline

/-!
# Sessions over new documents

What holds of a session over a document in memory after any operations whatever, those that failed
included:

* the document shows the text of the session (`mirrored_run`);
* taking back and making again go along the texts that the session has had (`retraces_run`);
* every character has the style that the text, the language and the options give it, and
  highlighting once more changes nothing (`highlighted_run`).
-/

namespace SourceEditor.Session

variable {s : Session MemoryDocument}

/-! ## The text on the document -/

/-- **The document shows the text.** After any operations buffer and document agree on text, caret
and lines, no lock is held, and no highlight is left over. -/
theorem mirrored_run (java : ExternalParser) (options : Options)
    (h : start ({} : MemoryDocument) options = .ok s) (operations : List Operation) :
    Mirrored (run java operations s) :=
  ((sound_of_start h).run operations).toMirrored

/-- A pair is typed, the caret is sent where there is no text, and the pair is taken back. -/
theorem mirrored_run_failed_caret :
    start ({} : MemoryDocument) {} = .ok (fresh {} {}) ∧
      Mirrored (run noJavaParts [.insert 0 ['('], .setCaret 9, .undo] (fresh {} {})) :=
  ⟨rfl, mirrored_run noJavaParts {} rfl _⟩

/-! ## The texts of the past -/

/-- Both stacks keep to the limit, and taking back and making again go along a timeline. -/
structure Retraces (java : ExternalParser) (timeline : Timeline) (s : Session MemoryDocument) :
    Prop where
  undos_length_le : s.history.undos.length ≤ s.options.undoLimit
  redos_length_le : s.history.redos.length ≤ s.options.undoLimit
  /-- `k` edits back there is the text before them, and `k` edits forth from there the text is what
  it was, with the same edits to take back. -/
  back_and_forth : ∀ k ≤ s.history.undos.length, ∃ t u,
    (undo java).times k s = .ok () t ∧
      (s.buffer.text :: timeline.earlier)[k]? = some t.buffer.text ∧
      t.document.chars = t.buffer.text ∧
    (redo java).times k t = .ok () u ∧ u.buffer.text = s.buffer.text ∧
      u.document.chars = s.buffer.text ∧ u.history.undos = s.history.undos
  /-- `j` edits forth there is the text that they led to before they were taken back. -/
  forth : ∀ j ≤ s.history.redos.length, ∃ t,
    (redo java).times j s = .ok () t ∧
      (s.buffer.text :: timeline.later)[j]? = some t.buffer.text ∧
      t.document.chars = t.buffer.text

/-- **Taking back and making again are exact.** -/
theorem retraces_run (java : ExternalParser) (options : Options)
    (h : start ({} : MemoryDocument) options = .ok s) (operations : List Operation) :
    Retraces java (observe java operations s {}) (run java operations s) := by
  have hsound : Sound java (observe java operations s {}) (run java operations s) :=
    (sound_of_start h).run operations
  refine ⟨hsound.limit_eq ▸ hsound.undos_le, hsound.limit_eq ▸ hsound.redos_le, fun k hk => ?_,
    fun j hj => ?_⟩
  · obtain ⟨t, u, hback, ht, htext, hforth, hu, hsame, hundos, -⟩ := hsound.undo_redo_times hk
    exact ⟨t, u, hback, htext, ht.chars_eq, hforth, hsame, hu.chars_eq.trans hsame, hundos⟩
  · obtain ⟨t, hforth, ht, htext⟩ := hsound.redo_times hj
    exact ⟨t, hforth, htext, ht.chars_eq⟩

/-- The second of two edits is taken back, and then there is room for no more than one on either
side. -/
theorem retraces_run_smaller_limit :
    let operations : List Operation :=
      [.insert 0 ['a'], .insert 1 ['('], .undo, .reload { undoLimit := 1 }]
    start ({} : MemoryDocument) {} = .ok (fresh {} {}) ∧
      (run noJavaParts operations (fresh {} {})).history.undos.length = 1 ∧
      (run noJavaParts operations (fresh {} {})).history.redos.length = 1 ∧
      Retraces noJavaParts (observe noJavaParts operations (fresh {} {}) {})
        (run noJavaParts operations (fresh {} {})) :=
  ⟨rfl, by decide +kernel, by decide +kernel, retraces_run noJavaParts {} rfl _⟩

/-! ## The styles -/

/-- The styles of the document are those of the text, and highlighting again finds nothing to do. -/
structure Highlighted (java : ExternalParser) (s : Session MemoryDocument) : Prop where
  styleAt?_eq : ∀ i < s.buffer.length, ∀ style, s.expectedStyle? java i = some style →
    s.document.styleAt? i = some style
  /-- Highlighting writes the maximal runs of the expected styles, from left to right and under one
  lock, and writes the same runs when it is repeated. -/
  reparse_again : ∃ runs t u, reparse java s = .ok runs t ∧ reparse java t = .ok runs u ∧
    (∀ r, r ∈ runs ↔ r.IsMaximal (s.expectedStyle? java) s.buffer.length) ∧
    runs.Pairwise (fun r q => r.start < q.start) ∧
    t.document.lockCount = s.document.lockCount + 1 ∧ t.document.lockDepth = 0 ∧
    t.document.styles = s.document.styles ∧ t.document.chars = s.document.chars ∧
    t.document.caret = s.document.caret ∧ t.buffer = s.buffer ∧ t.history = s.history

/-- **Highlighting is up to date**, and reparsing repeats it. -/
theorem highlighted_run (java : ExternalParser) (options : Options)
    (h : start ({} : MemoryDocument) options = .ok s) (operations : List Operation) :
    Highlighted java (run java operations s) := by
  have hcoherent : Coherent java (run java operations s) :=
    ((sound_of_start h).run operations).toCoherent
  have hagain := reparse_eq java ((run java operations s).repainted java)
  rw [hcoherent.toAligned.paintedRuns_repainted] at hagain
  exact ⟨hcoherent.painted, _, _, _, reparse_eq java _, hagain,
    hcoherent.toAligned.mem_paintedRuns_iff java,
    (hcoherent.toAligned.paintedRuns_decomposes java).start_lt, rfl, hcoherent.unlocked,
    hcoherent.styles_repainted, rfl, rfl, rfl, rfl⟩

/-- A text is loaded in one language and then shown in another. -/
theorem highlighted_run_other_language :
    let operations : List Operation :=
      [.setLanguage (some .kotlin), .load ['v', 'a', 'l', ' ', 'x'], .setLanguage (some .java)]
    start ({} : MemoryDocument) {} = .ok (fresh {} {}) ∧
      ((run noJavaParts operations (fresh {} {})).expectedStyle? noJavaParts 0).isSome = true ∧
      Highlighted noJavaParts (run noJavaParts operations (fresh {} {})) :=
  ⟨rfl, by decide +kernel, highlighted_run noJavaParts {} rfl _⟩

end SourceEditor.Session
