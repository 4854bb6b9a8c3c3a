import SourceEditor.Proofs.Session.Colors

/-!
# Loading forgets the past

What a session looks like once a text has been loaded hangs on the text, the options and the
language alone: two sessions with the same text just loaded cannot be told apart (`Loaded.alike`).
So loading into a session that has a past leads where it would have led in a new session. The
exception is the tab size of a document without text, since only lines with text in them are
formatted.
-/

namespace SourceEditor.Session

variable {java : ExternalParser} {s t : Session MemoryDocument}

/-- Two sessions that agree on their text, their history and what they show. -/
structure Alike (s t : Session MemoryDocument) : Prop where
  text_eq : s.buffer.text = t.buffer.text
  caret_eq : s.buffer.caret = t.buffer.caret
  chars_eq : s.document.chars = t.document.chars
  documentCaret_eq : s.document.caret = t.document.caret
  styles_eq : s.document.styles = t.document.styles
  history_eq : s.history = t.history
  lineCount_eq : s.lineCount = t.lineCount
  documentLineCount_eq : s.document.lineCount = t.document.lineCount
  tree_eq : s.tree = t.tree
  tabSize_eq : s.buffer.text ≠ [] → s.document.tabSize = t.document.tabSize

section Loaded

variable {options : Options} {language : Option Language} {text : List Char}

/-- The style of every character is known. -/
theorem Loaded.styles_eq (h : Loaded java options language text s) :
    s.document.styles =
      (List.range text.length).map (SourceEditor.expectedStyle? java options language text) := by
  refine List.ext_getElem ?_ fun i hi _ => ?_
  · rw [h.styles_length, h.text_eq, List.length_map, List.length_range]
  · have hlt : i < text.length := by rwa [h.styles_length, h.text_eq] at hi
    have hstyle := h.styleAt?_eq i hlt
    rw [MemoryDocument.styleAt?, List.getElem?_eq_getElem hi, Option.join_some] at hstyle
    rw [hstyle, List.getElem_map, List.getElem_range]

theorem Loaded.alike (hs : Loaded java options language text s)
    (ht : Loaded java options language text t) : Alike s t where
  text_eq := hs.text_eq.trans ht.text_eq.symm
  caret_eq := hs.caret_eq_zero.trans ht.caret_eq_zero.symm
  chars_eq := by rw [hs.chars_eq, ht.chars_eq, hs.text_eq, ht.text_eq]
  documentCaret_eq := by rw [hs.caret_eq, ht.caret_eq, hs.caret_eq_zero, ht.caret_eq_zero]
  styles_eq := hs.styles_eq.trans ht.styles_eq.symm
  history_eq := hs.history_eq.trans ht.history_eq.symm
  lineCount_eq := by rw [hs.lineCount_eq_count, ht.lineCount_eq_count, hs.text_eq, ht.text_eq]
  documentLineCount_eq := by
    rw [hs.lineCount_eq, ht.lineCount_eq, hs.lineCount_eq_count, ht.lineCount_eq_count, hs.text_eq,
      ht.text_eq]
  tree_eq := hs.tree_eq.trans ht.tree_eq.symm
  tabSize_eq hne := by
    have hne' : t.buffer.text ≠ [] := by rwa [ht.text_eq, ← hs.text_eq]
    rw [hs.tabSize_eq hne, ht.tabSize_eq hne', hs.options_eq, ht.options_eq]

end Loaded

/-- **Loading forgets the past.** Wherever operations have led, a session with the same options can
be opened, and loading a text leads both to the same state once the new one has the language. -/
theorem load_alike (h : Reached java s) (text : List Char) :
    ∃ s₀ t, start ({} : MemoryDocument) s.options = .ok s₀ ∧ load java text s = .ok () t ∧
      t.buffer.text = EditPolicy.withoutReturns text ∧
      ∃ u, (setLanguage java s.language >>= fun _ => load java text) s₀ = .ok () u ∧ Alike t u := by
  have hcoherent := h.coherent
  obtain ⟨t, hload, ht⟩ := load_eq hcoherent text
  obtain ⟨u, hopen, hu⟩ :=
    setLanguage_load_eq (coherent_fresh hcoherent.policy_eq) s.language text
  refine ⟨fresh s.options s.policy, t, ?_, hload, ht.text_eq, u, hopen, ht.alike hu⟩
  rw [start_eq, hcoherent.policy_eq]
  rfl

/-- A session with edits to take back and to make again, and with the style of a comment left
over. -/
theorem load_alike_after_edits :
    let s := run noJavaParts [.setLanguage (some .kotlin), .load ['/', '/', ' ', 'x'], .remove 0 2,
      .insert 2 ['y'], .undo] (fresh {} {})
    Reached noJavaParts s ∧ s.history.undos.length = 1 ∧ s.history.redos.length = 1 ∧
      (s.document.styleAt? 0).isSome = true ∧
      ∃ s₀ t, start ({} : MemoryDocument) {} = .ok s₀ ∧
        load noJavaParts ['\t', 'z', '\r', '\n'] s = .ok () t ∧
        t.buffer.text = ['\t', 'z', '\n'] ∧
        ∃ u, (setLanguage noJavaParts (some .kotlin) >>= fun _ =>
          load noJavaParts ['\t', 'z', '\r', '\n']) s₀ = .ok () u ∧ Alike t u := by
  intro s
  have hreached : Reached noJavaParts s := ⟨{}, fresh {} {}, _, rfl, rfl⟩
  have hoptions : s.options = {} := by decide +kernel
  have hlanguage : s.language = some .kotlin := by decide +kernel
  have hload := load_alike hreached ['\t', 'z', '\r', '\n']
  rw [hoptions, hlanguage] at hload
  exact ⟨hreached, by decide +kernel, by decide +kernel, by decide +kernel, hload⟩

/-- The tab size outlives the text that it was set for. -/
example : (run noJavaParts [.load ['x'], .load []] (fresh {} {})).document.tabSize ≠
    (run noJavaParts [.load []] (fresh {} {})).document.tabSize := by
  decide +kernel

end SourceEditor.Session
