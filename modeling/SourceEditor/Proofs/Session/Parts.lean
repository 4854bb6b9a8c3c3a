import SourceEditor.Proofs.Highlight.Painting
import SourceEditor.Proofs.Session.Edits
import SourceEditor.Session.Editing

/-!
# The parts of an operation

Every operation of a session over a document in memory is put together from a few parts: an edit of
the text and the document, a move of the caret, a change of the history, the highlighting of the
whole text, the format of some lines. Here each part is given as a function on sessions (`edited`,
`caretAt`, `repainted`, `formatted`), with the equation that says when the part completes and that
it leaves this session.

The parts keep the session `Aligned`: buffer and document hold the same text and the same caret, and
the locks, the cache and the line numbers are in order. Being aligned is also all that the parts
need. In the middle of an operation a session is aligned and not more.
-/

namespace SourceEditor

/-! ## Lines -/

namespace Buffer

theorem lineStart_le (b : Buffer) (offset : Nat) : b.lineStart offset ≤ offset := by
  unfold lineStart findLast?
  split
  · next i hi =>
    obtain ⟨j, hj, rfl⟩ := Option.map_eq_some_iff.mp hi
    have hlt := (List.findIdx?_eq_some_iff_findIdx_eq.mp hj).1
    rw [List.length_reverse] at hlt
    have hle := List.length_take_le offset b.text
    omega
  · exact Nat.zero_le offset

theorem le_lineStop {b : Buffer} {offset : Nat} (h : offset ≤ b.length) :
    offset ≤ b.lineStop offset := by
  unfold lineStop find?
  cases (b.text.drop offset).findIdx? (· == '\n') with
  | none => exact h
  | some i =>
    simp only [Option.map_some, Option.getD_some]
    omega

theorem lineStop_le {b : Buffer} (hlength : b.length = b.text.length) (offset : Nat) :
    b.lineStop offset ≤ b.length := by
  unfold lineStop find?
  cases hfind : (b.text.drop offset).findIdx? (· == '\n') with
  | none => exact Nat.le_refl b.length
  | some i =>
    have hlt := (List.findIdx?_eq_some_iff_findIdx_eq.mp hfind).1
    rw [List.length_drop] at hlt
    simp only [Option.map_some, Option.getD_some]
    omega

end Buffer

namespace Session

/-- Buffer and document agree, and the locks, the cache and the line numbers are in order. -/
structure Aligned (s : Session MemoryDocument) : Prop where
  chars_eq : s.document.chars = s.buffer.text
  length_eq : s.buffer.length = s.buffer.text.length
  caret_eq : s.document.caret = s.buffer.caret
  caret_le : s.buffer.caret ≤ s.buffer.length
  styles_length : s.document.styles.length = s.buffer.text.length
  lineCount_eq : s.document.lineCount = s.lineCount
  unlocked : s.document.lockDepth = 0
  unlockedWrites_eq : s.document.unlockedWrites = 0
  drained : s.cache.isDrained = true

variable {s t : Session MemoryDocument}

theorem Aligned.document_length (h : Aligned s) : s.document.length = s.buffer.length := by
  rw [MemoryDocument.length, h.chars_eq, h.length_eq]

theorem Aligned.not_isEmpty_iff (h : Aligned s) :
    (!s.buffer.isEmpty) = true ↔ s.buffer.text ≠ [] := by
  simp [Buffer.isEmpty, h.length_eq]

/-- Language, options and history have no part in it. -/
theorem Aligned.of_eq (h : Aligned s) (hdocument : t.document = s.document)
    (hbuffer : t.buffer = s.buffer) (hcache : t.cache = s.cache)
    (hlines : t.lineCount = s.lineCount) : Aligned t := by
  constructor
  · rw [hdocument, hbuffer, h.chars_eq]
  · rw [hbuffer, h.length_eq]
  · rw [hdocument, hbuffer, h.caret_eq]
  · rw [hbuffer]
    exact h.caret_le
  · rw [hdocument, hbuffer, h.styles_length]
  · rw [hdocument, hlines, h.lineCount_eq]
  · rw [hdocument, h.unlocked]
  · rw [hdocument, h.unlockedWrites_eq]
  · rw [hcache, h.drained]

/-! ## Edits and carets -/

/-- The session after an edit of text and document. -/
def edited (s : Session MemoryDocument) (e : Edit) : Session MemoryDocument :=
  { s with buffer := s.buffer.edited e, document := s.document.edited e }

/-- The session with the caret at an offset. -/
def caretAt (s : Session MemoryDocument) (caret : Nat) : Session MemoryDocument :=
  { s with buffer := { s.buffer with caret }, document := { s.document with caret } }

theorem Aligned.edited (h : Aligned s) {e : Edit} {after : List Char}
    (he : e.Makes s.buffer.text after) : Aligned (s.edited e) := by
  have htext := Buffer.text_edited he
  have hlength := Buffer.length_edited he h.length_eq
  have hcaret := he.caretAfter_le (h.length_eq ▸ h.caret_le)
  constructor
  · exact MemoryDocument.chars_edited h.chars_eq e
  · exact hlength.trans (congrArg List.length htext.symm)
  · change (s.document.edited e).caret = (s.buffer.edited e).caret
    rw [MemoryDocument.edited_eq, Buffer.caret_edited, h.caret_eq]
  · change (s.buffer.edited e).caret ≤ (s.buffer.edited e).length
    rw [Buffer.caret_edited, hlength]
    exact hcaret
  · change (s.document.edited e).styles.length = (s.buffer.edited e).text.length
    rw [htext, MemoryDocument.length_styles_edited he h.styles_length]
  · change (s.document.edited e).lineCount = s.lineCount
    rw [MemoryDocument.edited_eq, h.lineCount_eq]
  · change (s.document.edited e).lockDepth = 0
    rw [MemoryDocument.edited_eq, h.unlocked]
  · change (s.document.edited e).unlockedWrites = 0
    rw [MemoryDocument.edited_eq, h.unlockedWrites_eq]
  · exact h.drained

theorem Aligned.caretAt (h : Aligned s) {caret : Nat} (hcaret : caret ≤ s.buffer.length) :
    Aligned (s.caretAt caret) :=
  ⟨h.chars_eq, h.length_eq, rfl, hcaret, h.styles_length, h.lineCount_eq, h.unlocked,
    h.unlockedWrites_eq, h.drained⟩

/-- The caret of an aligned session is where it is. -/
theorem Aligned.caretAt_caret (h : Aligned s) : s.caretAt s.buffer.caret = s := by
  have hdocument : { s.document with caret := s.buffer.caret } = s.document := by
    rw [← h.caret_eq]
  change { s with document := { s.document with caret := s.buffer.caret } } = s
  rw [hdocument]

section OnPart

variable {D : Type} {s : Session D}

theorem onBuffer_of_ok {α : Type} {update : Update Buffer α} {a : α} {b : Buffer}
    (h : update s.buffer = .ok a b) : onBuffer update s = .ok a { s with buffer := b } :=
  Update.on_of_ok h

theorem onBuffer_of_error {α : Type} {update : Update Buffer α} {fault : Fault}
    (h : update s.buffer = .error fault s.buffer) : onBuffer update s = .error fault s :=
  Update.on_of_error h

theorem onDocument_of_ok {α : Type} {update : Update D α} {a : α} {d : D}
    (h : update s.document = .ok a d) : onDocument update s = .ok a { s with document := d } :=
  Update.on_of_ok h

/-- The history does not take note of changes of attributes. -/
theorem report_attribute (e : AttributeEdit) (s : Session D) :
    report (.attribute e) s = .ok () s := rfl

theorem forM_report_attribute {α : Type} (items : List α) (edit : α → AttributeEdit)
    (s : Session D) : (items.forM fun a => report (.attribute (edit a))) s = .ok () s := by
  induction items with
  | nil => rfl
  | cons a items ih => exact (Update.bind_of_ok (report_attribute (edit a) s)).trans ih

end OnPart

theorem showCaret_eq (h : s.buffer.caret ≤ s.document.length) :
    showCaret s = .ok () { s with document := { s.document with caret := s.buffer.caret } } := by
  rw [showCaret, Update.get_bind]
  exact onDocument_of_ok (MemoryDocument.setCaret_of_le h)

theorem setCaret_eq (h : Aligned s) {caret : Nat} (hcaret : caret ≤ s.buffer.length) :
    setCaret caret s = .ok () (s.caretAt caret) := by
  rw [setCaret, Update.bind_of_ok (onBuffer_of_ok (Buffer.setCaret_of_le hcaret))]
  exact onDocument_of_ok (MemoryDocument.setCaret_of_le (h.document_length ▸ hcaret))

theorem setCaret_of_lt {caret : Nat} (hcaret : s.buffer.length < caret) :
    setCaret caret s = .error (.caretOutOfBounds caret s.buffer.length) s := by
  rw [setCaret, Update.bind_of_error (onBuffer_of_error (Buffer.setCaret_of_lt hcaret))]

theorem moveCaret_eq (h : Aligned s) (delta : Int) :
    moveCaret delta s =
      .ok () (s.caretAt (min (s.buffer.caret + delta).toNat s.buffer.length)) := by
  have hmove : onBuffer (Buffer.moveCaret delta) s = .ok () _ :=
    onBuffer_of_ok (Update.modify_apply _ s.buffer)
  rw [moveCaret, Update.bind_of_ok hmove]
  refine showCaret_eq ?_
  change min _ s.buffer.length ≤ s.document.length
  rw [h.document_length]
  omega

/-- An edit of the text is made in buffer and document alike. -/
theorem apply_eq (h : Aligned s) {e : Edit} {after : List Char}
    (he : e.Makes s.buffer.text after) : apply e s = .ok () (s.edited e) := by
  have haligned := h.edited he
  have hshow : showCaret (s.edited e) = .ok () (s.edited e) := by
    rw [showCaret_eq (haligned.document_length ▸ haligned.caret_le)]
    exact congrArg _ haligned.caretAt_caret
  generalize hbefore : s.buffer.text = before at he
  have hlength := h.length_eq
  have hdocument := h.document_length
  rw [hbefore] at hlength
  cases he with
  | insert front text back =>
    have hle : front.length ≤ s.buffer.length := by
      rw [hlength, List.length_append]
      omega
    refine (Update.bind_of_ok (onBuffer_of_ok (Buffer.insert_of_le h.length_eq hle text))).trans ?_
    refine (Update.bind_of_ok (onDocument_of_ok (MemoryDocument.insert_of_le ?_ text))).trans hshow
    exact hdocument ▸ hle
  | remove front text back =>
    have hle : front.length + text.length ≤ s.buffer.length := by
      rw [hlength, List.length_append, List.length_append]
      omega
    refine (Update.bind_of_ok (onBuffer_of_ok (Buffer.remove_of_le h.length_eq hle))).trans ?_
    refine (Update.bind_of_ok (onDocument_of_ok (MemoryDocument.remove_of_le ?_))).trans hshow
    exact hdocument ▸ hle

theorem apply_insert_of_lt {offset : Nat} (h : s.buffer.length < offset) (text : List Char) :
    apply ⟨.insert, offset, text⟩ s = .error (.insertOutOfBounds offset s.buffer.length) s :=
  Update.bind_of_error (onBuffer_of_error (Buffer.insert_of_lt h text))

/-! ## Highlighting -/

section Highlighting

/-- A parser is only used again for its own language. -/
@[simp]
theorem parserFor_eq (last : Option Language) (language : Language) :
    parserFor last language = language := by
  cases last with
  | none => rfl
  | some p =>
    rw [parserFor, Option.filter_some]
    split
    · next hp => exact beq_iff_eq.mp hp
    · rfl

@[simp]
theorem map_parserFor (last language : Option Language) :
    language.map (parserFor last) = language := by
  cases language with
  | none => rfl
  | some l => rw [Option.map_some, parserFor_eq]

variable (java : ExternalParser)

/-- The cache with all highlights of the text painted. -/
def paintedCache (s : Session MemoryDocument) : Cache :=
  paint s.options.colors
    (lexicalHighlights s.options s.language s.buffer.text ++
      semanticHighlights s.language (highlightTree java s.options s.language s.buffer.text))
    (s.cache.resize s.buffer.length)

/-- The runs that highlighting writes. -/
def paintedRuns (s : Session MemoryDocument) : List Run :=
  (s.paintedCache java).runs s.document.length

/-- The session after the whole text has been highlighted. -/
def repainted (s : Session MemoryDocument) : Session MemoryDocument :=
  { s with
    tree := highlightTree java s.options s.language s.buffer.text
    parser :=
      if (highlightTree java s.options s.language s.buffer.text).isSome then s.language
      else s.parser
    cache := (s.paintedCache java).drained
    document :=
      { s.document with
        styles := Run.paintAll (s.paintedRuns java) s.document.styles
        lockCount := s.document.lockCount + 1
        styleChanges := s.document.styleChanges + (s.paintedRuns java).length } }

/-- The style that the character at an offset is to have in a session. -/
def expectedStyle? (s : Session MemoryDocument) (i : Nat) : Option Style :=
  SourceEditor.expectedStyle? java s.options s.language s.buffer.text i

/-- Highlighting always completes. -/
theorem reparse_eq (s : Session MemoryDocument) :
    reparse java s = .ok (s.paintedRuns java) (s.repainted java) := by
  have hreconcile := Cache.reconcile_eq (s.paintedCache java) s.document
  rw [reparse, Update.modify_bind, map_parserFor]
  apply Eq.trans
  · apply Update.bind_of_ok
    apply Update.on_of_ok
    exact hreconcile
  · exact Update.bind_of_ok (forM_report_attribute _ _ _)

theorem Aligned.repainted (h : Aligned s) : Aligned (s.repainted java) where
  chars_eq := h.chars_eq
  length_eq := h.length_eq
  caret_eq := h.caret_eq
  caret_le := h.caret_le
  styles_length := (Run.length_paintAll _ _).trans h.styles_length
  lineCount_eq := h.lineCount_eq
  unlocked := h.unlocked
  unlockedWrites_eq := h.unlockedWrites_eq
  drained := Cache.isDrained_drained _

/-- The runs that are written are those of the expected styles. -/
theorem Aligned.paintedRuns_decomposes (h : Aligned s) :
    Run.Decomposes (s.paintedRuns java) fun i =>
      if i < s.buffer.length then s.expectedStyle? java i else none := by
  rw [paintedRuns, h.document_length]
  refine (runs_paint_decomposes h.drained s.options.colors _ s.buffer.length).congr fun i => ?_
  rw [lastStyle_highlights, Session.expectedStyle?]

/-- The runs that are written are the maximal ones. -/
theorem Aligned.mem_paintedRuns_iff (h : Aligned s) (r : Run) :
    r ∈ s.paintedRuns java ↔ r.IsMaximal (s.expectedStyle? java) s.buffer.length := by
  rw [(h.paintedRuns_decomposes java).mem_iff (fun i hi => if_neg (Nat.not_lt.mpr hi)) r]
  constructor
  · exact fun hr => hr.congr fun i hi => if_pos hi
  · exact fun hr => hr.congr fun i hi => (if_pos hi).symm

/-- Highlighting starts from an empty cache each time. -/
theorem Aligned.paintedRuns_repainted (h : Aligned s) :
    (s.repainted java).paintedRuns java = s.paintedRuns java := by
  have hcache : (s.repainted java).paintedCache java = s.paintedCache java := by
    rw [paintedCache, paintedCache, Cache.resize_of_isDrained (h.repainted java).drained,
      Cache.resize_of_isDrained h.drained]
    rfl
  rw [paintedRuns, hcache]
  rfl

/-- Characters that are to have a style get it, and the others keep theirs. -/
theorem Aligned.getElem?_styles_repainted (h : Aligned s) {i : Nat} (hi : i < s.buffer.length) :
    (s.repainted java).document.styles[i]? =
      s.document.styles[i]?.map fun old => (s.expectedStyle? java i).or old := by
  refine (Run.getElem?_paintAll _ _ i).trans ?_
  rw [(h.paintedRuns_decomposes java).lastStyle_eq, if_pos hi]

end Highlighting

/-! ## Formatting -/

/-- Whether the lines from that of `start` to that of `stop` hold any text. -/
def formatsLines (s : Session MemoryDocument) (start stop : Nat) : Prop :=
  s.buffer.lineStart (min start s.buffer.length) < s.buffer.lineStop (min stop s.buffer.length)

instance (s : Session MemoryDocument) (start stop : Nat) : Decidable (s.formatsLines start stop) :=
  inferInstanceAs (Decidable (_ < _))

/-- The session after some lines were formatted and all were counted. -/
def formatted (s : Session MemoryDocument) (start stop : Nat) : Session MemoryDocument :=
  let document :=
    if s.formatsLines start stop then
      { s.document with
        tabSize := some s.options.tabSize
        lockCount := s.document.lockCount + 1
        paragraphChanges := s.document.paragraphChanges + 1 }
    else s.document
  { s with
    lineCount := s.buffer.lineCount
    document := { document with lineCount := s.buffer.lineCount } }

theorem formatLines_eq (h : Aligned s) (start stop : Nat) :
    formatLines start stop s = .ok ()
      { s with
        document :=
          if s.formatsLines start stop then
            { s.document with
              tabSize := some s.options.tabSize
              lockCount := s.document.lockCount + 1
              paragraphChanges := s.document.paragraphChanges + 1 }
          else s.document } := by
  rw [formatLines, Update.get_bind]
  by_cases hlines : s.formatsLines start stop
  · have hstop : s.buffer.lineStop (min stop s.buffer.length) ≤ s.document.length := by
      rw [h.document_length]
      exact Buffer.lineStop_le h.length_eq _
    have hrange : s.buffer.lineStart (min start s.buffer.length) +
        (s.buffer.lineStop (min stop s.buffer.length) -
          s.buffer.lineStart (min start s.buffer.length)) ≤ s.document.length := by
      rw [formatsLines] at hlines
      omega
    have hformat : onDocument (Surface.guarded _) s = .ok () _ :=
      onDocument_of_ok (MemoryDocument.guarded_changeParagraph hrange s.options.tabSize)
    rw [if_pos hlines]
    exact (if_pos hlines).symm ▸ Update.bind_of_ok hformat
  · rw [if_neg hlines]
    exact (if_neg hlines).symm ▸ rfl

theorem recountLines_eq (h : s.document.lineCount = s.lineCount) :
    recountLines s = .ok ()
      { s with
        lineCount := s.buffer.lineCount
        document := { s.document with lineCount := s.buffer.lineCount } } := by
  rw [recountLines, Update.get_bind]
  by_cases hcount : s.buffer.lineCount = s.lineCount
  · have hdocument : { s.document with lineCount := s.lineCount } = s.document := by
      rw [← h]
    rw [if_neg (not_not.mpr hcount), hcount, hdocument]
    rfl
  · rw [if_pos hcount]
    rfl

theorem adjustFormat_eq (h : Aligned s) (start stop : Nat) :
    adjustFormat start stop s = .ok () (s.formatted start stop) := by
  rw [adjustFormat, Update.bind_of_ok (formatLines_eq h start stop), recountLines_eq]
  · rfl
  · simp only
    split <;> exact h.lineCount_eq

end Session

end SourceEditor
