import SourceEditor.Proofs.Session.Parts

/-!
# Coherent sessions

Between two operations a session is more than aligned. It is `Mirrored`: the document shows the text
as it is, with its lines counted and formatted. It is `Painted`: every character that is to have a
style has it. `Coherent` adds that policy and history go by the current options.

An operation that changes the text ends by highlighting and formatting (`refreshed`), which makes an
aligned session coherent again (`Aligned.coherent_refreshed`). In particular a coherent session
stays so when an edit is made and the history is set (`Coherent.committed`). Whatever leaves text,
styles, lines and options alone keeps a session coherent too (`Coherent.of_aligned`).
-/

namespace SourceEditor.Session

/-- The document shows the text of the session. -/
structure Mirrored (s : Session MemoryDocument) : Prop extends Aligned s where
  no_return : '\r' ∉ s.buffer.text
  lineCount_eq_count : s.lineCount = 1 + s.buffer.text.count '\n'
  tabSize_eq : s.buffer.text ≠ [] → s.document.tabSize = some s.options.tabSize

/-- Every character that is to have a style has it. -/
def Painted (java : ExternalParser) (s : Session MemoryDocument) : Prop :=
  ∀ i < s.buffer.length, ∀ style, s.expectedStyle? java i = some style →
    s.document.styleAt? i = some style

/-- Between two operations. -/
structure Coherent (java : ExternalParser) (s : Session MemoryDocument) : Prop
    extends Mirrored s where
  policy_eq : s.options.policy = .ok s.policy
  limit_eq : s.history.limit = s.options.undoLimit
  painted : Painted java s

variable {java : ExternalParser} {s t : Session MemoryDocument}

/-- Caret, history, tree and messages are free to change. -/
theorem Coherent.of_aligned (h : Coherent java s) (ht : Aligned t)
    (htext : t.buffer.text = s.buffer.text) (hlines : t.lineCount = s.lineCount)
    (hstyles : t.document.styles = s.document.styles)
    (htab : t.document.tabSize = s.document.tabSize) (hoptions : t.options = s.options)
    (hpolicy : t.policy = s.policy) (hlanguage : t.language = s.language)
    (hlimit : t.history.limit = s.history.limit) : Coherent java t where
  toAligned := ht
  no_return := htext ▸ h.no_return
  lineCount_eq_count := by rw [hlines, htext, h.lineCount_eq_count]
  tabSize_eq hne := by
    rw [htab, hoptions]
    exact h.tabSize_eq (htext ▸ hne)
  policy_eq := by rw [hoptions, hpolicy, h.policy_eq]
  limit_eq := by rw [hlimit, hoptions, h.limit_eq]
  painted i hi style hstyle := by
    rw [expectedStyle?, hoptions, hlanguage, htext] at hstyle
    rw [ht.length_eq, htext, ← h.length_eq] at hi
    rw [MemoryDocument.styleAt?, hstyles]
    exact h.painted i hi style hstyle

/-! ## Highlighting and formatting -/

/-- The session after its text was highlighted and lines of it were formatted. -/
def refreshed (java : ExternalParser) (s : Session MemoryDocument) (start stop : Nat) :
    Session MemoryDocument :=
  (s.repainted java).formatted start stop

theorem Aligned.formatted (h : Aligned s) (start stop : Nat) :
    Aligned (s.formatted start stop) := by
  by_cases hlines : s.formatsLines start stop
  · rw [Session.formatted, if_pos hlines]
    exact ⟨h.chars_eq, h.length_eq, h.caret_eq, h.caret_le, h.styles_length, rfl, h.unlocked,
      h.unlockedWrites_eq, h.drained⟩
  · rw [Session.formatted, if_neg hlines]
    exact ⟨h.chars_eq, h.length_eq, h.caret_eq, h.caret_le, h.styles_length, rfl, h.unlocked,
      h.unlockedWrites_eq, h.drained⟩

theorem Aligned.refreshed (h : Aligned s) (start stop : Nat) :
    Aligned (s.refreshed java start stop) :=
  (h.repainted java).formatted start stop

theorem refresh_eq (h : Aligned s) (start stop : Nat) :
    refresh java start stop s = .ok () (s.refreshed java start stop) := by
  rw [refresh, Update.bind_of_ok (reparse_eq java s), adjustFormat_eq (h.repainted java), refreshed]

theorem styles_formatted (s : Session MemoryDocument) (start stop : Nat) :
    (s.formatted start stop).document.styles = s.document.styles := by
  unfold formatted
  split <;> rfl

theorem tabSize_formatted (s : Session MemoryDocument) (start stop : Nat) :
    (s.formatted start stop).document.tabSize =
      if s.formatsLines start stop then some s.options.tabSize else s.document.tabSize := by
  unfold formatted
  split <;> rfl

/-- The lines of a range with text in it hold text. -/
theorem formatsLines_of_lt {start stop : Nat} (h : start < stop) (hstop : stop ≤ s.buffer.length) :
    s.formatsLines start stop := by
  have hfirst := s.buffer.lineStart_le (min start s.buffer.length)
  have hlast := Buffer.le_lineStop (Nat.min_le_right stop s.buffer.length)
  rw [formatsLines]
  omega

theorem Aligned.mirrored_refreshed (h : Aligned s) {start stop : Nat}
    (hreturn : '\r' ∉ s.buffer.text) (hstop : stop ≤ s.buffer.length)
    (htab : s.buffer.text ≠ [] →
      s.document.tabSize = some s.options.tabSize ∨ start < stop) :
    Mirrored (s.refreshed java start stop) where
  toAligned := h.refreshed start stop
  no_return := hreturn
  lineCount_eq_count := Nat.add_comm _ 1
  tabSize_eq htext := by
    rw [Session.refreshed, tabSize_formatted]
    split
    · rfl
    · next hlines =>
      obtain hold | hlt := htab htext
      · exact hold
      · exact absurd (formatsLines_of_lt hlt hstop) hlines

/-- A character gets the style that it is to have, or keeps the one it has. -/
theorem Aligned.styleAt?_repainted (h : Aligned s) {i : Nat} (hi : i < s.buffer.length) :
    (s.repainted java).document.styleAt? i =
      (s.expectedStyle? java i).or (s.document.styleAt? i) := by
  have hstyles : i < s.document.styles.length := by
    rw [h.styles_length, ← h.length_eq]
    exact hi
  rw [MemoryDocument.styleAt?, h.getElem?_styles_repainted java hi, MemoryDocument.styleAt?,
    List.getElem?_eq_getElem hstyles]
  rfl

theorem Aligned.styleAt?_refreshed (h : Aligned s) {i : Nat} (hi : i < s.buffer.length)
    (start stop : Nat) :
    (s.refreshed java start stop).document.styleAt? i =
      (s.expectedStyle? java i).or (s.document.styleAt? i) := by
  rw [MemoryDocument.styleAt?, Session.refreshed, styles_formatted]
  exact h.styleAt?_repainted hi

theorem Aligned.painted_repainted (h : Aligned s) : Painted java (s.repainted java) := by
  intro i hi style hstyle
  have hexpected : s.expectedStyle? java i = some style := hstyle
  rw [h.styleAt?_repainted hi, hexpected, Option.some_or]

theorem Aligned.painted_refreshed (h : Aligned s) (start stop : Nat) :
    Painted java (s.refreshed java start stop) := by
  intro i hi style hstyle
  rw [MemoryDocument.styleAt?, Session.refreshed, styles_formatted]
  exact h.painted_repainted i hi style hstyle

/-- Highlighting and formatting make an aligned session coherent, if the lines with new text in them
are formatted. -/
theorem Aligned.coherent_refreshed (h : Aligned s) {start stop : Nat}
    (hreturn : '\r' ∉ s.buffer.text) (hstop : stop ≤ s.buffer.length)
    (htab : s.buffer.text ≠ [] →
      s.document.tabSize = some s.options.tabSize ∨ start < stop)
    (hpolicy : s.options.policy = .ok s.policy) (hlimit : s.history.limit = s.options.undoLimit) :
    Coherent java (s.refreshed java start stop) where
  toMirrored := h.mirrored_refreshed hreturn hstop htab
  policy_eq := hpolicy
  limit_eq := hlimit
  painted := h.painted_refreshed start stop

/-- Highlighting alone keeps the document as it is, but for the styles. -/
theorem Mirrored.coherent_repainted (h : Mirrored s) (hpolicy : s.options.policy = .ok s.policy)
    (hlimit : s.history.limit = s.options.undoLimit) : Coherent java (s.repainted java) where
  toAligned := h.toAligned.repainted java
  no_return := h.no_return
  lineCount_eq_count := h.lineCount_eq_count
  tabSize_eq := h.tabSize_eq
  policy_eq := hpolicy
  limit_eq := hlimit
  painted := h.toAligned.painted_repainted

/-- Painting over characters that have their styles changes nothing. -/
theorem Coherent.styles_repainted (h : Coherent java s) :
    (s.repainted java).document.styles = s.document.styles := by
  refine List.ext_getElem? fun i => ?_
  by_cases hi : i < s.buffer.length
  · have hstyles : i < s.document.styles.length := by
      rw [h.styles_length, ← h.length_eq]
      exact hi
    rw [h.getElem?_styles_repainted java hi, List.getElem?_eq_getElem hstyles, Option.map_some]
    cases hstyle : s.expectedStyle? java i with
    | none => rw [Option.none_or]
    | some style =>
      have hold := h.painted i hi style hstyle
      rw [MemoryDocument.styleAt?, List.getElem?_eq_getElem hstyles, Option.join_some] at hold
      rw [Option.some_or, hold]
  · have hlength : (s.repainted java).document.styles.length = s.document.styles.length :=
      Run.length_paintAll _ _
    have hle : s.document.styles.length ≤ i := by
      rw [h.styles_length, ← h.length_eq]
      omega
    rw [List.getElem?_eq_none (hlength ▸ hle), List.getElem?_eq_none hle]

/-! ## Edits that are made -/

/-- The session after an edit has been made, with the caret put at an offset and the history given:
the whole text is highlighted again, and the lines around the edit are formatted. -/
def committed (java : ExternalParser) (s : Session MemoryDocument) (e : Edit) (caret : Nat)
    (history : History) : Session MemoryDocument :=
  refreshed java { (s.edited e).caretAt caret with history } e.offset e.touchedStop

theorem text_committed {e : Edit} {after : List Char} (he : e.Makes s.buffer.text after)
    (caret : Nat) (history : History) :
    (s.committed java e caret history).buffer.text = after :=
  Buffer.text_edited he

theorem Aligned.committed_middle (h : Aligned s) {e : Edit} {after : List Char}
    (he : e.Makes s.buffer.text after) {caret : Nat} (hcaret : caret ≤ after.length)
    (history : History) : Aligned { (s.edited e).caretAt caret with history } := by
  have haligned : Aligned ((s.edited e).caretAt caret) :=
    (h.edited he).caretAt ((Buffer.length_edited he h.length_eq).symm ▸ hcaret)
  exact haligned.of_eq rfl rfl rfl rfl

theorem Aligned.committed (h : Aligned s) {e : Edit} {after : List Char}
    (he : e.Makes s.buffer.text after) {caret : Nat} (hcaret : caret ≤ after.length)
    (history : History) : Aligned (s.committed java e caret history) :=
  (h.committed_middle he hcaret history).refreshed _ _

/-- A coherent session stays so when an edit is made. -/
theorem Coherent.committed (h : Coherent java s) {e : Edit} {after : List Char}
    (he : e.Makes s.buffer.text after) (hne : e.text ≠ []) (hreturn : '\r' ∉ after) {caret : Nat}
    (hcaret : caret ≤ after.length) {history : History}
    (hlimit : history.limit = s.history.limit) :
    Coherent java (s.committed java e caret history) := by
  have htext : (s.buffer.edited e).text = after := Buffer.text_edited he
  have hlength : (s.buffer.edited e).length = after.length :=
    Buffer.length_edited he h.length_eq
  refine (h.toAligned.committed_middle he hcaret history).coherent_refreshed ?_ ?_ ?_ h.policy_eq
    (hlimit.trans h.limit_eq)
  · change '\r' ∉ (s.buffer.edited e).text
    rw [htext]
    exact hreturn
  · change e.touchedStop ≤ (s.buffer.edited e).length
    rw [hlength]
    exact he.touchedStop_le
  · intro _
    -- a removal may leave lines without text, but then the tab size was set before
    obtain hbefore | hlt := he.before_ne_nil_or_lt hne
    · left
      change (s.document.edited e).tabSize = _
      rw [MemoryDocument.edited_eq]
      exact h.tabSize_eq hbefore
    · exact Or.inr hlt

end SourceEditor.Session
