import SourceEditor.Proofs.Session.LockStep
import SourceEditor.Proofs.Session.Timeline

/-!
# Highlighting leaves the content alone

The options of a session and its language say how the text is highlighted. Only the tab size, what a
typed tab becomes and the number of edits that can be taken back bear on the text itself
(`Options.EditsAlike`). Two sessions whose options agree on these three are given the same
operations, except that languages, and options as to highlighting, are chosen freely on either side
(`Operation.EditsAlike`). They then have the same content after every operation (`content_run`):
whatever highlighting writes goes to the styles of the document and to the counts of its locks and
writes, and is read by nothing else.
-/

namespace SourceEditor

open Update (EndAlike)

/-- Options that differ in highlighting only. -/
structure Options.EditsAlike (o o' : Options) : Prop where
  tabSize_eq : o'.tabSize = o.tabSize
  indentWithSpaces_eq : o'.indentWithSpaces = o.indentWithSpaces
  undoLimit_eq : o'.undoLimit = o.undoLimit

theorem Options.EditsAlike.policy_eq {o o' : Options} (h : o.EditsAlike o') :
    o'.policy = o.policy := by
  rw [policy, policy, h.tabSize_eq, h.indentWithSpaces_eq]

/-- Operations that are the same but for the languages that they select and for options that differ
in highlighting. -/
abbrev Operation.EditsAlike : Operation → Operation → Prop :=
  Operation.Corresponds (fun _ _ => True) Options.EditsAlike

/-! ## Documents -/

namespace MemoryDocument

/-- Documents that differ in styles and in what they count. -/
structure SameContent (d e : MemoryDocument) : Prop where
  chars_eq : e.chars = d.chars
  caret_eq : e.caret = d.caret
  tabSize_eq : e.tabSize = d.tabSize
  lineCount_eq : e.lineCount = d.lineCount
  messages_eq : e.messages = d.messages

namespace SameContent

variable {d e : MemoryDocument}

theorem length_eq (h : SameContent d e) : e.length = d.length := by
  rw [length, length, h.chars_eq]

theorem setCaret (h : SameContent d e) (caret : Nat) :
    EndAlike SameContent (setCaret caret d) (setCaret caret e) := by
  simp only [MemoryDocument.setCaret, Update.get_bind, h.length_eq]
  refine .ite (fun _ => .ok _ _ ?_) fun _ => .error _ h
  exact ⟨h.chars_eq, rfl, h.tabSize_eq, h.lineCount_eq, h.messages_eq⟩

theorem checkRange (h : SameContent d e) (offset count : Nat) :
    EndAlike SameContent (checkRange offset count d) (checkRange offset count e) := by
  simp only [MemoryDocument.checkRange, Update.get_bind, h.length_eq]
  exact .bind_rangeStop h _ _ _ (.ite (fun _ => .error _ h) fun _ => .ok _ _ h)

theorem insert (h : SameContent d e) (offset : Nat) (text : List Char) :
    EndAlike SameContent (insert offset text d) (insert offset text e) := by
  refine (h.checkRange offset 0).bind fun _ _ d e h => .ok _ _ ?_
  refine ⟨?_, ?_, h.tabSize_eq, h.lineCount_eq, h.messages_eq⟩
  · simp only [inserted, h.chars_eq]
  · simp only [inserted, h.caret_eq]

theorem remove (h : SameContent d e) (offset count : Nat) :
    EndAlike SameContent (remove offset count d) (remove offset count e) := by
  refine (h.checkRange offset count).bind fun _ _ d e h => .ok _ _ ?_
  refine ⟨?_, ?_, h.tabSize_eq, h.lineCount_eq, h.messages_eq⟩
  · simp only [removed, h.chars_eq]
  · simp only [removed, h.caret_eq]

theorem changeParagraph (h : SameContent d e) (offset count tabSize : Nat) :
    EndAlike SameContent (changeParagraph offset count tabSize d)
      (changeParagraph offset count tabSize e) := by
  refine (h.checkRange offset count).bind fun _ _ d e h => .ok _ _ ?_
  exact ⟨h.chars_eq, h.caret_eq, rfl, h.lineCount_eq, h.messages_eq⟩

/-- An update that keeps the locks is run under the lock. -/
theorem guarded {body : Update MemoryDocument Unit} (h : SameContent d e)
    (hbody : ∀ {d e}, SameContent d e → EndAlike SameContent (body d) (body e))
    (hlock : ∀ d, (body.final d).lockDepth = d.lockDepth) :
    EndAlike SameContent (Surface.guarded body d) (Surface.guarded body e) := by
  have hlocked : SameContent
      { d with lockDepth := d.lockDepth + 1, lockCount := d.lockCount + 1 }
      { e with lockDepth := e.lockDepth + 1, lockCount := e.lockCount + 1 } :=
    ⟨h.chars_eq, h.caret_eq, h.tabSize_eq, h.lineCount_eq, h.messages_eq⟩
  obtain ⟨_, _, d', e', hd, he, h'⟩ | ⟨fault, d', e', hd, he, h'⟩ := (hbody hlocked).result_cases
  · rw [guarded_of_ok hd (Update.final_of_ok hd ▸ hlock _),
      guarded_of_ok he (Update.final_of_ok he ▸ hlock _)]
    exact .ok _ _ ⟨h'.chars_eq, h'.caret_eq, h'.tabSize_eq, h'.lineCount_eq, h'.messages_eq⟩
  · rw [guarded_of_error hd (Update.final_of_error hd ▸ hlock _),
      guarded_of_error he (Update.final_of_error he ▸ hlock _)]
    exact .error fault ⟨h'.chars_eq, h'.caret_eq, h'.tabSize_eq, h'.lineCount_eq, h'.messages_eq⟩

end SameContent

end MemoryDocument

/-! ## Sessions -/

namespace Session

/-- Sessions that differ in language and highlighting. -/
structure SameContent (s t : Session MemoryDocument) : Prop where
  buffer_eq : t.buffer = s.buffer
  policy_eq : t.policy = s.policy
  history_eq : t.history = s.history
  lineCount_eq : t.lineCount = s.lineCount
  options_tabSize_eq : t.options.tabSize = s.options.tabSize
  document : MemoryDocument.SameContent s.document t.document

namespace SameContent

variable {java : ExternalParser} {s t : Session MemoryDocument}

theorem onDocument {update : Update MemoryDocument Unit} (h : SameContent s t)
    (hupdate : EndAlike MemoryDocument.SameContent (update s.document) (update t.document)) :
    EndAlike SameContent (onDocument update s) (onDocument update t) :=
  hupdate.on fun _ _ hdocument =>
    ⟨h.buffer_eq, h.policy_eq, h.history_eq, h.lineCount_eq, h.options_tabSize_eq, hdocument⟩

/-- The text is the same on both sides, and so is what becomes of it. -/
theorem onBuffer {α : Type} (h : SameContent s t) (update : Update Buffer α) :
    EndAlike SameContent (onBuffer update s) (onBuffer update t) := by
  have hbuffer (b : Buffer) : SameContent { s with buffer := b } { t with buffer := b } :=
    ⟨rfl, h.policy_eq, h.history_eq, h.lineCount_eq, h.options_tabSize_eq, h.document⟩
  rw [Session.onBuffer, Update.on, Update.on, h.buffer_eq]
  cases update s.buffer with
  | ok a b => exact .ok a a (hbuffer b)
  | error fault b => exact .error fault (hbuffer b)

theorem showCaret (h : SameContent s t) : EndAlike SameContent (showCaret s) (showCaret t) := by
  rw [Session.showCaret, Update.get_bind, Update.get_bind, h.buffer_eq]
  exact h.onDocument (h.document.setCaret _)

theorem setCaret (h : SameContent s t) (caret : Nat) :
    EndAlike SameContent (setCaret caret s) (setCaret caret t) :=
  (h.onBuffer _).bind fun _ _ _ _ h => h.onDocument (h.document.setCaret caret)

theorem apply (h : SameContent s t) (e : Edit) :
    EndAlike SameContent (apply e s) (apply e t) := by
  obtain ⟨kind, offset, text⟩ := e
  cases kind with
  | insert =>
    refine (h.onBuffer _).bind fun _ _ _ _ h => ?_
    refine (h.onDocument (h.document.insert offset text)).bind fun _ _ _ _ h => h.showCaret
  | remove =>
    refine (h.onBuffer _).bind fun _ _ _ _ h => ?_
    refine (h.onDocument (h.document.remove offset _)).bind fun _ _ _ _ h => h.showCaret

/-- Highlighting writes styles and nothing else that counts as content. -/
theorem reparse (h : SameContent s t) : EndAlike SameContent (reparse java s) (reparse java t) := by
  rw [reparse_eq, reparse_eq]
  exact .ok _ _ ⟨h.buffer_eq, h.policy_eq, h.history_eq, h.lineCount_eq, h.options_tabSize_eq,
    h.document.chars_eq, h.document.caret_eq, h.document.tabSize_eq, h.document.lineCount_eq,
    h.document.messages_eq⟩

theorem formatLines (h : SameContent s t) (start stop : Nat) :
    EndAlike SameContent (formatLines start stop s) (formatLines start stop t) := by
  simp only [Session.formatLines, Update.get_bind, h.buffer_eq, h.options_tabSize_eq]
  refine .ite (fun _ => ?_) fun _ => .ok _ _ h
  refine (h.onDocument ?_).bind fun _ _ _ _ h => .ok _ _ h
  exact h.document.guarded (fun h => h.changeParagraph _ _ _)
    (MemoryDocument.lockDepth_changeParagraph _ _ _)

theorem recountLines (h : SameContent s t) :
    EndAlike SameContent (recountLines s) (recountLines t) := by
  simp only [Session.recountLines, Update.get_bind, h.buffer_eq, h.lineCount_eq]
  refine .ite (fun _ => ?_) fun _ => .ok _ _ h
  exact .ok _ _ ⟨rfl, h.policy_eq, h.history_eq, rfl, h.options_tabSize_eq, h.document.chars_eq,
    h.document.caret_eq, h.document.tabSize_eq, rfl, h.document.messages_eq⟩

theorem syntaxTree (h : SameContent s t) :
    EndAlike SameContent (syntaxTree java s) (syntaxTree java t) := by
  rw [syntaxTree_eq, syntaxTree_eq]
  exact .ok _ _ ⟨h.buffer_eq, h.policy_eq, h.history_eq, h.lineCount_eq, h.options_tabSize_eq,
    h.document⟩

end SameContent

theorem lockStep_sameContent (java : ExternalParser) :
    LockStep java (fun _ _ => True) Options.EditsAlike SameContent where
  buffer_eq h := h.buffer_eq
  policy_eq h := h.policy_eq
  history_eq h := h.history_eq
  apply h := h.apply
  setCaret h := h.setCaret
  moveCaret h _ := (h.onBuffer _).bind fun _ _ _ _ h => h.showCaret
  message h text := h.onDocument <| .ok _ _
    ⟨h.document.chars_eq, h.document.caret_eq, h.document.tabSize_eq, h.document.lineCount_eq,
      congrArg (· ++ [text]) h.document.messages_eq⟩
  reparse h := h.reparse
  adjustFormat h start stop := (h.formatLines start stop).bind fun _ _ _ _ h => h.recountLines
  syntaxTree h := h.syntaxTree
  withHistory h _ :=
    ⟨h.buffer_eq, h.policy_eq, rfl, h.lineCount_eq, h.options_tabSize_eq, h.document⟩
  withLanguage h _ _ _ :=
    ⟨h.buffer_eq, h.policy_eq, h.history_eq, h.lineCount_eq, h.options_tabSize_eq, h.document⟩
  withOptions h _ _ ho _ :=
    ⟨h.buffer_eq, rfl, h.history_eq, h.lineCount_eq, ho.tabSize_eq, h.document⟩
  selects_refl _ := trivial
  takes_refl _ := ⟨rfl, rfl, rfl⟩
  policy_takes ho := ho.policy_eq
  undoLimit_takes ho := ho.undoLimit_eq

theorem sameContent_fresh {o o' : Options} (h : o.EditsAlike o') (policy : EditPolicy) :
    SameContent (fresh o policy) (fresh o' policy) where
  buffer_eq := rfl
  policy_eq := rfl
  history_eq := congrArg (fun limit => ({ limit } : History)) h.undoLimit_eq
  lineCount_eq := rfl
  options_tabSize_eq := h.tabSize_eq
  document := ⟨rfl, rfl, rfl, rfl, rfl⟩

/-- **Highlighting has no influence on the content.** Of two sessions whose options agree but for
highlighting, either both cannot be opened, or both are, and operations that agree but for
highlighting keep them the same in everything that is not a style. An operation fails in one of them
if and only if it fails in the other. -/
theorem content_run (java : ExternalParser) {o o' : Options} (ho : o.EditsAlike o')
    {operations operations' : List Operation}
    (hoperations : List.Forall₂ Operation.EditsAlike operations operations') :
    (∃ fault, start ({} : MemoryDocument) o = .error fault ∧
        start ({} : MemoryDocument) o' = .error fault) ∨
      ∃ s t, start ({} : MemoryDocument) o = .ok s ∧ start ({} : MemoryDocument) o' = .ok t ∧
        SameContent (run java operations s) (run java operations' t) ∧
        ∀ a b, a.EditsAlike b →
          (perform java a).fails (run java operations s) =
            (perform java b).fails (run java operations' t) := by
  rw [start_eq, start_eq, ho.policy_eq]
  cases o.policy with
  | error fault => exact Or.inl ⟨fault, rfl, rfl⟩
  | ok policy =>
    have hrun := (lockStep_sameContent java).run (sameContent_fresh ho policy) hoperations
    exact Or.inr ⟨_, _, rfl, rfl, hrun, fun a b hab =>
      ((lockStep_sameContent java).perform hrun hab).fails_eq⟩

/-- A word is commented out in a session with colors and in one without, each in a language of its
own. Only the first has styles afterwards. -/
theorem content_run_without_colors :
    let o : Options := { tokenHighlighting := false, semanticHighlighting := false }
    let operations : List Operation :=
      [.switchLanguage ['a', '.', 'k', 't'], .load ['v', 'a', 'r'], .setCaret 9, .toggleLineComment]
    let operations' : List Operation :=
      [.switchLanguage ['b'], .load ['v', 'a', 'r'], .setCaret 9, .toggleLineComment]
    let s := run noJavaParts operations (fresh {} {})
    let t := run noJavaParts operations' (fresh o {})
    ({} : Options).EditsAlike o ∧ List.Forall₂ Operation.EditsAlike operations operations' ∧
      s.document.styles ≠ t.document.styles ∧ SameContent s t := by
  intro o operations operations' s t
  have ho : ({} : Options).EditsAlike o := ⟨rfl, rfl, rfl⟩
  have hoperations : List.Forall₂ Operation.EditsAlike operations operations' :=
    .cons (.switchLanguage trivial) (List.forall₂_same.mpr fun a _ => .same a)
  refine ⟨ho, hoperations, by decide +kernel, ?_⟩
  obtain ⟨fault, herror, -⟩ | ⟨s₀, t₀, hs, ht, hsame, -⟩ := content_run noJavaParts ho hoperations
  · cases herror
  · cases hs
    cases ht
    exact hsame

end Session

end SourceEditor
