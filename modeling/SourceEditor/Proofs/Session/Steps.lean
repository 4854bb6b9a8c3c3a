import SourceEditor.Proofs.Session.Failure

/-!
# What one operation does

`Operation.Changes` says which operations change the text of a session by an edit, in terms of what
the session holds before. `Session.Step` says what an operation leaves of the things that depend on
the text: the syntax tree, the language and the flag that tells whether the text has been edited.
There are six kinds of steps.

* Nothing happens, apart from the caret and messages.
* An edit changes the text. The flag is set, and highlighting renews the tree.
* A text is loaded.
* The text is highlighted again, which renews the tree.
* The tree is asked for.
* The text is marked as saved.

Every operation of a session over a document in memory is such a step (`Sound.step`), so that a
property of these things is kept by all operations if it is kept by these six.
-/

namespace SourceEditor

/-- Whether an operation changes the text by an edit: text is put in or taken out that is not empty
and lies inside the text, or there is an edit to take back or to make again. A delimiter that is
only stepped over has nothing to put in. The operations on lines always make an edit. -/
def Operation.Changes {D : Type} (s : Session D) : Operation → Prop
  | .insert offset text =>
    (s.policy.planInsert s.buffer offset text).text ≠ [] ∧ offset ≤ s.buffer.length
  | .remove offset count => 0 < count ∧ offset + count ≤ s.buffer.length
  | .clear => s.buffer.text ≠ []
  | .undo => s.history.undos ≠ []
  | .redo => s.history.redos ≠ []
  | .nextLine | .splitLine | .newLineBefore | .toggleLineComment => True
  | .load _ | .setCaret _ | .switchLanguage _ | .setLanguage _ | .reload _ | .reparse
  | .syntaxTree | .markSaved => False

/-- Whether the text counts as saved after an operation. -/
def Operation.saves : Operation → Bool
  | .load _ | .markSaved => true
  | _ => false

theorem Operation.saves_eq_false_of_changes {D : Type} {s : Session D} {operation : Operation}
    (h : operation.Changes s) : operation.saves = false := by
  cases operation with
  | load _ | markSaved => exact absurd h id
  | _ => rfl

theorem Language.lineComment_eq_slashes (l : Language) : l.lineComment = ['/', '/'] := by
  cases l <;> rfl

namespace Session

variable {java : ExternalParser} {timeline : Timeline} {s t : Session MemoryDocument}

/-! ## Steps -/

/-- Text, language, syntax tree and history are as before. -/
structure Still (s t : Session MemoryDocument) : Prop where
  text_eq : t.buffer.text = s.buffer.text
  language_eq : t.language = s.language
  tree_eq : t.tree = s.tree
  history_eq : t.history = s.history

/-- The syntax tree is the one that highlighting calls for. -/
def Renewed (java : ExternalParser) (s : Session MemoryDocument) : Prop :=
  s.tree = highlightTree java s.options s.language s.buffer.text

/-- The text was edited and highlighted. -/
structure Changed (java : ExternalParser) (s t : Session MemoryDocument) : Prop where
  text_ne : t.buffer.text ≠ s.buffer.text
  edited_eq : t.history.edited = true
  renewed : Renewed java t

/-- What an operation can make of a session. -/
inductive Step (java : ExternalParser) (s : Session MemoryDocument) :
    Operation → Session MemoryDocument → Prop
  | still {operation : Operation} {t : Session MemoryDocument}
      (unchanging : ¬ operation.Changes s) (saves : operation.saves = false) (still : Still s t) :
      Step java s operation t
  | change {operation : Operation} {t : Session MemoryDocument} (changes : operation.Changes s)
      (changed : Changed java s t) : Step java s operation t
  | load (text : List Char) {t : Session MemoryDocument}
      (loaded : Loaded java s.options s.language (EditPolicy.withoutReturns text) t) :
      Step java s (.load text) t
  | highlight {operation : Operation} {t : Session MemoryDocument}
      (unchanging : ¬ operation.Changes s) (saves : operation.saves = false)
      (text_eq : t.buffer.text = s.buffer.text) (edited_eq : t.history.edited = s.history.edited)
      (renewed : Renewed java t) : Step java s operation t
  | parse : Step java s .syntaxTree (s.parsed java)
  | save : Step java s .markSaved { s with history := s.history.markSaved }

/-! ## Edits -/

theorem Still.refl (s : Session MemoryDocument) : Still s s := ⟨rfl, rfl, rfl, rfl⟩

theorem still_caretAt (s : Session MemoryDocument) (caret : Nat) : Still s (s.caretAt caret) :=
  ⟨rfl, rfl, rfl, rfl⟩

/-- An edit that is committed changes the text, and highlighting follows. -/
theorem changed_committed {e : Edit} {after : List Char} (he : e.Makes s.buffer.text after)
    (hne : e.text ≠ []) (caret : Nat) {history : History} (hedited : history.edited = true) :
    Changed java s (s.committed java e caret history) where
  text_ne := (text_committed he caret history).trans_ne (he.ne hne)
  edited_eq := hedited
  renewed := rfl

/-- A session is edited exactly under a condition, and else nothing happens to it. -/
def ChangesIff (java : ExternalParser) (s : Session MemoryDocument) (changes : Prop)
    (t : Session MemoryDocument) : Prop :=
  (changes ∧ Changed java s t) ∨ (¬ changes ∧ Still s t)

theorem ChangesIff.step {operation : Operation} (h : ChangesIff java s (operation.Changes s) t)
    (hsaves : operation.saves = false) : Step java s operation t := by
  rcases h with ⟨hchanges, hchanged⟩ | ⟨hchanges, hstill⟩
  · exact .change hchanges hchanged
  · exact .still hchanges hsaves hstill

variable (java)

theorem changesIff_insert (h : Aligned s) (offset : Nat) (text : List Char) :
    ChangesIff java s ((Operation.insert offset text).Changes s)
      ((insert java offset text).final s) := by
  obtain ⟨hnil, caret, -, heq⟩ | ⟨hne, ⟨hlt, fault, heq⟩ | ⟨hle, after, caret, he, -, heq⟩⟩ :=
    insert_cases java h offset text rfl
  · rw [Update.final_of_ok heq]
    exact .inr ⟨fun hchanges => hchanges.1 hnil, still_caretAt s caret⟩
  · rw [Update.final_of_error heq]
    exact .inr ⟨fun hchanges => Nat.not_lt.mpr hchanges.2 hlt, Still.refl s⟩
  · rw [Update.final_of_ok heq]
    exact .inl ⟨⟨hne, hle⟩, changed_committed he hne caret rfl⟩

theorem changesIff_remove (h : Aligned s) (offset count : Nat) :
    ChangesIff java s ((Operation.remove offset count).Changes s)
      ((remove java offset count).final s) := by
  obtain ⟨rfl, heq⟩ | ⟨hpos, ⟨hlt, fault, heq⟩ | ⟨hle, e, after, he, hne, -, heq⟩⟩ :=
    remove_cases java h offset count
  · rw [Update.final_of_ok heq]
    exact .inr ⟨fun hchanges => Nat.lt_irrefl 0 hchanges.1, Still.refl s⟩
  · rw [Update.final_of_error heq]
    exact .inr ⟨fun hchanges => Nat.not_lt.mpr hchanges.2 hlt, Still.refl s⟩
  · rw [Update.final_of_ok heq]
    exact .inl ⟨⟨hpos, hle⟩, changed_committed he hne _ rfl⟩

variable {java}

theorem changesIff_clear (h : Aligned s) :
    ChangesIff java s (Operation.clear.Changes s) ((clear java).final s) := by
  by_cases hnil : s.buffer.text = []
  · rw [Update.final_of_ok (clear_of_nil h hnil)]
    exact .inr ⟨not_not.mpr hnil, Still.refl s⟩
  · rw [Update.final_of_ok (clear_of_ne_nil h hnil rfl)]
    exact .inl ⟨hnil, changed_committed (Edit.remove_all_makes s.buffer.text) hnil _ rfl⟩

theorem changesIff_undo (h : Sound java timeline s) :
    ChangesIff java s (Operation.undo.Changes s) ((undo java).final s) := by
  cases hundos : s.history.undos with
  | nil =>
    rw [Update.final_of_ok (undo_of_nil hundos)]
    exact .inr ⟨not_not.mpr hundos, Still.refl s⟩
  | cons e rest =>
    have hwalk := h.undos_walk
    rw [hundos] at hwalk
    obtain ⟨before, hmakes, hne⟩ := hwalk.exists_makes
    rw [Update.final_of_ok (undo_eq h.toAligned hundos hmakes)]
    refine .inl ⟨?_, changed_committed hmakes hne _ rfl⟩
    rw [Operation.Changes, hundos]
    exact List.cons_ne_nil e rest

theorem changesIff_redo (h : Sound java timeline s) :
    ChangesIff java s (Operation.redo.Changes s) ((redo java).final s) := by
  cases hredos : s.history.redos with
  | nil =>
    rw [Update.final_of_ok (redo_of_nil hredos)]
    exact .inr ⟨not_not.mpr hredos, Still.refl s⟩
  | cons e rest =>
    have hwalk := h.redos_walk
    rw [hredos] at hwalk
    obtain ⟨after, hmakes, hne⟩ := hwalk.exists_makes
    rw [Update.final_of_ok (redo_eq h.toAligned hredos hmakes)]
    refine .inl ⟨?_, changed_committed hmakes hne _ rfl⟩
    rw [Operation.Changes, hredos]
    exact List.cons_ne_nil e rest

/-! ## Lines -/

theorem changed_breakLine (h : Coherent java s) (message : String) (offset caret : Buffer → Nat)
    (hoffset : offset s.buffer ≤ s.buffer.length)
    (hcaret : caret s.buffer ≤ s.buffer.length + 1) :
    Changed java s ((breakLine java message offset caret).final s) := by
  obtain ⟨place, heq⟩ := breakLine_eq h message offset caret hoffset hcaret
  obtain ⟨after, he, -⟩ := Edit.exists_lineBreak_makes (h.length_eq ▸ hoffset)
  have hne : (Edit.lineBreak (offset s.buffer)).text ≠ [] := List.cons_ne_nil _ _
  have hchanged : Changed java (s.noted message) ((s.noted message).committed java
      (.lineBreak (offset s.buffer)) place (s.history.record (.lineBreak (offset s.buffer)))) :=
    changed_committed (s := s.noted message) he hne place rfl
  rw [Update.final_of_ok heq]
  exact ⟨hchanged.text_ne, rfl, rfl⟩

/-- A comment mark has two characters, so it is no delimiter to be stepped over. -/
theorem changed_toggleLineComment (h : Coherent java s) :
    Changed java s ((toggleLineComment java).final s) := by
  have hmark := (s.language.getD .kotlin).lineComment_eq_slashes
  have hstart := (s.buffer.lineStart_le s.buffer.caret).trans h.caret_le
  have hstop := Buffer.lineStop_le h.length_eq s.buffer.caret
  rw [Update.final, h.toAligned.toggleLineComment_eq java, ← Update.final]
  simp only [hmark]
  split
  · next hcommented =>
    have hle := hcommented.1
    rw [hmark] at hle
    rcases changesIff_remove java h.toAligned (s.buffer.lineStart s.buffer.caret) 2 with
      ⟨-, hchanged⟩ | ⟨hnot, -⟩
    · exact hchanged
    · exact absurd ⟨by decide, hle.trans hstop⟩ hnot
  · have hplan : s.policy.planInsert s.buffer (s.buffer.lineStart s.buffer.caret) ['/', '/'] = _ :=
      s.policy.planInsert_of_two_le s.buffer _ (by decide) (by decide)
    rcases changesIff_insert java h.toAligned (s.buffer.lineStart s.buffer.caret)
      ['/', '/'] with ⟨-, hchanged⟩ | ⟨hnot, -⟩
    · exact hchanged
    · refine absurd ⟨?_, hstart⟩ hnot
      rw [hplan]
      exact List.cons_ne_nil _ _

/-! ## All operations -/

/-- **Every operation is a step.** -/
theorem Sound.step (h : Sound java timeline s) (operation : Operation) :
    Step java s operation ((Session.perform java operation).final s) := by
  have hcoherent := h.toCoherent
  have haligned := hcoherent.toAligned
  have hcaret := haligned.caret_le
  have hstart := (s.buffer.lineStart_le s.buffer.caret).trans hcaret
  have hstop := Buffer.lineStop_le haligned.length_eq s.buffer.caret
  cases operation <;> simp only [Session.perform, Update.final_map]
  case insert offset text => exact (changesIff_insert java haligned offset text).step rfl
  case remove offset count => exact (changesIff_remove java haligned offset count).step rfl
  case clear => exact (changesIff_clear haligned).step rfl
  case undo => exact (changesIff_undo h).step rfl
  case redo => exact (changesIff_redo h).step rfl
  case nextLine =>
    exact .change trivial (changed_breakLine hcoherent _ _ _ hstop (Nat.succ_le_succ hstop))
  case splitLine =>
    exact .change trivial (changed_breakLine hcoherent _ _ _ hcaret (Nat.le_succ_of_le hcaret))
  case newLineBefore =>
    exact .change trivial (changed_breakLine hcoherent _ _ _ hstart (Nat.le_succ_of_le hstart))
  case toggleLineComment => exact .change trivial (changed_toggleLineComment hcoherent)
  case load text =>
    obtain ⟨t, heq, ht⟩ := load_eq hcoherent text
    rw [Update.final_of_ok heq]
    exact .load text ht
  case setCaret caret =>
    refine .still id rfl ?_
    by_cases hle : caret ≤ s.buffer.length
    · rw [Update.final_of_ok (setCaret_eq haligned hle)]
      exact still_caretAt s caret
    · rw [Update.final_of_error (setCaret_of_lt (Nat.lt_of_not_le hle))]
      exact Still.refl s
  case switchLanguage fileName =>
    rw [Update.final_of_ok (switchLanguage_eq s fileName)]
    exact .highlight id rfl rfl rfl rfl
  case setLanguage language =>
    rw [Update.final_of_ok (setLanguage_eq s language)]
    exact .highlight id rfl rfl rfl rfl
  case reload options =>
    cases hpolicy : options.policy with
    | error fault =>
      rw [Update.final_of_error (reload_of_error hpolicy)]
      exact .still id rfl (Still.refl s)
    | ok policy =>
      rw [Update.final_of_ok (reload_eq haligned hpolicy)]
      exact .highlight id rfl rfl rfl rfl
  case reparse =>
    rw [Update.final_of_ok (reparse_eq java s)]
    exact .highlight id rfl rfl rfl rfl
  case syntaxTree =>
    rw [Update.final_of_ok (syntaxTree_eq s)]
    exact .parse
  case markSaved => exact .save

end Session

end SourceEditor
