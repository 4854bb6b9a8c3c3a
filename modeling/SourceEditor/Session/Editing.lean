import SourceEditor.Session.Basic

/-!
# Operations of an editing session

Every change of the text runs the same course: the edit itself, the move of the caret, the record in
the history, the highlighting of the whole text, and the format of the lines around the edit. Taking
back and making again run it without the policy and without a record.
-/

namespace SourceEditor.Session

variable {D : Type} [Surface D] (java : ExternalParser)

/-- Highlights the whole text and formats the lines from that of `start` to that of `stop`. -/
def refresh (start stop : Nat) : Update (Session D) Unit := do
  let _ ← reparse java
  adjustFormat start stop

/-- Records an edit that has been made and brings the surface up to date. -/
def finishEdit (e : Edit) : Update (Session D) Unit := do
  report (.content e)
  refresh java e.offset e.touchedStop

/-- Inserts text, as the policy plans it. Nothing is recorded when the plan only steps over a
delimiter, and the caret moves only if it is where the text goes. -/
def insert (offset : Nat) (text : List Char) : Update (Session D) Unit := do
  let s ← get
  let plan := s.policy.planInsert s.buffer offset text
  let atCaret := offset = s.buffer.caret
  if plan.isStep then
    if atCaret then moveCaret plan.caretMove
  else if plan.text ≠ [] then
    let e : Edit := ⟨.insert, plan.offset, plan.text⟩
    apply e
    if atCaret ∧ plan.caretMove ≠ 0 then moveCaret plan.caretMove
    finishEdit java e

/-- Removes characters, as the policy plans it. -/
def remove (offset count : Nat) : Update (Session D) Unit := do
  let s ← get
  let plan := s.policy.planRemove s.buffer offset count
  if plan.count ≠ 0 then
    let stop ← Update.rangeStop plan.offset plan.count s.buffer.length
    let removed ← Update.ofExcept (s.buffer.slice plan.offset stop)
    let e : Edit := ⟨.remove, plan.offset, removed⟩
    apply e
    finishEdit java e

/-- Removes the whole text as one edit. -/
def clear : Update (Session D) Unit := do
  let s ← get
  if !s.buffer.isEmpty then
    let e : Edit := ⟨.remove, 0, s.buffer.text⟩
    apply e
    finishEdit java e

/-- Replaces the whole text. -/
def replaceText (text : List Char) : Update (Session D) Unit := do
  let s ← get
  if !s.buffer.isEmpty then apply ⟨.remove, 0, s.buffer.text⟩
  if text ≠ [] then apply ⟨.insert, 0, text⟩

/-- Replaces the whole text and forgets the history. -/
def load (text : List Char) : Update (Session D) Unit := do
  replaceText (EditPolicy.withoutReturns text)
  setCaret 0
  onHistory History.reset
  refresh java 0 (← get).buffer.length

/-- Makes an edit from the history, with the caret at the end of what changes. -/
def replay (e : Edit) : Update (Session D) Unit := do
  apply e
  setCaret e.touchedStop
  refresh java e.offset e.touchedStop

/-- Takes back the latest edit, if there is one. -/
def undo : Update (Session D) Unit := do
  match (← get).history.takeUndo? with
  | none => return
  | some (e, history) =>
    modify fun s => { s with history }
    replay java e

/-- Makes the edit again that was taken back last, if there is one. -/
def redo : Update (Session D) Unit := do
  match (← get).history.takeRedo? with
  | none => return
  | some (e, history) =>
    modify fun s => { s with history }
    replay java e

/-! ## Lines -/

/-- Shows a message, breaks the text at one offset and puts the caret at another. -/
def breakLine (message : String) (offset caret : Buffer → Nat) : Update (Session D) Unit := do
  onDocument (Surface.message message)
  let b := (← get).buffer
  insert java (offset b) ['\n']
  setCaret (caret b)

/-- Opens a line after that of the caret and goes there. -/
def nextLine : Update (Session D) Unit :=
  breakLine java "Started new line" (fun b => b.lineStop b.caret) (fun b => b.lineStop b.caret + 1)

/-- Breaks the line at the caret, which stays where it is. -/
def splitLine : Update (Session D) Unit :=
  breakLine java "Split new line" Buffer.caret Buffer.caret

/-- Opens a line before that of the caret and goes there. -/
def newLineBefore : Update (Session D) Unit :=
  breakLine java "Started new line before current line" (fun b => b.lineStart b.caret)
    (fun b => b.lineStart b.caret)

/-- Whether a line starts with a mark. -/
def lineStartsWith (b : Buffer) (start stop : Nat) (mark : List Char) : Except Fault Bool := do
  if mark.length ≤ stop - start then return (← b.slice start (start + mark.length)) == mark
  else return false

/-- Takes the comment mark from the start of the caret's line, or puts one there. -/
def toggleLineComment : Update (Session D) Unit := do
  let s ← get
  let mark := (s.language.getD .kotlin).lineComment
  let start := s.buffer.lineStart s.buffer.caret
  let stop := s.buffer.lineStop s.buffer.caret
  if ← Update.ofExcept (lineStartsWith s.buffer start stop mark) then
    remove java start mark.length
  else insert java start mark

/-! ## Language and options -/

/-- The session with a language selected, or none. A parser for another one is not kept. -/
def withLanguage (language : Option Language) (s : Session D) : Session D :=
  { s with language, parser := if s.language = language then s.parser else none }

/-- Selects a language, or none, and highlights the text in it. -/
def setLanguage (language : Option Language) : Update (Session D) Unit := do
  modify (withLanguage language)
  let _ ← reparse java

/-- Selects the language that a file name calls for, or none. -/
def switchLanguage (fileName : List Char) : Update (Session D) (Option Language) := do
  let language := Language.detect? fileName
  setLanguage java language
  return language

/-- Takes new options, and highlights and formats the whole text by them. -/
def reload (options : Options) : Update (Session D) Unit := do
  let policy ← Update.ofExcept options.policy
  modify fun s => { s with policy, options, history := s.history.setLimit options.undoLimit }
  refresh java 0 (← get).buffer.length

/-- The syntax tree of the text, if there is a language. It is parsed at most once for each text. -/
def syntaxTree : Update (Session D) (Option SyntaxTree) := do
  let s ← get
  match s.tree, s.language with
  | some tree, _ => return some tree
  | none, none => return none
  | none, some language =>
    let parser := parserFor s.parser language
    let tree := parser.parse java s.buffer.text
    set { s with tree := some tree, parser := some parser }
    return some tree

/-- Notes that the text has been saved. -/
def markSaved : Update (Session D) Unit := onHistory History.markSaved

end SourceEditor.Session
