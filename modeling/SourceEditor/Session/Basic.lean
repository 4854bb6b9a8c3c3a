import SourceEditor.Highlight.Cache
import SourceEditor.Highlight.Semantic
import SourceEditor.Session.History
import SourceEditor.Session.Options

/-!
# Editing sessions

A session holds the text of one document and keeps a surface in step with it. This module has the
parts that every operation is made of:

* `Session.apply` makes an edit in the text and on the surface;
* `Session.reparse` highlights the whole text again;
* `Session.adjustFormat` sets the tab size of the lines around an edit and counts the lines.
-/

namespace SourceEditor

/-- An editing session over a surface. -/
structure Session (D : Type) where
  document : D
  buffer : Buffer
  policy : EditPolicy
  options : Options
  cache : Cache
  history : History
  language : Option Language
  /-- The syntax tree of the text, if it has been parsed since it last changed. -/
  tree : Option SyntaxTree
  /-- The parser that was used last, which is known by its language. -/
  parser : Option Language
  lineCount : Nat

namespace Session

variable {D : Type} [Surface D]

/-- A session over a document, which must be empty. -/
def start (document : D) (options : Options) : Except Fault (Session D) :=
  if Surface.length document = 0 then
    match (Surface.setLineCount 1 : Update D Unit) document, options.policy with
    | .ok _ document, .ok policy =>
      .ok
        { document, buffer := .empty, policy, options, cache := {}
          history := { limit := options.undoLimit }, language := none, tree := none
          parser := none, lineCount := 1 }
    | .error fault _, _ => .error fault
    | .ok _ _, .error fault => .error fault
  else .error .documentNotEmpty

/-- Runs an update of the surface. -/
def onDocument {α : Type} (update : Update D α) : Update (Session D) α :=
  Update.on Session.document (fun document s => { s with document }) update

/-- Runs an update of the text. -/
def onBuffer {α : Type} (update : Update Buffer α) : Update (Session D) α :=
  Update.on Session.buffer (fun buffer s => { s with buffer }) update

/-- Changes the history. -/
def onHistory (change : History → History) : Update (Session D) Unit :=
  modify fun s => { s with history := change s.history }

/-- Reports a change to the history. -/
def report (event : EditEvent) : Update (Session D) Unit := onHistory event.dispatch

/-- Puts the caret of the surface where the caret of the text is. -/
def showCaret : Update (Session D) Unit := do
  onDocument (Surface.setCaret (← get).buffer.caret)

/-- Puts the caret at an offset. -/
def setCaret (caret : Nat) : Update (Session D) Unit := do
  onBuffer (Buffer.setCaret caret)
  onDocument (Surface.setCaret caret)

/-- Moves the caret, as far as the text goes. -/
def moveCaret (delta : Int) : Update (Session D) Unit := do
  onBuffer (Buffer.moveCaret delta)
  showCaret

/-- Makes an edit in the text and on the surface. -/
def apply (e : Edit) : Update (Session D) Unit := do
  match e.kind with
  | .insert =>
    onBuffer (Buffer.insert e.offset e.text)
    onDocument (Surface.insert e.offset e.text)
  | .remove =>
    let _ ← onBuffer (Buffer.remove e.offset e.text.length)
    onDocument (Surface.remove e.offset e.text.length)
  showCaret

/-! ## Highlighting -/

/-- The parser for a language: the one that was used last, if it is for that language, and else a
new one. -/
def parserFor (last : Option Language) (language : Language) : Language :=
  (last.filter (· == language)).getD language

/-- The highlights of the tokens of the text, if the options ask for them. -/
def lexicalHighlights (options : Options) (language : Option Language) (text : List Char) :
    List Highlight :=
  match language with
  | some l => if options.tokenHighlighting then l.lexicalHighlights text else []
  | none => []

/-- The syntax tree that a parser makes of the text, if the options ask for highlights that need
it. -/
def highlightTree (java : ExternalParser) (options : Options) (parser : Option Language)
    (text : List Char) : Option SyntaxTree :=
  match parser with
  | some p => if options.semanticHighlighting then some (p.parse java text) else none
  | none => none

/-- The highlights of the names of the text, if the options ask for them. -/
def semanticHighlights (language : Option Language) (tree : Option SyntaxTree) : List Highlight :=
  match language, tree with
  | some l, some t => l.semanticHighlights t
  | _, _ => []

/-- Paints highlights in the styles of a scheme, later ones over earlier ones. -/
def paint (colors : Scheme) (highlights : List Highlight) (cache : Cache) : Cache :=
  highlights.foldl (fun c h => c.paint h.range (colors.style h.category)) cache

/-- Highlights the whole text: paints the tokens and then the names, and writes the result to the
surface. Gives the runs that were written. The cache is sized for a text that is there, for whose
characters there is always room. -/
def reparse (java : ExternalParser) : Update (Session D) (List Run) := do
  modify fun s =>
    let text := s.buffer.text
    let parser := s.language.map (parserFor s.parser)
    let tree := highlightTree java s.options parser text
    let highlights :=
      lexicalHighlights s.options s.language text ++ semanticHighlights s.language tree
    { s with
      tree
      parser := if tree.isSome then parser else s.parser
      cache := paint s.options.colors highlights (s.cache.resize s.buffer.length) }
  let runs ← Update.on (fun s => (s.cache, s.document))
    (fun part s => { s with cache := part.1, document := part.2 }) Cache.reconcile
  runs.forM fun r => report (.attribute ⟨r.start, r.count, .character⟩)
  return runs

/-! ## Formatting -/

/-- Sets the tab size of the lines from that of `start` to that of `stop`. -/
def formatLines (start stop : Nat) : Update (Session D) Unit := do
  let s ← get
  let first := s.buffer.lineStart (min start s.buffer.length)
  let last := s.buffer.lineStop (min stop s.buffer.length)
  if first < last then
    onDocument (Surface.guarded (Surface.changeParagraph first (last - first) s.options.tabSize))
    report (.attribute ⟨first, last - first, .paragraph⟩)

/-- Counts the lines and tells the surface when their number has changed. -/
def recountLines : Update (Session D) Unit := do
  let s ← get
  let lineCount := s.buffer.lineCount
  if lineCount ≠ s.lineCount then
    set { s with lineCount }
    onDocument (Surface.setLineCount lineCount)

/-- Formats the lines from that of `start` to that of `stop` and counts the lines. -/
def adjustFormat (start stop : Nat) : Update (Session D) Unit := do
  formatLines start stop
  recountLines

end Session

end SourceEditor
