import SourceEditor.Document.Terminal
import SourceEditor.File.Store
import SourceEditor.Session.Editing
import SourceEditor.Settings.Basic

/-!
# Highlighting a file

A file is shown by loading its text into a session over a terminal document, in the language that
its name calls for, and printing that document.
-/

namespace SourceEditor

/-- What is asked for beside what the settings say. -/
structure HighlightRequest where
  noLexical : Bool := false
  noSemantic : Bool := false
  lineNumbers : Bool := false
  deriving DecidableEq, Repr

namespace HighlightRequest

/-- The options of the session: the settings with the unwanted passes switched off. -/
def options (request : HighlightRequest) (settings : Settings) : Options :=
  { settings.options with
    tokenHighlighting := settings.tokenHighlighting && !request.noLexical
    semanticHighlighting := settings.semanticHighlighting && !request.noSemantic }

/-- The steps of the session. -/
def display (java : ExternalParser) (fileName text : List Char) :
    Update (Session TerminalDocument) Unit := do
  let _ ← Session.switchLanguage java fileName
  Session.load java text

/-- The printed form of a text in a file of the given name. -/
def render (java : ExternalParser) (request : HighlightRequest) (settings : Settings)
    (fileName text : List Char) : Except Fault (List Char) :=
  match Session.start ({} : TerminalDocument) (request.options settings) with
  | .error fault => .error fault
  | .ok session =>
    match display java fileName text session with
    | .error fault _ => .error fault
    | .ok _ session => session.document.render request.lineNumbers

end HighlightRequest

end SourceEditor
