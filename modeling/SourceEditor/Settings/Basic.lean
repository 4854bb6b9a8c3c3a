import SourceEditor.File.Path
import SourceEditor.Session.Options

/-!
# Settings

The settings of the editor: how it highlights and edits, and what it remembers from one session to
the next.
-/

namespace SourceEditor

/-- The place of the editor's window. -/
structure WindowBounds where
  x : Int32
  y : Int32
  width : UInt32
  height : UInt32
  deriving DecidableEq, Repr

/-- The settings of the editor. -/
structure Settings where
  tokenHighlighting : Bool := true
  semanticHighlighting : Bool := true
  tabSize : Nat := 4
  indentWithSpaces : Bool := false
  undoLimit : Nat := 100
  lastOpenedFile : Option Path := none
  /-- The files opened last, latest first. -/
  recentFiles : List Path := []
  windowBounds : Option WindowBounds := none
  colors : Scheme := .standard
  deriving DecidableEq

namespace Settings

/-- How many recent files are remembered. -/
def recentLimit : Nat := 10

/-- Notes that a file was opened: it becomes the first of the recent files, where it was before it
is taken out, and the list is cut to its limit. -/
def remember (s : Settings) (file : Path) : Settings :=
  { s with
    lastOpenedFile := some file
    recentFiles := (file :: s.recentFiles.filter (!·.same file)).take recentLimit }

/-- The options of a session with these settings. -/
def options (s : Settings) : Options where
  tokenHighlighting := s.tokenHighlighting
  semanticHighlighting := s.semanticHighlighting
  tabSize := s.tabSize
  indentWithSpaces := s.indentWithSpaces
  undoLimit := s.undoLimit
  colors := s.colors

end Settings

end SourceEditor
